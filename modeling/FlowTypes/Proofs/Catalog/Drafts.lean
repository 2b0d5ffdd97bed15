import FlowTypes.Proofs.Catalog.Names
import FlowTypes.Proofs.Catalog.Standard

/-!
# The drafts of the tables

All drafts of a catalog are put down by one of the families, and there are few ways to put one down. `Drafted` has one
constructor for each of them, and `drafted_of_mem` says that there is no other one. What holds of all rules of a catalog
is seen from there, case by case.

The phases of the families are what keeps the headers of classes in place: whatever goes in after a header does so up to
`containerPhase`, and nothing is replaced before `inheritancePhase` (`phase_le_of_inserts`, `le_phase_of_replaces`).
-/

namespace FlowTypes

/-! ## Checked drafts -/

namespace Draft

variable {d : Draft} {r : Rule}

theorem action_of_withAction {action : Action} (h : d.withAction action = some r) : r.action = action := by
  unfold withAction at h
  split at h
  · cases h
    rfl
  · cases h

theorem action_of_anchored {edit : Edit} {placement : Placement} (h : d.anchored edit placement = .ok r) :
    ∃ anchor, d.anchor = some anchor ∧ r.action = .amend placement anchor := by
  unfold anchored at h
  split at h
  · cases h
  · rename_i anchor hanchor
    split at h
    · cases h
    · split at h
      · rename_i haction
        cases h
        exact ⟨anchor, hanchor, action_of_withAction haction⟩
      · cases h

/-- **A rule has the edit of its draft**, at the anchor of its draft. -/
theorem action_of_check (h : d.check = .ok r) : d.edit = r.action.edit.text ∧ d.anchor = r.action.anchor? := by
  have hedit : ∀ {e : Edit}, Edit.ofText? d.edit = some e → d.edit = e.text := by
    intro e he
    have htext : e.text = d.edit := by simpa using List.find?_some he
    exact htext.symm
  unfold check at h
  split at h
  · cases h
  · rename_i he
    split at h
    · cases h
    · rename_i hanchor
      split at h
      · rename_i haction
        cases h
        rw [action_of_withAction haction]
        exact ⟨hedit he, Option.not_isSome_iff_eq_none.mp hanchor⟩
      · cases h
  all_goals
    rename_i he
    obtain ⟨anchor, hanchor, haction⟩ := action_of_anchored h
    rw [haction]
    exact ⟨hedit he, hanchor⟩

end Draft

namespace Catalog

/-- All drafts make sense, and these are their rules. -/
theorem checkAll_eq_ok_iff {drafts : List Draft} {rules : List Rule} :
    checkAll drafts = .ok rules ↔ drafts.map Draft.check = rules.map .ok :=
  mapM_eq_ok_iff

/-- Every rule is one of a draft. -/
theorem exists_draft_of_checkAll {drafts : List Draft} {rules : List Rule} (h : checkAll drafts = .ok rules) {r : Rule}
    (hr : r ∈ rules) : ∃ d ∈ drafts, d.check = .ok r :=
  exists_of_mem_mapM h hr

/-- The rules of drafts have their names. -/
theorem names_eq_of_map_check : ∀ {drafts : List Draft} {rules : List Rule},
    drafts.map Draft.check = rules.map .ok → rules.map (·.name) = drafts.map (·.name)
  | [], [], _ => rfl
  | d :: rest, r :: more, h => by
    rw [List.map_cons, List.map_cons, List.cons.injEq] at h
    rw [List.map_cons, List.map_cons, (Draft.eq_of_check h.1).1, names_eq_of_map_check h.2]

/-! ## Ways to put a draft down -/

/-- A draft of one of the families. -/
inductive Drafted (tables : Tables) : Draft → Prop
  | adhoc {d : Draft} (hd : d ∈ adhocDrafts) : Drafted tables d
  | typeFile {spec : EnumSpec} {typeName : Text} {d : Draft} (hspec : spec ∈ tables.enums)
      (htype : spec.typeName = some typeName) (hedit : d.edit = Edit.create.text)
      (htarget : d.target = artifactName typeName) (hphase : d.phase = enumPhase) : Drafted tables d
  | constants {spec : EnumSpec} (hspec : spec ∈ tables.enums) (hinject : spec.injectMembers = true) :
      Drafted tables (afterHeader "enum-members" enumPhase spec.owner (memberLines (constantLines spec.members)))
  | moduleHelpers :
      Drafted tables (afterHeader "helpers" conveniencePhase moduleClass (memberLines (moduleLines tables)))
  | serializerHelpers :
      Drafted tables (afterHeader "helpers" conveniencePhase "gdSerializer" (memberLines tables.serializerHelpers))
  | container {C line : Text} (h : (C, line) ∈ tables.containerHelpers) :
      Drafted tables (afterHeader "container" containerPhase C (memberLines [line]))
  | base {C B : Text} (h : (C, B) ∈ tables.inheritanceEdges) : Drafted tables (inheritanceDraft C B)
  | rename {old new : Text} (h : (old, new) ∈ tables.classRenames) :
      Drafted tables (overHeader "rename" renamePhase old (classHeader new))
  | setKind : Drafted tables (kindDraft "setKind" "setKind\\(kind: string\\): void"
      ("setKind(kind: " ++ literalUnion tables.resourceKinds ++ "): void"))
  | getKind : Drafted tables (kindDraft "getKind" "getKind\\(\\): string"
      ("getKind(): " ++ literalUnion tables.resourceKinds))
  | parameters {C : Text} {d : Draft} (h : C ∈ tables.metadataWithParameters) (hphase : d.phase = signaturePhase)
      (htarget : d.target = artifactName C) (hedit : d.edit = Edit.replace.text)
      (hcontent : d.content = optionalParameters) (hanchor : d.anchor = some (.literal requiredParameters)) :
      Drafted tables d
  | accessors {a : Attribute} {d : Draft} (h : a ∈ tables.attributeAccessors) (hphase : d.phase = accessorPhase)
      (htarget : d.target = artifactName a.owner) (hedit : d.edit = Edit.insertAfter.text)
      (hcontent : d.content = memberLines (accessorLines a))
      (hanchor : d.anchor = Anchor.ofPattern? (attributeSource a)) : Drafted tables d
  | notice {d : Draft} (hd : d ∈ noticeDrafts) : Drafted tables d

variable {tables : Tables} {d : Draft}

theorem drafted_of_mem_enumDrafts {spec : EnumSpec} (hspec : spec ∈ tables.enums) (hd : d ∈ enumDrafts spec) :
    Drafted tables d := by
  rcases List.mem_append.mp hd with hd | hd
  · split at hd
    · cases hd
    · rename_i typeName htype
      rw [List.mem_singleton.mp hd]
      exact .typeFile hspec htype rfl rfl rfl
  · split at hd
    · rename_i hinject
      rw [List.mem_singleton.mp hd]
      exact .constants hspec hinject
    · cases hd

theorem drafted_of_mem_signatureDrafts (hd : d ∈ signatureDrafts tables) : Drafted tables d := by
  rcases List.mem_append.mp hd with hd | hd
  · rcases List.mem_cons.mp hd with rfl | hd
    · exact .setKind
    · rw [List.mem_singleton.mp hd]
      exact .getKind
  · obtain ⟨C, hC, rfl⟩ := List.mem_map.mp hd
    exact .parameters hC rfl rfl rfl rfl rfl

/-- **Every draft is put down in one of these ways.** -/
theorem drafted_of_mem (hd : d ∈ drafts tables) : Drafted tables d := by
  simp only [drafts, List.mem_append, or_assoc] at hd
  rcases hd with hd | hd | hd | hd | hd | hd | hd | hd | hd
  · exact .adhoc hd
  · obtain ⟨spec, hspec, hd⟩ := List.mem_flatMap.mp hd
    exact drafted_of_mem_enumDrafts hspec hd
  · rcases List.mem_cons.mp hd with rfl | hd
    · exact .moduleHelpers
    · rw [List.mem_singleton.mp hd]
      exact .serializerHelpers
  · obtain ⟨pair, hpair, rfl⟩ := List.mem_map.mp hd
    exact .container hpair
  · obtain ⟨pair, hpair, rfl⟩ := List.mem_map.mp hd
    exact .base hpair
  · obtain ⟨pair, hpair, rfl⟩ := List.mem_map.mp hd
    exact .rename hpair
  · exact drafted_of_mem_signatureDrafts hd
  · obtain ⟨a, ha, rfl⟩ := List.mem_map.mp hd
    exact .accessors ha rfl rfl rfl rfl rfl
  · exact .notice hd

/-! ## Phases -/

/-- A pattern is no literal text. -/
theorem ofPattern?_ne_literal (source a : Text) : Anchor.ofPattern? source ≠ some (.literal a) := by
  intro h
  obtain ⟨regex, -, hregex⟩ := Option.map_eq_some_iff.mp h
  cases hregex

/-- What goes in after a literal text does so before any header changes. -/
theorem Drafted.phase_le_of_inserts (h : Drafted tables d) (hedit : d.edit = Edit.insertAfter.text) {a : Text}
    (hanchor : d.anchor = some (.literal a)) : d.phase ≤ containerPhase := by
  have hcreate : Edit.create.text ≠ Edit.insertAfter.text := by decide
  have hreplace : Edit.replace.text ≠ Edit.insertAfter.text := by decide
  cases h with
  | adhoc hd =>
    rw [List.mem_singleton.mp hd] at hedit
    exact absurd hedit hcreate
  | typeFile _ _ hcreates => exact absurd (hcreates.symm.trans hedit) hcreate
  | constants => exact (by decide : enumPhase ≤ containerPhase)
  | moduleHelpers => exact (by decide : conveniencePhase ≤ containerPhase)
  | serializerHelpers => exact (by decide : conveniencePhase ≤ containerPhase)
  | container => exact Int.le_refl containerPhase
  | base => exact absurd hedit hreplace
  | rename => exact absurd hedit hreplace
  | setKind => exact absurd hedit hreplace
  | getKind => exact absurd hedit hreplace
  | parameters _ _ _ hreplaces => exact absurd (hreplaces.symm.trans hedit) hreplace
  | accessors _ _ _ _ _ hpattern => exact absurd (hpattern.symm.trans hanchor) (ofPattern?_ne_literal _ _)
  | notice hd =>
    rw [List.mem_singleton.mp hd] at hedit
    have hbefore : Edit.insertBefore.text ≠ Edit.insertAfter.text := by decide
    exact absurd hedit hbefore

/-- What takes the place of something does so after all insertions into classes. -/
theorem Drafted.le_phase_of_replaces (h : Drafted tables d) (hedit : d.edit = Edit.replace.text) :
    inheritancePhase ≤ d.phase := by
  have hcreate : Edit.create.text ≠ Edit.replace.text := by decide
  have hinsert : Edit.insertAfter.text ≠ Edit.replace.text := by decide
  cases h with
  | adhoc hd =>
    rw [List.mem_singleton.mp hd] at hedit
    exact absurd hedit hcreate
  | typeFile _ _ hcreates => exact absurd (hcreates.symm.trans hedit) hcreate
  | constants => exact absurd hedit hinsert
  | moduleHelpers => exact absurd hedit hinsert
  | serializerHelpers => exact absurd hedit hinsert
  | container => exact absurd hedit hinsert
  | base => exact Int.le_refl inheritancePhase
  | rename => exact (by decide : inheritancePhase ≤ renamePhase)
  | setKind => exact (by decide : inheritancePhase ≤ signaturePhase)
  | getKind => exact (by decide : inheritancePhase ≤ signaturePhase)
  | parameters _ hphase =>
    rw [hphase]
    decide
  | accessors _ hphase =>
    rw [hphase]
    decide
  | notice hd =>
    rw [List.mem_singleton.mp hd]
    decide

end Catalog

end FlowTypes
