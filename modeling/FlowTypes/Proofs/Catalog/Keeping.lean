import FlowTypes.Proofs.Catalog.Sturdy
import FlowTypes.Proofs.Catalog.Targets
import FlowTypes.Proofs.Patching.Keeping

/-!
# Words that a catalog keeps

What the rules of a catalog do to a file of a class is known from the tables. Members go in after headers, accessors
after declarations of attributes, and the notice before declarations. Signatures get new types, but begin and end as
before. A sturdy word gives way to none of this, so **a rule of a catalog keeps every sturdy word, unless it replaces
the header of a class** (`Drafted.keeps`). Rules for bases and new names keep what lies apart from the header that
they replace.
-/

namespace FlowTypes

/-! ## Rules of drafts -/

section
variable {d : Draft} {r : Rule} {placement : Placement} {anchor : Anchor} {w : Text}

theorem Edit.text_inj {e e' : Edit} (h : e.text = e'.text) : e = e' := by
  have hedit := ofText?_text e
  rw [h, ofText?_text] at hedit
  exact (Option.some.inj hedit).symm

/-- The rule of a draft with an anchor amends at this anchor. -/
theorem Draft.amend_of_check (h : d.check = .ok r) (hedit : d.edit = (Action.amend placement anchor).edit.text)
    (hanchor : d.anchor = some anchor) : r.action = .amend placement anchor := by
  obtain ⟨hedit', hanchor'⟩ := action_of_check h
  have hedits := Edit.text_inj (hedit.symm.trans hedit')
  rw [hanchor] at hanchor'
  cases haction : r.action with
  | create =>
    rw [haction] at hanchor'
    cases hanchor'
  | amend placement' anchor' =>
    rw [haction] at hedits hanchor'
    cases hanchor'
    cases placement <;> cases placement' <;> first | rfl | cases hedits

theorem Rule.keeps_of_check (placement : Placement) (h : d.check = .ok r)
    (hedit : d.edit = (Action.amend placement anchor).edit.text)
    (hanchor : d.anchor = some anchor) {needle : Needle} (hneedle : anchor.needle? = some needle)
    (hkeeps : Patch.Plan.Keeps w ⟨placement, needle, d.content⟩) : r.Keeps w := by
  refine ⟨_, ?_, hkeeps⟩
  rw [plan?, Draft.amend_of_check h hedit hanchor]
  simp only [hneedle, Option.map_some, (Draft.eq_of_check h).2.2.2]

theorem Anchor.needle?_literal {a : Text} (ha : a ≠ []) : (Anchor.literal a).needle? = some ⟨a, false⟩ := by
  obtain ⟨c, rest, rfl⟩ := List.exists_cons_of_ne_nil ha
  rfl

theorem Patch.Plan.keeps_of_apart {needle : Needle} {content : Text}
    (h : Occurrence.apart w needle.text = true) : Patch.Plan.Keeps w ⟨.over, needle, content⟩ := by
  have hkeeps := @Patch.Plan.Keeps.over w needle [] needle.text content [] (by simp) h
  simpa using hkeeps

end

namespace Catalog

/-! ## Rules of the families -/

section
variable {tables : Tables} {d : Draft} {r : Rule} {w : Text} {family D content : Text} {phase : Int}

theorem keeps_afterHeader (hw : Sturdy w) (hD : D.isIdentifier = true)
    (hcheck : (afterHeader family phase D content).check = .ok r) : r.Keeps w :=
  Rule.keeps_of_check .after hcheck rfl rfl (Anchor.needle?_literal (closedBy_classHeader hD).ne_nil)
    (.after (hw.cutAfter_header hD))

theorem keeps_overHeader (hD : D.isIdentifier = true) (hapart : Occurrence.apart w (classHeader D) = true)
    (hcheck : (overHeader family phase D content).check = .ok r) : r.Keeps w :=
  Rule.keeps_of_check .over hcheck rfl rfl (Anchor.needle?_literal (closedBy_classHeader hD).ne_nil)
    (Patch.Plan.keeps_of_apart hapart)

/-- The new kinds stand between what the signatures begin and end with. -/
theorem keeps_setKind (hw : Sturdy w) {kinds : Text} (hcheck : (kindDraft "setKind" "setKind\\(kind: string\\): void"
    ("setKind(kind: " ++ kinds ++ "): void")).check = .ok r) : r.Keeps w := by
  obtain ⟨anchor, hanchor, hneedle⟩ : ∃ anchor, Anchor.ofPattern? "setKind\\(kind: string\\): void" = some anchor ∧
      anchor.needle? = some ⟨"setKind(kind: string): void", false⟩ := ⟨_, rfl, by decide⟩
  refine Rule.keeps_of_check .over hcheck rfl hanchor hneedle ?_
  have hcontent : ∀ front colon kinds close back : Text,
      front ++ colon ++ kinds ++ (close ++ back) = front ++ (colon ++ kinds ++ close) ++ back := by simp
  have hkeeps := @Patch.Plan.Keeps.over w ⟨"setKind(kind: string): void", false⟩ "setKind(kind" ": string)"
    (": " ++ kinds ++ ")") ": void" rfl (hw.apart (by decide) (by decide) (c := ')') (by decide) hw.closing)
  rwa [← hcontent "setKind(kind" ": " kinds ")" ": void"] at hkeeps

theorem keeps_getKind (hw : Sturdy w) {kinds : Text} (hcheck : (kindDraft "getKind" "getKind\\(\\): string"
    ("getKind(): " ++ kinds)).check = .ok r) : r.Keeps w := by
  obtain ⟨anchor, hanchor, hneedle⟩ : ∃ anchor, Anchor.ofPattern? "getKind\\(\\): string" = some anchor ∧
      anchor.needle? = some ⟨"getKind(): string", false⟩ := ⟨_, rfl, by decide⟩
  refine Rule.keeps_of_check .over hcheck rfl hanchor hneedle ?_
  have hcontent : ∀ front close kinds : Text, front ++ close ++ kinds = front ++ (close ++ kinds) ++ [] := by simp
  have hkeeps := @Patch.Plan.Keeps.over w ⟨"getKind(): string", false⟩ "getKind" "(): string"
    ("(): " ++ kinds) [] rfl (hw.apart (by decide) (by decide) (c := ')') (by decide) hw.closing)
  rwa [← hcontent "getKind" "(): " kinds] at hkeeps

/-- The two question marks come in between the first name and the last type. -/
theorem keeps_parameters (hw : Sturdy w) (hcheck : d.check = .ok r) (hedit : d.edit = Edit.replace.text)
    (hcontent : d.content = optionalParameters) (hanchor : d.anchor = some (.literal requiredParameters)) :
    r.Keeps w := by
  have hneedle : requiredParameters = ("type: string, description: string, optionalObjectType" : Text) ++
      ": string, parameterIsOptional" ++ ": boolean" := by decide
  have hoptional : optionalParameters = ("type: string, description: string, optionalObjectType" : Text) ++
      "?: string, parameterIsOptional?" ++ ": boolean" := by decide
  have hne : requiredParameters ≠ [] := by decide
  refine Rule.keeps_of_check .over hcheck hedit hanchor (Anchor.needle?_literal hne) ?_
  rw [hcontent, hoptional]
  exact .over hneedle (hw.apart (by decide) (by decide) (c := ',') (by decide) hw.comma)

theorem keeps_accessors (hw : Sturdy w) {a : Attribute} (hname : a.name.isIdentifier = true)
    (htype : a.type.isIdentifier = true) (hcheck : d.check = .ok r) (hedit : d.edit = Edit.insertAfter.text)
    (hanchor : d.anchor = Anchor.ofPattern? (attributeSource a)) : r.Keeps w := by
  obtain ⟨anchor, hpattern, -, hneedle⟩ := needle?_attributeSource hname
  exact Rule.keeps_of_check .after hcheck hedit (hanchor.trans hpattern) hneedle (.after (hw.attributes a hname htype))

/-- A file is written by rules for this file only. -/
theorem eq_target_of_creates (hcheck : d.check = .ok r) (hedit : d.edit = Edit.create.text) {name : Text}
    (hconcerns : r.concerns name = true) : name = d.target := by
  have haction : r.action = .create := by
    have hedits := Edit.text_inj (hedit.symm.trans (Draft.action_of_check hcheck).1)
    cases haction : r.action with
    | create => rfl
    | amend placement anchor =>
      rw [haction] at hedits
      cases placement <;> cases hedits
  rw [Rule.concerns, Rule.not_isPattern_of_create haction, if_neg Bool.false_ne_true, decide_eq_true_eq] at hconcerns
  exact hconcerns.trans (Draft.eq_of_check hcheck).2.2.1

/-- **Rules keep sturdy words in the files of classes**, but for those that replace a header that the word holds. -/
theorem Drafted.keeps (hnames : tables.WellNamed) (h : Drafted tables d) (hcheck : d.check = .ok r) (hw : Sturdy w)
    {C : Text} (hC : C ∈ tables.classNames) (hconcerns : r.concerns (artifactName C) = true)
    (hbase : ∀ D B, (D, B) ∈ tables.inheritanceEdges → d = inheritanceDraft D B →
      Occurrence.apart w (classHeader D) = true)
    (hrename : ∀ old new, (old, new) ∈ tables.classRenames → d = overHeader "rename" renamePhase old (classHeader new) →
      Occurrence.apart w (classHeader old) = true) : r.Keeps w := by
  cases h with
  | adhoc hd =>
    rw [List.mem_singleton.mp hd] at hcheck
    exact absurd (eq_target_of_creates hcheck rfl hconcerns) (adhocFile_ne_artifactName (hnames.classes C hC))
  | typeFile hspec htype hedit htarget =>
    have hfile := (eq_target_of_creates hcheck hedit hconcerns).trans htarget
    exact absurd (List.append_cancel_right hfile).symm ((hnames.types _ hspec _ htype).2 C hC)
  | constants hspec => exact keeps_afterHeader hw (hnames.classes _ (Tables.owner_mem_classNames hspec)) hcheck
  | moduleHelpers => exact keeps_afterHeader hw (by decide) hcheck
  | serializerHelpers => exact keeps_afterHeader hw (by decide) hcheck
  | container hpair => exact keeps_afterHeader hw (hnames.classes _ (Tables.mem_classNames_of_container hpair)) hcheck
  | base hpair =>
    exact keeps_overHeader (hnames.classes _ (Tables.mem_classNames_of_edge hpair).1) (hbase _ _ hpair rfl) hcheck
  | rename hpair =>
    exact keeps_overHeader (hnames.classes _ (Tables.mem_classNames_of_rename hpair).1) (hrename _ _ hpair rfl) hcheck
  | setKind => exact keeps_setKind hw hcheck
  | getKind => exact keeps_getKind hw hcheck
  | parameters _ _ _ hedit hcontent hanchor => exact keeps_parameters hw hcheck hedit hcontent hanchor
  | accessors ha _ _ hedit _ hanchor =>
    obtain ⟨hname, htype⟩ := hnames.attributes _ ha
    exact keeps_accessors hw hname htype hcheck hedit hanchor
  | notice hd =>
    rw [List.mem_singleton.mp hd] at hcheck
    exact Rule.keeps_of_check .before hcheck rfl rfl rfl (.before hw.cutBefore_declaration)

end

end Catalog

end FlowTypes
