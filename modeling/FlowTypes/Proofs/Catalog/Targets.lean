import FlowTypes.Proofs.Catalog.Drafts
import FlowTypes.Proofs.FileTree.Under
import FlowTypes.Proofs.Patching.Revision

/-!
# Targets of rules

The rules for a class have the file of the class as their target. Its name is the name of the class in lower case, so
two classes can share a file. If all names in the tables are identifiers (`Tables.WellNamed`), every rule is about one
file in the directory, or about all declarations there (`Drafted.isSingle`).
-/

namespace FlowTypes

/-! ## Lower case -/

namespace Text

theorem toNat_lt_of_isIdentifierChar {c : Char} (h : isIdentifierChar c = true) : c.toNat < 128 := by
  simp only [isIdentifierChar, Class.isAsciiAlphanumeric, Bool.or_eq_true, Bool.and_eq_true, beq_iff_eq,
    decide_eq_true_eq] at h
  rcases h with rfl | h
  · decide
  · omega

theorem isIdentifierChar_lowerChar {c : Char} (h : isIdentifierChar c = true) :
    isIdentifierChar (lowerChar c) = true := by
  have hsmall := toNat_lt_of_isIdentifierChar h
  simp only [lowerChar, hsmall, if_true]
  split
  · rename_i hupper
    simp only [Bool.and_eq_true, decide_eq_true_eq] at hupper
    have hlower : (Char.ofNat (c.toNat + 32)).toNat = c.toNat + 32 := by
      rw [Char.ofNat, dif_pos (.inl (by omega))]
      rfl
    simp only [isIdentifierChar, Class.isAsciiAlphanumeric, hlower, Bool.or_eq_true, Bool.and_eq_true,
      decide_eq_true_eq]
    omega
  · exact h

/-- Lower case makes an identifier character of each identifier character. -/
theorem lowerFrom_of_isIdentifierChar {t : Text} (h : ∀ c ∈ t, isIdentifierChar c = true) (before : Text) :
    lowerFrom before t = t.map lowerChar := by
  induction t generalizing before with
  | nil => rfl
  | cons c t ih =>
    have hsmall := toNat_lt_of_isIdentifierChar (h c List.mem_cons_self)
    have hdotted : (c.toNat == 0x130) = false := by simp; omega
    have hsigma : (c.toNat == 0x3a3) = false := by simp; omega
    rw [lowerFrom, ih fun c hc => h c (List.mem_cons_of_mem _ hc), hdotted, hsigma]
    rfl

theorem isIdentifierChar_of_mem_lower {t : Text} (h : t.isIdentifier = true) {c : Char} (hc : c ∈ lower t) :
    isIdentifierChar c = true := by
  rw [lower, lowerFrom_of_isIdentifierChar fun c hc => isIdentifierChar_of_mem h hc] at hc
  obtain ⟨d, hd, rfl⟩ := List.mem_map.mp hc
  exact isIdentifierChar_lowerChar (isIdentifierChar_of_mem h hd)

end Text

namespace Catalog

/-! ## Files of classes -/

section
variable {C : Text}

theorem not_mem_artifactName (hC : C.isIdentifier = true) {c : Char} (hc : Text.isIdentifierChar c = false)
    (hend : c ∉ (".js" : Text)) : c ∉ artifactName C := by
  rw [artifactName, List.mem_append, not_or]
  exact ⟨fun h => Bool.false_ne_true (hc.symm.trans (Text.isIdentifierChar_of_mem_lower hC h)), hend⟩

theorem isName_artifactName (hC : C.isIdentifier = true) : (artifactName C).isName = true := by
  have hletter : 'j' ∈ artifactName C := List.mem_append_right _ (by decide)
  refine Text.isName_iff.mpr ⟨not_mem_artifactName hC (by decide) (by decide), ?_, ?_, ?_⟩
  all_goals
    intro h
    rw [h] at hletter
    revert hletter
    decide

theorem isPattern_artifactName (hC : C.isIdentifier = true) : Wildcard.isPattern (artifactName C) = false := by
  rw [Wildcard.isPattern, List.any_eq_false]
  intro c hc
  have hne : ∀ d : Char, Text.isIdentifierChar d = false → d ∉ (".js" : Text) → c ≠ d := fun d hd hend e =>
    not_mem_artifactName hC hd hend (e ▸ hc)
  simp [hne '*' (by decide) (by decide), hne '?' (by decide) (by decide), hne '[' (by decide) (by decide)]

theorem adhocFile_ne_artifactName (hC : C.isIdentifier = true) : artifactName C ≠ adhocFile := fun h =>
  not_mem_artifactName hC (c := '-') (by decide) (by decide) (h ▸ by decide)

end

/-! ## Tables of names -/

namespace Tables

/-- The names of classes that the tables have members, bases or new names for. -/
def classNames (tables : Tables) : List Text :=
  tables.enums.map (·.owner)
    ++ tables.containerHelpers.map Prod.fst
    ++ tables.inheritanceEdges.flatMap (fun (className, baseName) => [className, baseName])
    ++ tables.classRenames.flatMap (fun (old, new) => [old, new])
    ++ tables.metadataWithParameters
    ++ tables.attributeAccessors.map (·.owner)

/-- The names in the tables are identifiers, and no type of an enumeration shares its file with a class. -/
structure WellNamed (tables : Tables) : Prop where
  classes : ∀ C ∈ tables.classNames, Text.isIdentifier C = true
  types : ∀ spec ∈ tables.enums, ∀ typeName, spec.typeName = some typeName →
    typeName.isIdentifier = true ∧ ∀ C ∈ tables.classNames, Text.lower typeName ≠ Text.lower C
  members : ∀ spec ∈ tables.enums, ∀ name ∈ spec.members, Text.isIdentifier name = true
  attributes : ∀ a ∈ tables.attributeAccessors, Text.isIdentifier a.name = true ∧ Text.isIdentifier a.type = true

section
variable {tables : Tables} {C B : Text}

theorem owner_mem_classNames {spec : EnumSpec} (h : spec ∈ tables.enums) : spec.owner ∈ tables.classNames := by
  simp only [classNames, List.mem_append, List.mem_map]
  exact .inl (.inl (.inl (.inl (.inl ⟨spec, h, rfl⟩))))

theorem mem_classNames_of_container {line : Text} (h : (C, line) ∈ tables.containerHelpers) :
    C ∈ tables.classNames := by
  simp only [classNames, List.mem_append, List.mem_map]
  exact .inl (.inl (.inl (.inl (.inr ⟨(C, line), h, rfl⟩))))

theorem mem_classNames_of_edge (h : (C, B) ∈ tables.inheritanceEdges) :
    C ∈ tables.classNames ∧ B ∈ tables.classNames := by
  have hpair : ∀ name ∈ [C, B], name ∈ tables.classNames := fun name hname => by
    simp only [classNames, List.mem_append, List.mem_flatMap]
    exact .inl (.inl (.inl (.inr ⟨(C, B), h, hname⟩)))
  exact ⟨hpair C List.mem_cons_self, hpair B (List.mem_cons_of_mem _ List.mem_cons_self)⟩

theorem mem_classNames_of_rename (h : (C, B) ∈ tables.classRenames) :
    C ∈ tables.classNames ∧ B ∈ tables.classNames := by
  have hpair : ∀ name ∈ [C, B], name ∈ tables.classNames := fun name hname => by
    simp only [classNames, List.mem_append, List.mem_flatMap]
    exact .inl (.inl (.inr ⟨(C, B), h, hname⟩))
  exact ⟨hpair C List.mem_cons_self, hpair B (List.mem_cons_of_mem _ List.mem_cons_self)⟩

theorem mem_classNames_of_metadata (h : C ∈ tables.metadataWithParameters) : C ∈ tables.classNames := by
  simp only [classNames, List.mem_append]
  exact .inl (.inr h)

theorem owner_mem_classNames_of_attribute {a : Attribute} (h : a ∈ tables.attributeAccessors) :
    a.owner ∈ tables.classNames := by
  simp only [classNames, List.mem_append, List.mem_map]
  exact .inr ⟨a, h, rfl⟩

end

end Tables

/-! ## Targets -/

variable {tables : Tables} {d : Draft} {r : Rule}

/-- A draft is for the file of a class, for the types that belong to no class, or for all declarations. -/
theorem Drafted.target_cases (hnames : tables.WellNamed) (h : Drafted tables d) :
    (∃ C : Text, C.isIdentifier = true ∧ d.target = artifactName C) ∨ d.target = adhocFile ∨ d.target = "*.js" := by
  cases h with
  | adhoc hd =>
    rw [List.mem_singleton.mp hd]
    exact .inr (.inl rfl)
  | typeFile hspec htype _ htarget => exact .inl ⟨_, (hnames.types _ hspec _ htype).1, htarget⟩
  | constants hspec => exact .inl ⟨_, hnames.classes _ (Tables.owner_mem_classNames hspec), rfl⟩
  | moduleHelpers => exact .inl ⟨moduleClass, by decide, rfl⟩
  | serializerHelpers => exact .inl ⟨"gdSerializer", by decide, rfl⟩
  | container hpair => exact .inl ⟨_, hnames.classes _ (Tables.mem_classNames_of_container hpair), rfl⟩
  | base hpair => exact .inl ⟨_, hnames.classes _ (Tables.mem_classNames_of_edge hpair).1, rfl⟩
  | rename hpair => exact .inl ⟨_, hnames.classes _ (Tables.mem_classNames_of_rename hpair).1, rfl⟩
  | setKind => exact .inl ⟨"gdResource", by decide, rfl⟩
  | getKind => exact .inl ⟨"gdResource", by decide, rfl⟩
  | parameters hC _ htarget =>
    exact .inl ⟨_, hnames.classes _ (Tables.mem_classNames_of_metadata hC), htarget⟩
  | accessors ha _ htarget =>
    exact .inl ⟨_, hnames.classes _ (Tables.owner_mem_classNames_of_attribute ha), htarget⟩
  | notice hd =>
    rw [List.mem_singleton.mp hd]
    exact .inr (.inr rfl)

/-- **Every rule is about one file in the directory, or about all declarations there.** -/
theorem Drafted.isSingle (hnames : tables.WellNamed) (h : Drafted tables d) (hcheck : d.check = .ok r) :
    r.isSingle = true := by
  have htarget := (Draft.eq_of_check hcheck).2.2.1
  unfold Rule.isSingle
  rcases h.target_cases hnames with ⟨C, hC, hfile⟩ | hfile | hfile
  · rw [htarget, hfile, isPattern_artifactName hC, if_neg Bool.false_ne_true]
    exact isName_artifactName hC
  · rw [htarget, hfile]
    decide
  · rw [htarget, hfile]
    decide

end Catalog

end FlowTypes
