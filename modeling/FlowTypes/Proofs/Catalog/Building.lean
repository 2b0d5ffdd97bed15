import FlowTypes.Proofs.Catalog.Authored
import FlowTypes.Proofs.FileTree.Listing

/-!
# Building a catalog

The names of rules are composed from several tables, so entries of quite different tables can ask for one name. The
catalog is then not built, and the fault lists the names that several rules have, in ascending order and each one once
(`mem_repeatedNames`, `pairwise_repeatedNames`). If all names differ, the catalog has the rules of the families, each one
once, in the order of their phases.

In this order **every rule that inserts after the header of a class comes before every rule that replaces one**: nothing
is inserted after a header later than `containerPhase`, and nothing is replaced before `inheritancePhase`
(`build_spec`).
-/

namespace FlowTypes

open Catalog (classHeader)

/-- The content goes after the header of a class. -/
def Rule.InsertsAfterHeader (r : Rule) : Prop := ∃ C, r.action = .amend .after (.literal (classHeader C))

/-- The content takes the place of the header of a class. -/
def Rule.ReplacesHeader (r : Rule) : Prop := ∃ C, r.action = .amend .over (.literal (classHeader C))

namespace Catalog

variable {tables : Tables} {rules : List Rule}

/-! ## Repeated names -/

theorem mem_repeatedNames {name : Text} :
    name ∈ repeatedNames rules ↔ 2 ≤ (rules.map (·.name)).count name := by
  rw [repeatedNames, Text.mem_sortedDistinct, List.mem_filter, decide_eq_true_eq]
  refine ⟨fun h => h.2, fun h => ⟨?_, h⟩⟩
  exact List.count_pos_iff.mp (by omega)

theorem pairwise_repeatedNames (rules : List Rule) : (repeatedNames rules).Pairwise (· < ·) :=
  Text.pairwise_lt_sortedDistinct _

theorem repeatedNames_eq_nil_iff : repeatedNames rules = [] ↔ (rules.map (·.name)).Nodup := by
  refine ⟨fun h => List.nodup_iff_count.mpr fun name => ?_, repeatedNames_eq_nil⟩
  have hmem : name ∉ repeatedNames rules := h ▸ List.not_mem_nil
  rw [mem_repeatedNames] at hmem
  omega

/-- Names are not distinct if two rules have one. -/
theorem not_nodup_names_iff : ¬ (rules.map (·.name)).Nodup ↔
    ∃ i j : Fin rules.length, i < j ∧ (rules.get i).name = (rules.get j).name := by
  rw [List.nodup_iff_pairwise_ne, List.pairwise_map, List.pairwise_iff_getElem]
  constructor
  · intro h
    simp only [Classical.not_forall, Decidable.not_not] at h
    obtain ⟨i, j, hi, hj, hij, hname⟩ := h
    exact ⟨⟨i, hi⟩, ⟨j, hj⟩, hij, hname⟩
  · rintro ⟨i, j, hij, hname⟩ h
    exact h i j i.isLt j.isLt hij hname

/-! ## Headers -/

/-- Insertions after headers are done before anything is replaced. -/
theorem phase_lt_of_headers (hcheck : checkAll (drafts tables) = .ok rules) {r s : Rule} (hr : r ∈ rules)
    (hs : s ∈ rules) (hinserts : r.InsertsAfterHeader) (hreplaces : s.ReplacesHeader) : r.phase < s.phase := by
  obtain ⟨d, hd, hdcheck⟩ := exists_draft_of_checkAll hcheck hr
  obtain ⟨e, he, hecheck⟩ := exists_draft_of_checkAll hcheck hs
  obtain ⟨C, hC⟩ := hinserts
  obtain ⟨D, hD⟩ := hreplaces
  have hdedit := Draft.action_of_check hdcheck
  have heedit := Draft.action_of_check hecheck
  rw [hC] at hdedit
  rw [hD] at heedit
  have hbefore : d.phase ≤ containerPhase := (drafted_of_mem hd).phase_le_of_inserts hdedit.1 hdedit.2
  have hafter : inheritancePhase ≤ e.phase := (drafted_of_mem he).le_phase_of_replaces heedit.1
  have hphases : containerPhase < inheritancePhase := by decide
  have hdphase := (Draft.eq_of_check hdcheck).2.1
  have hephase := (Draft.eq_of_check hecheck).2.1
  omega

/-! ## The catalog of some tables -/

/-- The rules in the order of their phases, with names of their own, and headers are replaced when all insertions after
them are done. -/
structure IsCatalog (rules catalog : List Rule) : Prop extends InPhaseOrder rules catalog where
  distinct : (catalog.map (·.name)).Nodup
  headers : catalog.Pairwise fun r later => ¬ (r.ReplacesHeader ∧ later.InsertsAfterHeader)

theorem isCatalog_inOrder (hcheck : checkAll (drafts tables) = .ok rules) (hnames : (rules.map (·.name)).Nodup) :
    IsCatalog rules (inOrder rules) where
  toInPhaseOrder := inPhaseOrder_inOrder rules
  distinct := ((inOrder_perm rules).map (·.name)).nodup_iff.mpr hnames
  headers := by
    refine (pairwise_inOrder rules).imp_of_mem fun {r later} hr hlater hphase ⟨hreplaces, hinserts⟩ => ?_
    have hlt := phase_lt_of_headers hcheck (mem_inOrder.mp hlater) (mem_inOrder.mp hr) hinserts hreplaces
    omega

/-- What is built is the catalog of the rules of the drafts. -/
theorem isCatalog_of_build {catalog : List Rule} (h : build tables = .ok catalog) :
    ∃ rules, checkAll (drafts tables) = .ok rules ∧ IsCatalog rules catalog := by
  unfold build at h
  split at h
  · cases h
  · rename_i rules hcheck
    split at h
    · rename_i hempty
      cases h
      exact ⟨rules, hcheck, isCatalog_inOrder hcheck (repeatedNames_eq_nil_iff.mp (List.isEmpty_iff.mp hempty))⟩
    · cases h

/-- **A catalog is built unless two rules of the families have one name.** If two have, the fault lists all such names,
each one once and in ascending order. Otherwise the catalog is made up of the rules of the families, each one once, in the
order of their phases and in the order of the tables within a phase, and the insertions after headers come before the
replacements of headers. -/
theorem build_spec {families : Families} (h : families.Of tables) :
    ((∃ fault, build tables = .error fault) ↔
        ∃ i j : Fin families.rules.length, i < j ∧ (families.rules.get i).name = (families.rules.get j).name) ∧
      (∀ fault, build tables = .error fault → ∃ names : List Text,
        fault.message = "Duplicate patch rule names: " ++ Text.join ", " names ∧
          (∀ name, name ∈ names ↔ 2 ≤ (families.rules.map (·.name)).count name) ∧ names.Pairwise (· < ·)) ∧
      ((families.rules.map (·.name)).Nodup →
        ∃ catalog, build tables = .ok catalog ∧ IsCatalog families.rules catalog) := by
  have hcheck := checkAll_drafts h
  have hbuild : build tables = if (families.rules.map (·.name)).Nodup then .ok (inOrder families.rules)
      else .error (.duplicateNames (repeatedNames families.rules)) := by
    simp only [build, hcheck, List.isEmpty_iff, repeatedNames_eq_nil_iff]
  refine ⟨?_, ?_, fun hnames => ?_⟩
  · rw [← not_nodup_names_iff, hbuild]
    split <;> simp [*]
  · intro fault hfault
    rw [hbuild] at hfault
    split at hfault
    · cases hfault
    · cases hfault
      exact ⟨repeatedNames families.rules, rfl, fun _ => mem_repeatedNames, pairwise_repeatedNames families.rules⟩
  · rw [hbuild, if_pos hnames]
    exact ⟨inOrder families.rules, rfl, isCatalog_inOrder hcheck hnames⟩

/-- Tables that ask for two functions of one container and for two bases of one class. -/
def doubledTables : Tables where
  enums := [⟨"gdVariable", some "Variable_Type", ["Unknown", "String"], true⟩]
  moduleHelpers := []
  moduleCasts := []
  serializerHelpers := []
  containerHelpers := [("gdVectorString", "push_back(x: string): void;"), ("gdVectorString", "clear(): void;")]
  inheritanceEdges := [("gdLayout", "gdObjectsContainer"), ("gdProject", "gdLayout"), ("gdLayout", "gdProject")]
  classRenames := []
  resourceKinds := []
  metadataWithParameters := []
  attributeAccessors := []

theorem exists_families_doubledTables : ∃ families : Families, families.Of doubledTables := by
  have hok : (checkAll (drafts doubledTables)).isOk = true := by decide +kernel
  cases hrules : checkAll (drafts doubledTables) with
  | error fault =>
    rw [hrules] at hok
    cases hok
  | ok rules => exact exists_families fun d hd => (exists_rule_of_checkAll hrules d hd).imp fun _ h => h.2

theorem exists_families_standard : ∃ families : Families, families.Of .standard :=
  exists_families fun _ hd => (exists_rule_of_draft hd).imp fun _ h => h.2

/-- The catalog of the bindings has their rules as they are put down. -/
theorem checkAll_standard : checkAll (drafts .standard) = .ok standard ∧ inOrder standard = standard := by
  obtain ⟨families, hfamilies⟩ := exists_families_standard
  obtain ⟨rules, hcheck, hstandard, -⟩ := exists_standard_eq
  have hrules : rules = families.rules := Except.ok.inj (hcheck.symm.trans (checkAll_drafts hfamilies))
  have horder : inOrder rules = rules := by rw [hrules, inOrder_rules hfamilies]
  rw [hstandard, horder]
  exact ⟨hcheck, horder⟩

/-- What is computed from the drafts is true of the catalog. -/
theorem standard_of_test {p : List Rule → Bool} (h : (checkAll (drafts .standard)).toOption.any p = true) :
    p standard = true := by
  rw [checkAll_standard.1] at h
  exact h

/-- The tables of the bindings give a catalog, and the doubled tables give a fault that names what is doubled. -/
theorem build_spec_standard :
    (∃ families : Families, families.Of .standard ∧
        ∃ catalog, build .standard = .ok catalog ∧ IsCatalog families.rules catalog) ∧
      ∃ families : Families, families.Of doubledTables ∧ ∃ fault names, build doubledTables = .error fault ∧
        fault.message = "Duplicate patch rule names: " ++ Text.join ", " names ∧
          ("container:gdVectorString" : Text) ∈ names ∧ ("extends:gdLayout" : Text) ∈ names ∧
            ("extends:gdProject" : Text) ∉ names := by
  constructor
  · obtain ⟨families, hfamilies⟩ := exists_families_standard
    obtain ⟨hiff, -, hcatalog⟩ := build_spec hfamilies
    obtain ⟨_, -, hbuild, -⟩ := build_of_passes standard_passes
    refine ⟨families, hfamilies, hcatalog (Decidable.byContradiction fun hnames => ?_)⟩
    obtain ⟨fault, hfault⟩ := hiff.mpr (not_nodup_names_iff.mp hnames)
    rw [hbuild] at hfault
    cases hfault
  · obtain ⟨families, hfamilies⟩ := exists_families_doubledTables
    obtain ⟨hiff, hfault, -⟩ := build_spec hfamilies
    have hnames := names_eq_of_map_check (checkAll_eq_ok_iff.mp (checkAll_drafts hfamilies))
    obtain ⟨fault, hbuild⟩ := hiff.mpr (not_nodup_names_iff.mp (by rw [hnames]; decide))
    obtain ⟨names, hmessage, hmem, -⟩ := hfault fault hbuild
    simp only [hnames] at hmem
    exact ⟨families, hfamilies, fault, names, hbuild, hmessage, (hmem _).mpr (by decide), (hmem _).mpr (by decide),
      fun h => absurd ((hmem _).mp h) (by decide)⟩

end Catalog

end FlowTypes
