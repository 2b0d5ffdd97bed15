import FlowTypes.Catalog
import FlowTypes.Proofs.Fallible
import FlowTypes.Proofs.Patching.Completion

/-!
# The catalog of the bindings is orderly

Which of two rules comes later is a matter of their phases. So a catalog is orderly if its rules pass a test that
looks at any two of them whose phases allow the second to come after the first (`isOrderly`), whatever the order
they are put down in (`orderly_inOrder`). In the same way it is enough that the rules of the first phase write
files (`startsWithCreate_inOrder`).

The rules of the tables of the bindings pass (`standard_passes`). This is computed from the tables, and it is the
one place where their texts are looked at.
-/

namespace FlowTypes

/-- The rules are about different names, they are the same rule, or the first bears the second. -/
def Rule.tolerates (r later : Rule) : Bool :=
  (!Wildcard.isPattern r.target && !Wildcard.isPattern later.target && decide (r.target ≠ later.target))
    || decide (r = later) || r.bears later

theorem Rule.toleratesLater_of_tolerates {r later : Rule} (h : r.tolerates later = true) :
    r.ToleratesLater later := by
  simp only [tolerates, Bool.or_eq_true, Bool.and_eq_true, Bool.not_eq_true', decide_eq_true_eq] at h
  rcases h with (⟨⟨hp, hp'⟩, hne⟩ | rfl) | hbears
  · refine .inr (.inl fun name hname => ?_)
    simp only [concerns, hp, hp', Bool.false_eq_true, if_false, decide_eq_true_eq,
      decide_eq_false_iff_not] at hname ⊢
    exact hname ▸ hne
  · exact .inl rfl
  · exact .inr (.inr hbears)

/-- A rule has the data of its draft. -/
theorem Draft.eq_of_check {d : Draft} {r : Rule} (h : d.check = .ok r) :
    r.name = d.name ∧ r.phase = d.phase ∧ r.target = d.target ∧ r.content = d.content := by
  have hwith : ∀ {action : Action}, d.withAction action = some r →
      r.name = d.name ∧ r.phase = d.phase ∧ r.target = d.target ∧ r.content = d.content := by
    intro action haction
    unfold withAction at haction
    split at haction
    · cases haction
      exact ⟨rfl, rfl, rfl, rfl⟩
    · cases haction
  have hanchored : ∀ {edit : Edit} {placement : Placement}, d.anchored edit placement = .ok r →
      r.name = d.name ∧ r.phase = d.phase ∧ r.target = d.target ∧ r.content = d.content := by
    intro edit placement hanchor
    unfold anchored at hanchor
    split at hanchor
    · cases hanchor
    · split at hanchor
      · cases hanchor
      · split at hanchor
        · rename_i haction
          cases hanchor
          exact hwith haction
        · cases hanchor
  unfold check at h
  split at h
  · cases h
  · split at h
    · cases h
    · split at h
      · rename_i haction
        cases h
        exact hwith haction
      · cases h
  all_goals exact hanchored h

namespace Catalog

/-! ## Drafts -/

/-- Every draft has its rule. -/
theorem exists_rule_of_checkAll {drafts : List Draft} {rules : List Rule} (h : checkAll drafts = .ok rules) :
    ∀ d ∈ drafts, ∃ r ∈ rules, d.check = .ok r :=
  fun _ hd => exists_mem_of_mapM h hd

/-! ## Order -/

theorem mem_inOrder {rules : List Rule} {r : Rule} : r ∈ inOrder rules ↔ r ∈ rules :=
  (inOrder_perm rules).mem_iff

/-- Phases ascend. -/
theorem pairwise_inOrder (rules : List Rule) :
    (inOrder rules).Pairwise fun r later => r.phase ≤ later.phase := by
  have hsorted : (inOrder rules).Pairwise fun r later => decide (r.phase ≤ later.phase) = true :=
    List.pairwise_mergeSort (fun a b c => by simpa using Int.le_trans)
      (fun a b => by simpa using Int.le_total _ _) rules
  exact hsorted.imp fun h => of_decide_eq_true h

/-! ## Tests -/

/-- Every rule passes by itself and tolerates all others that may come after it. -/
def isOrderly (rules : List Rule) : Bool :=
  rules.all fun r => r.isSingle && r.isSound &&
    rules.all fun later => decide (later.phase < r.phase) || r.tolerates later

/-- There are rules up to this phase, and all of them write files. -/
def createsUpTo (phase : Int) (rules : List Rule) : Bool :=
  rules.any (fun r => r.phase ≤ phase) && rules.all fun r => decide (phase < r.phase) || r.action = .create

section
variable {rules : List Rule}

/-- **Rules that pass are orderly once they are in order.** -/
theorem orderly_inOrder (h : isOrderly rules = true) : Orderly (inOrder rules) := by
  simp only [isOrderly, List.all_eq_true, Bool.and_eq_true, Bool.or_eq_true, decide_eq_true_eq] at h
  refine ⟨fun r hr => (h r (mem_inOrder.mp hr)).1.1, fun r hr => (h r (mem_inOrder.mp hr)).1.2, ?_⟩
  refine (pairwise_inOrder rules).imp_of_mem fun {r later} hr hlater hphase => ?_
  rcases (h r (mem_inOrder.mp hr)).2 later (mem_inOrder.mp hlater) with hbefore | htolerates
  · omega
  · exact Rule.toleratesLater_of_tolerates htolerates

theorem startsWithCreate_inOrder {phase : Int} (h : createsUpTo phase rules = true) :
    StartsWithCreate (inOrder rules) := by
  simp only [createsUpTo, List.any_eq_true, List.all_eq_true, Bool.and_eq_true, Bool.or_eq_true,
    decide_eq_true_eq] at h
  obtain ⟨⟨early, hearly, hphase⟩, hcreate⟩ := h
  have hsorted := pairwise_inOrder rules
  have hmem := mem_inOrder.mpr hearly
  cases horder : inOrder rules with
  | nil =>
    rw [horder] at hmem
    cases hmem
  | cons r rest =>
    rw [horder] at hsorted hmem
    -- the first rule is in no later phase than the early one
    have hfirst : r.phase ≤ phase := by
      rcases List.mem_cons.mp hmem with rfl | hmem
      · exact hphase
      · exact Int.le_trans ((List.pairwise_cons.mp hsorted).1 early hmem) hphase
    have hr : r ∈ rules := mem_inOrder.mp (horder ▸ List.mem_cons_self)
    exact ⟨r, rest, rfl, (hcreate r hr).resolve_left (by omega)⟩

theorem isOrderly_inOrder (rules : List Rule) : isOrderly (inOrder rules) = isOrderly rules := by
  unfold isOrderly
  rw [(inOrder_perm rules).all_eq]
  exact congrArg rules.all (funext fun r => by rw [(inOrder_perm rules).all_eq])

theorem createsUpTo_perm {rules' : List Rule} (h : rules'.Perm rules) (phase : Int) :
    createsUpTo phase rules' = createsUpTo phase rules := by
  unfold createsUpTo
  rw [h.all_eq, h.any_eq]

/-- Names that differ are no fault. -/
theorem repeatedNames_eq_nil (h : (rules.map (·.name)).Nodup) : repeatedNames rules = [] := by
  have hnone : (rules.map (·.name)).filter (fun name => 1 < (rules.map (·.name)).count name) = [] := by
    refine List.filter_eq_nil_iff.mpr fun name _ => ?_
    have hcount := List.nodup_iff_count.mp h name
    simp only [decide_eq_true_eq]
    omega
  simp [repeatedNames, hnone, Text.sortedDistinct]

end

/-! ## The tables of the bindings -/

/-- The drafts make sense, and their rules pass and have different names and short targets. -/
def passes (tables : Tables) : Bool :=
  match checkAll (drafts tables) with
  | .error _ => false
  | .ok rules =>
    isOrderly rules && createsUpTo adhocPhase rules && rules.all (·.target.isShortName)
      && decide (rules.map (·.name)).Nodup

theorem build_of_passes {tables : Tables} (h : passes tables = true) :
    ∃ rules, checkAll (drafts tables) = .ok rules ∧ build tables = .ok (inOrder rules) ∧
      isOrderly rules = true ∧ createsUpTo adhocPhase rules = true ∧
        ∀ r ∈ rules, r.target.isShortName = true := by
  unfold passes at h
  split at h
  · cases h
  · rename_i rules hrules
    simp only [Bool.and_eq_true, decide_eq_true_eq, List.all_eq_true] at h
    obtain ⟨⟨⟨horderly, hcreates⟩, hshort⟩, hnodup⟩ := h
    exact ⟨rules, hrules, by simp [build, hrules, repeatedNames_eq_nil hnodup], horderly, hcreates, hshort⟩

set_option maxRecDepth 8192 in
theorem standard_passes : passes .standard = true := by decide +kernel

/-- The tables of the bindings give a catalog. -/
theorem exists_standard_eq : ∃ rules, checkAll (drafts .standard) = .ok rules ∧ standard = inOrder rules ∧
    isOrderly rules = true ∧ createsUpTo adhocPhase rules = true ∧
      ∀ r ∈ rules, r.target.isShortName = true := by
  obtain ⟨rules, hcheck, hbuild, hpasses⟩ := build_of_passes standard_passes
  exact ⟨rules, hcheck, by rw [standard, hbuild]; rfl, hpasses⟩

/-- Every draft of the bindings has its rule in the catalog. -/
theorem exists_rule_of_draft {d : Draft} (hd : d ∈ drafts .standard) :
    ∃ r ∈ inOrder standard, d.check = .ok r := by
  obtain ⟨rules, hcheck, hstandard, -⟩ := exists_standard_eq
  obtain ⟨r, hr, hrule⟩ := exists_rule_of_checkAll hcheck d hd
  exact ⟨r, mem_inOrder.mpr (by rw [hstandard]; exact mem_inOrder.mpr hr), hrule⟩

theorem orderly_standard : Orderly (inOrder standard) := by
  obtain ⟨rules, -, hstandard, horderly, -⟩ := exists_standard_eq
  exact orderly_inOrder (by rw [hstandard, isOrderly_inOrder, horderly])

theorem startsWithCreate_standard : StartsWithCreate (inOrder standard) := by
  obtain ⟨rules, -, hstandard, -, hcreates, -⟩ := exists_standard_eq
  exact startsWithCreate_inOrder (by rw [hstandard, createsUpTo_perm (inOrder_perm rules), hcreates])

theorem isShortName_target_standard {r : Rule} (hr : r ∈ inOrder standard) :
    r.target.isShortName = true := by
  obtain ⟨rules, -, hstandard, -, -, hshort⟩ := exists_standard_eq
  refine hshort r ?_
  rw [hstandard] at hr
  exact mem_inOrder.mp (mem_inOrder.mp hr)

/-- **The catalog succeeds over a directory of texts** without locks whose path leaves room for names. -/
theorem exists_apply_standard {tree made : FileTree} {out : Path} {loc : Location}
    (hroom : out.leavesRoom = true) (hmake : tree.ensureDirectory out = (made, .ok ()))
    (hopens : made.Opens out loc) (hfree : ∀ name, made.writable loc name = true)
    (htexts : ∀ name entry, made.under loc name = some entry → out.reaches name = true ∧
      ∃ bytes t, entry = .file bytes ∧ FileTree.textOf bytes = .ok t) :
    ∃ tree' report, apply standard tree out = (tree', .ok report) := by
  obtain ⟨tree', outcomes, happly⟩ := exists_applyEach_ok_of_texts hopens hroom orderly_standard.single
    orderly_standard.sound (fun r => isShortName_target_standard) hfree htexts
  refine ⟨tree', ⟨out, outcomes⟩, ?_⟩
  rw [apply, applyEach_of_ensureDirectory startsWithCreate_standard hmake, happly]

end Catalog

end FlowTypes
