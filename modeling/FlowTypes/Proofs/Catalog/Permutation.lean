import FlowTypes.Proofs.Catalog.Rerun
import FlowTypes.Proofs.Patching.Commuting

/-!
# The order in which the rules are put down

The rules of a catalog are applied in the order of their phases, and those of one phase as they are put down. In the
catalog of the bindings this leaves nothing to the order: two rules of one phase commute (`standard_commutesInPhase`).
Most of them are about different files; the others edit one file at members that are apart. So the catalog does and
reports the same in whatever order it is put down (`apply_of_perm_standard`).
-/

namespace FlowTypes.Catalog

/-- A glob is the only rule of its phase, and any two other rules of one phase commute. -/
def commutesInPhase (rules : List Rule) : Bool :=
  rules.all fun r =>
    if Wildcard.isPattern r.target then rules.all fun s => decide (r.phase ≠ s.phase) || decide (r = s)
    else rules.all fun s =>
      decide (r.phase ≠ s.phase) || decide (r.target ≠ s.target) || r.editCommutes s || decide (r = s)

section
variable {rules rules' : List Rule}

theorem commutesInPhase_perm (h : rules'.Perm rules) : commutesInPhase rules' = commutesInPhase rules := by
  unfold commutesInPhase
  rw [h.all_eq]
  refine congrArg rules.all (funext fun r => ?_)
  rw [h.all_eq, h.all_eq]

/-- **Any two rules of one phase commute.** -/
theorem commutes_of_commutesInPhase (h : commutesInPhase rules = true) :
    ∀ r ∈ rules, ∀ s ∈ rules, r.phase = s.phase → r = s ∨ r.commutes s = true := by
  have halone : ∀ r ∈ rules, ∀ s ∈ rules, Wildcard.isPattern r.target = true → r.phase = s.phase → r = s := by
    intro r hr s hs hp hphase
    have hr' := List.all_eq_true.mp h r hr
    rw [if_pos hp, List.all_eq_true] at hr'
    simpa [hphase] using hr' s hs
  intro r hr s hs hphase
  cases hp : Wildcard.isPattern r.target with
  | true => exact .inl (halone r hr s hs hp hphase)
  | false =>
  cases hp' : Wildcard.isPattern s.target with
  | true => exact .inl (halone s hs r hr hp' hphase.symm).symm
  | false =>
    have hr' := List.all_eq_true.mp h r hr
    rw [if_neg (by simp [hp]), List.all_eq_true] at hr'
    have hpair := hr' s hs
    simp only [hphase, ne_eq, not_true_eq_false, decide_false, Bool.false_or, Bool.or_eq_true, decide_eq_true_eq] at hpair
    rcases hpair with hcommutes | hrs
    · exact .inr (by simpa [Rule.commutes, hp, hp'] using hcommutes)
    · exact .inl hrs

/-- **A catalog in which the rules of one phase commute does and reports the same in any order.** -/
theorem apply_of_perm (hsingle : ∀ r ∈ rules, r.isSingle = true) (hsound : ∀ r ∈ rules, r.isSound = true)
    (hcommutes : commutesInPhase rules = true) {phase : Int} (hcreates : createsUpTo phase rules = true)
    (hperm : rules'.Perm rules) {tree tree₁ : FileTree} {out : Path} {report : Report}
    (h : apply rules tree out = (tree₁, .ok report)) :
    ∃ tree₂ report', apply rules' tree out = (tree₂, .ok report') ∧ tree₁.Alike tree₂ ∧
      SameOutcomes report.outcomes report'.outcomes := by
  obtain ⟨-, happly⟩ := apply_eq_ok_iff.mp h
  obtain ⟨made, loc, hmake, hopens, hmade⟩ :=
    exists_opens_of_applyEach (startsWithCreate_inOrder hcreates) happly nofun
  have hperm' : (inOrder rules').Perm (inOrder rules) :=
    (inOrder_perm rules').trans (hperm.trans (inOrder_perm rules).symm)
  obtain ⟨tree₂, outcomes, hmade', halike, houtcomes⟩ := applyEach_perm hopens hperm'
    (fun r hr => ⟨hsingle r (mem_inOrder.mp hr), hsound r (mem_inOrder.mp hr)⟩)
    (commutes_of_commutesInPhase (by rw [commutesInPhase_perm (inOrder_perm rules), hcommutes]))
    (pairwise_inOrder rules) (pairwise_inOrder rules') hmade
  have hstart : StartsWithCreate (inOrder rules') :=
    startsWithCreate_inOrder (by rw [createsUpTo_perm hperm, hcreates])
  refine ⟨tree₂, ⟨out, outcomes⟩, apply_eq_ok_iff.mpr ⟨rfl, ?_⟩, halike, houtcomes⟩
  rw [applyEach_of_ensureDirectory hstart hmake, hmade']

end

/-! ## The catalog of the bindings -/

set_option maxRecDepth 8192 in
theorem drafts_commuteInPhase : (checkAll (drafts .standard)).toOption.any commutesInPhase = true := by
  decide +kernel

/-- Two rules of one phase of the catalog commute. -/
theorem standard_commutesInPhase : commutesInPhase standard = true := by
  obtain ⟨rules, hcheck, hstandard, -⟩ := exists_standard_eq
  have hcommutes := drafts_commuteInPhase
  rw [hcheck] at hcommutes
  rw [hstandard, commutesInPhase_perm (inOrder_perm rules)]
  exact hcommutes

/-- **In whatever order the rules are put down**, the catalog completes where it completes in its own order, leaves the
same files, and gives every rule the same outcomes. -/
theorem apply_of_perm_standard {rules : List Rule} (hperm : rules.Perm standard) {tree tree₁ : FileTree} {out : Path}
    {report : Report} (h : apply standard tree out = (tree₁, .ok report)) :
    ∃ tree₂ report', apply rules tree out = (tree₂, .ok report') ∧ (∀ loc, tree₂.get? loc = tree₁.get? loc) ∧
      ∀ r : Rule, report'.outcomes.filter (·.rule = r) = report.outcomes.filter (·.rule = r) := by
  obtain ⟨drafted, -, hstandard, -, hcreates, -⟩ := exists_standard_eq
  have ho := orderly_standard
  obtain ⟨tree₂, report', happly, halike, houtcomes⟩ := apply_of_perm
    (fun r hr => ho.single r (mem_inOrder.mpr hr)) (fun r hr => ho.sound r (mem_inOrder.mpr hr))
    standard_commutesInPhase (by rw [hstandard, createsUpTo_perm (inOrder_perm drafted), hcreates]) hperm h
  exact ⟨tree₂, report', happly, halike.get?, houtcomes⟩

theorem apply_of_perm_standard_reverse :
    standard.reverse.Perm standard ∧
      ∃ tree₁ report, apply standard (sampleTree "gdresource.js" (.file (Utf8.encode sampleText))) sampleOut =
          (tree₁, .ok report) ∧
        ∃ tree₂ report', apply standard.reverse (sampleTree "gdresource.js" (.file (Utf8.encode sampleText))) sampleOut =
            (tree₂, .ok report') ∧ (∀ loc, tree₂.get? loc = tree₁.get? loc) ∧
          ∀ r : Rule, report'.outcomes.filter (·.rule = r) = report.outcomes.filter (·.rule = r) := by
  obtain ⟨tree₁, report, h⟩ := exists_apply_sampleTree "gdresource.js" sampleText (by decide) (by decide)
  exact ⟨standard.reverse_perm, tree₁, report, h, apply_of_perm_standard standard.reverse_perm h⟩

end FlowTypes.Catalog
