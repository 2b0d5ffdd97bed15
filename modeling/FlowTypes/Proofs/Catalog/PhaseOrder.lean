import FlowTypes.Proofs.Catalog.Standard

/-!
# The order of the rules

Rules are in order if their phases ascend and the rules of one phase stand as they were given
(`Catalog.InPhaseOrder`). There is one such order of any rules, and it is the one in which they are applied
(`Catalog.inPhaseOrder_iff`).
-/

namespace FlowTypes.Catalog

/-- The rules, put in ascending order of their phases, and those of one phase as they were given. -/
structure InPhaseOrder (rules ordered : List Rule) : Prop where
  /-- None is lost and none is doubled. -/
  perm : ordered.Perm rules
  /-- Phases ascend. -/
  ascending : ordered.Pairwise fun r later => r.phase ≤ later.phase
  /-- The rules of a phase are in the order that they had. -/
  stable : ∀ phase : Int, ordered.filter (fun r => r.phase = phase) = rules.filter fun r => r.phase = phase

/-! ## One order -/

theorem filter_phase_cons {r : Rule} {rest : List Rule} {phase : Int} :
    (r :: rest).filter (fun s => s.phase = phase) =
      if r.phase = phase then r :: rest.filter fun s => s.phase = phase
      else rest.filter fun s => s.phase = phase := by
  simp [List.filter_cons]

/-- The first of the rules in ascending order is in no later phase than any of them. -/
theorem phase_head_le {r first : Rule} {rest : List Rule}
    (h : (first :: rest).Pairwise fun r later => r.phase ≤ later.phase) (hr : r ∈ first :: rest) :
    first.phase ≤ r.phase := by
  rcases List.mem_cons.mp hr with rfl | hr
  · exact Int.le_refl _
  · exact (List.pairwise_cons.mp h).1 r hr

/-- Rules in ascending order are told by what they have of each phase. -/
theorem eq_of_filter_phase :
    ∀ {ordered ordered' : List Rule}, (ordered.Pairwise fun r later => r.phase ≤ later.phase) →
      (ordered'.Pairwise fun r later => r.phase ≤ later.phase) →
        (∀ phase : Int, ordered.filter (fun r => r.phase = phase) = ordered'.filter fun r => r.phase = phase) →
          ordered = ordered'
  | [], [], _, _, _ => rfl
  | [], r' :: rest', _, _, hsame => by
    have hnone := hsame r'.phase
    simp at hnone
  | r :: rest, [], _, _, hsame => by
    have hnone := hsame r.phase
    simp at hnone
  | r :: rest, r' :: rest', h, h', hsame => by
    have hmem : ∀ s : Rule, s ∈ r :: rest ↔ s ∈ r' :: rest' := by
      intro s
      have hphase := congrArg (s ∈ ·) (hsame s.phase)
      simpa only [List.mem_filter, decide_true, and_true, eq_iff_iff] using hphase
    have hle : r.phase ≤ r'.phase := phase_head_le h ((hmem r').mpr List.mem_cons_self)
    have hge : r'.phase ≤ r.phase := phase_head_le h' ((hmem r).mp List.mem_cons_self)
    have hphase : r'.phase = r.phase := by omega
    -- both are the first of their phase
    have hhead := hsame r.phase
    rw [filter_phase_cons, filter_phase_cons, if_pos rfl, if_pos hphase] at hhead
    obtain ⟨rfl, -⟩ := List.cons.inj hhead
    have hrest : rest = rest' := by
      refine eq_of_filter_phase (List.pairwise_cons.mp h).2 (List.pairwise_cons.mp h').2 fun phase => ?_
      have hall := hsame phase
      rw [filter_phase_cons, filter_phase_cons] at hall
      split at hall
      · exact (List.cons.inj hall).2
      · exact hall
    rw [hrest]

/-! ## The order of application -/

theorem filter_phase_inOrder (rules : List Rule) (phase : Int) :
    (inOrder rules).filter (fun r => r.phase = phase) = rules.filter fun r => r.phase = phase := by
  have hsorted : (rules.filter fun r => r.phase = phase).Pairwise fun r later =>
      decide (r.phase ≤ later.phase) = true := by
    refine List.pairwise_of_forall_mem_list fun r hr later hlater => ?_
    have hr := (List.mem_filter.mp hr).2
    have hlater := (List.mem_filter.mp hlater).2
    simp only [decide_eq_true_eq] at hr hlater ⊢
    omega
  have hsub : (rules.filter fun r => r.phase = phase).Sublist (inOrder rules) :=
    List.sublist_mergeSort (fun a b c => by simpa using Int.le_trans) (fun a b => by simpa using Int.le_total _ _)
      hsorted List.filter_sublist
  have hfiltered := hsub.filter fun r => r.phase = phase
  rw [List.filter_filter] at hfiltered
  simp only [Bool.and_self] at hfiltered
  exact (hfiltered.eq_of_length ((inOrder_perm rules).filter _).length_eq.symm).symm

theorem inPhaseOrder_inOrder (rules : List Rule) : InPhaseOrder rules (inOrder rules) where
  perm := inOrder_perm rules
  ascending := pairwise_inOrder rules
  stable := filter_phase_inOrder rules

/-- **Rules are applied in the one order that ascends in phase and keeps the rules of a phase as they are.** -/
theorem inPhaseOrder_iff {rules ordered : List Rule} : InPhaseOrder rules ordered ↔ ordered = inOrder rules := by
  constructor
  · intro h
    refine eq_of_filter_phase h.ascending (pairwise_inOrder rules) fun phase => ?_
    rw [h.stable, filter_phase_inOrder]
  · rintro rfl
    exact inPhaseOrder_inOrder rules

end FlowTypes.Catalog
