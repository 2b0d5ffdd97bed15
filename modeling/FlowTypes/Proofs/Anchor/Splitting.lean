import FlowTypes.Proofs.Anchor.Needle

/-!
# Cuts at a needle

The cuts of a text at a needle are determined by where the needle stands. `Needle.Splits` says of cuts that
every match is the needle and that none begins in a gap before it; the scan makes such cuts (`splits_cuts`).

If the needle does not overlap itself, these matches are all there are: wherever the needle stands in a text
that was put together from a head and segments, one of the segments begins (`Splits.exists_segment`). So a
statement about all places of a needle and one about all segments say the same.

## How the scan is followed

The scan passes over the characters of a match one by one. `cutFrom_skip` takes them in one stride, and then
the induction goes from match to match.
-/

namespace FlowTypes

/-- The text of some segments. -/
def Segment.flat (segments : List Segment) : Text := segments.flatMap fun s => s.found ++ s.after

@[simp] theorem Segment.flat_nil : Segment.flat [] = [] := rfl

theorem Segment.flat_cons (s : Segment) (rest : List Segment) :
    Segment.flat (s :: rest) = s.found ++ (s.after ++ Segment.flat rest) := by
  simp [flat]

theorem Segment.flat_append (front rest : List Segment) :
    Segment.flat (front ++ rest) = Segment.flat front ++ Segment.flat rest := by
  simp [flat]

theorem Cuts.whole_eq_flat (cuts : Cuts) : cuts.whole = cuts.head ++ Segment.flat cuts.segments := rfl

namespace Needle

/-- The needle that follows a gap is the first that begins there. -/
def First (n : Needle) (previous : Option Char) (gap : Text) : Prop :=
  ∀ u v, gap ++ n.text = u ++ n.text ++ v → n.admits (lastOr previous u) = true → v = []

/-- No needle lies in a gap that is followed by the first one. -/
theorem First.free {n : Needle} {previous : Option Char} {gap : Text} (hne : n.text ≠ [])
    (h : n.First previous gap) : n.Free previous gap := by
  rintro u v rfl
  refine Bool.eq_false_iff.mpr fun ha => hne ?_
  exact (List.append_eq_nil_iff.mp (h u (v ++ n.text) (by simp) ha)).2

/-- A needle that does not overlap itself is the first one after a gap without any. -/
theorem Free.first {n : Needle} {previous : Option Char} {gap : Text}
    (hb : Occurrence.unbordered n.text = true) (h : n.Free previous gap) : n.First previous gap := by
  intro u v e ha
  have e' : u ++ n.text ++ v = gap ++ n.text ++ [] := by simpa using e.symm
  rcases Occurrence.split_of_unbordered hb e' with ⟨w, hw, -⟩ | ⟨-, hv⟩ | ⟨w, -, hw⟩
  · exact absurd ha (Bool.eq_false_iff.mp (h u w hw))
  · exact hv
  · exact (List.append_eq_nil_iff.mp hw.symm).2

/-- Every match is the needle and the first one that begins after the match before. -/
def Splits (n : Needle) (previous : Option Char) (head : Text) : List Segment → Prop
  | [] => n.Free previous head
  | s :: rest => n.First previous head ∧ s.found = n.text ∧ n.admits (lastOr previous head) = true ∧
      n.Splits n.text.getLast? s.after rest

theorem Splits.free {n : Needle} {previous : Option Char} {head : Text} (hne : n.text ≠ []) :
    ∀ {segments : List Segment}, n.Splits previous head segments → n.Free previous head
  | [], h => h
  | _ :: _, h => h.1.free hne

theorem Splits.found_eq {n : Needle} {s : Segment} :
    ∀ {segments : List Segment} {previous : Option Char} {head : Text},
      n.Splits previous head segments → s ∈ segments → s.found = n.text
  | t :: rest, _, _, h, hs => by
    rcases List.mem_cons.mp hs with rfl | hs
    · exact h.2.1
    · exact h.2.2.2.found_eq hs

/-- One more character before the first match, if no match starts there. -/
theorem Splits.extend {n : Needle} {previous : Option Char} {c : Char} {head : Text}
    {segments : List Segment} (h : n.Splits (some c) head segments)
    (hc : n.text <+: c :: (head ++ Segment.flat segments) → n.admits previous = false) :
    n.Splits previous (c :: head) segments := by
  have hlast : ∀ u, lastOr previous (c :: u) = lastOr (some c) u := fun u =>
    (lastOr_append previous [c] u).trans rfl
  cases segments with
  | nil =>
    rintro (_ | ⟨d, u⟩) v e
    · exact hc ⟨v, by simpa using e.symm⟩
    · simp only [List.cons_append, List.cons.injEq] at e
      obtain ⟨rfl, rfl⟩ := e
      rw [hlast]
      exact h u v rfl
  | cons s rest =>
    refine ⟨?_, h.2.1, by rw [hlast]; exact h.2.2.1, h.2.2.2⟩
    rintro (_ | ⟨d, u⟩) v e ha
    · refine absurd ha (Bool.eq_false_iff.mp (hc ?_))
      rw [Segment.flat_cons, h.2.1]
      exact ⟨v ++ (s.after ++ Segment.flat rest),
        by simpa using congrArg (· ++ (s.after ++ Segment.flat rest)) e.symm⟩
    · simp only [List.cons_append, List.cons.injEq] at e
      obtain ⟨rfl, e⟩ := e
      rw [hlast] at ha
      exact h.1 u v e ha

end Needle

namespace Cuts

/-- What belongs to a match is passed over. -/
theorem cutFrom_skip (probe : Probe) (position : Nat) (previous : Option Char) :
    ∀ (k : Nat) (t : Text), k ≤ t.length →
      cutFrom probe k position previous t =
        cutFrom probe 0 (position + k) (lastOr previous (t.take k)) (t.drop k) := by
  intro k
  induction k generalizing position previous with
  | zero => intro t _; simp [lastOr]
  | succ k ih =>
    rintro (_ | ⟨c, rest⟩) hk
    · simp at hk
    · rw [cutFrom, ih _ _ rest (by simpa using hk), List.take_succ_cons, List.drop_succ_cons,
        show c :: rest.take k = [c] ++ rest.take k from rfl, lastOr_append,
        Nat.add_assoc, Nat.add_comm 1]
      rfl

/-- **The scan makes cuts at the needle and leaves none in a gap.** -/
theorem splits_cutFrom {probe : Probe} {n : Needle} (hne : n.text ≠ [])
    (hprobe : ∀ moving p, probe moving p =
      if n.text.isPrefixOf p.rest && n.admits p.previous then some n.text.length else none)
    (position : Nat) (previous : Option Char) (t : Text) :
    n.Splits previous (cutFrom probe 0 position previous t).head
      (cutFrom probe 0 position previous t).segments := by
  have hlength : 0 < n.text.length := List.length_pos_iff.mpr hne
  induction h : t.length using Nat.strongRecOn generalizing position previous t with
  | ind length ih =>
  subst h
  cases t with
  | nil =>
    rw [cutFrom, hprobe]
    have hp : n.text.isPrefixOf [] = false := by
      cases ht : n.text with
      | nil => exact absurd ht hne
      | cons => rfl
    rw [hp]
    exact fun u v e => absurd (List.append_eq_nil_iff.mp (List.append_eq_nil_iff.mp e.symm).1).2 hne
  | cons c rest =>
    rw [cutFrom]
    dsimp only
    rw [hprobe]
    by_cases hmatch : (n.text.isPrefixOf (c :: rest) && n.admits previous) = true
    · -- a match: its characters are passed over
      obtain ⟨hp, ha⟩ := Bool.and_eq_true_iff.mp hmatch
      obtain ⟨after, hafter⟩ := List.isPrefixOf_iff_prefix.mp hp
      obtain ⟨k, hk⟩ : ∃ k, n.text.length = k + 1 := ⟨n.text.length - 1, by omega⟩
      have hle : k ≤ rest.length := by
        have := congrArg List.length hafter
        simp at this
        omega
      have htake : (c :: rest).take (k + 1) = n.text := by rw [← hk, ← hafter, List.take_left]
      have hlast : lastOr (some c) (rest.take k) = n.text.getLast? := by
        rw [← htake, List.take_succ_cons, ← lastOr_of_ne_nil none (List.cons_ne_nil _ _),
          show c :: rest.take k = [c] ++ rest.take k from rfl, lastOr_append]
        rfl
      rw [if_pos hmatch, hk]
      dsimp only
      rw [cutFrom_skip probe _ _ k rest hle, startWith, htake, hlast]
      refine ⟨fun u v e _ => ?_, rfl, ha, ?_⟩
      · have hlength' := congrArg List.length e
        simp only [List.nil_append, List.length_append] at hlength'
        exact List.eq_nil_of_length_eq_zero (by omega)
      · exact ih _ (by rw [List.length_drop, List.length_cons]; omega) _ _ _ rfl
    · -- no match: the character goes into the gap
      rw [if_neg hmatch]
      dsimp only
      refine Needle.Splits.extend (ih _ (by simp) _ _ _ rfl) fun hp => ?_
      refine Bool.eq_false_iff.mpr fun ha => hmatch ?_
      rw [ha, Bool.and_true, List.isPrefixOf_iff_prefix]
      have hwhole := whole_cutFrom probe rest 0 (position + 1) (some c)
      rw [Cuts.whole_eq_flat, List.drop_zero] at hwhole
      exact hwhole ▸ hp

end Cuts

/-- The cuts of an anchor that finds a needle. -/
theorem Anchor.Finds.splits_cuts {a : Anchor} {n : Needle} (h : a.Finds n) (t : Text) :
    n.Splits none (a.cuts t).head (a.cuts t).segments :=
  Cuts.splits_cutFrom h.text_ne_nil (fun moving p => h.probe_eq t.length moving p) 0 none t

namespace Needle

/-! ## There are no other matches -/

/-- **A needle that does not overlap itself stands only where a segment begins.** -/
theorem Splits.exists_segment {n : Needle} (hne : n.text ≠ [])
    (hb : Occurrence.unbordered n.text = true) (v : Text) :
    ∀ {segments : List Segment} {previous : Option Char} {head : Text}, n.Splits previous head segments →
      ∀ u, u ++ n.text ++ v = head ++ Segment.flat segments → n.admits (lastOr previous u) = true →
        ∃ front s rest, segments = front ++ s :: rest ∧ u = head ++ Segment.flat front ∧
          v = s.after ++ Segment.flat rest
  | [], previous, head, h, u, e, ha => by
    rw [Segment.flat_nil, List.append_nil] at e
    exact absurd ha (Bool.eq_false_iff.mp (h u v e.symm))
  | s :: rest, previous, head, ⟨hfirst, hfound, _, hrest⟩, u, e, ha => by
    rw [Segment.flat_cons, hfound, ← List.append_assoc head] at e
    rcases Occurrence.split_of_unbordered hb e with ⟨w, hw, -⟩ | ⟨rfl, rfl⟩ | ⟨w, rfl, hw⟩
    · -- in the gap before the first segment
      exact absurd ha (Bool.eq_false_iff.mp (hfirst.free hne u w hw))
    · exact ⟨[], s, rest, rfl, by simp, rfl⟩
    · rw [lastOr_append, lastOr_append, lastOr_of_ne_nil _ hne] at ha
      obtain ⟨front, t, back, rfl, rfl, rfl⟩ := hrest.exists_segment hne hb v w hw.symm ha
      exact ⟨s :: front, t, back, rfl, by simp [Segment.flat_cons, hfound], rfl⟩

/-- A segment begins at a needle, which may stand there. -/
theorem Splits.segment {n : Needle} (hne : n.text ≠ []) {s : Segment} {rest : List Segment} :
    ∀ {front : List Segment} {previous : Option Char} {head : Text},
      n.Splits previous head (front ++ s :: rest) →
        s.found = n.text ∧ n.admits (lastOr previous (head ++ Segment.flat front)) = true ∧
          n.Splits n.text.getLast? s.after rest
  | [], previous, head, ⟨_, hfound, hadmits, hrest⟩ => by simpa using ⟨hfound, hadmits, hrest⟩
  | t :: front, previous, head, ⟨_, hfound, _, hrest⟩ => by
    have ih := Splits.segment hne hrest
    rw [Segment.flat_cons, hfound, lastOr_append, lastOr_append, lastOr_of_ne_nil _ hne]
    exact ih

end Needle

end FlowTypes
