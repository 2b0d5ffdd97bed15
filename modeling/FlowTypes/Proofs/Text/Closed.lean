import FlowTypes.Proofs.Text.Apart

/-!
# Words with an end of their own

Whether two words lie apart can often be seen from their last characters. A word that is *closed* by a character holds it
at the end and nowhere else (`ClosedBy`). It does not overlap itself, and two words that are closed by one character lie
apart unless one of them ends the other (`apart_of_closedBy`). Words lie apart, too, if neither holds the last character of
the other (`apart_of_ends`).
-/

namespace FlowTypes.Occurrence

variable {α : Type}

/-- The word ends with the character, and holds it nowhere else. -/
def ClosedBy (x : α) (a : List α) : Prop := ∃ s, a = s ++ [x] ∧ x ∉ s

section
variable {x y : α} {a c s t u v : List α}

/-- What is left of a list holds its end. -/
theorem mem_of_suffix (h : a.getLast? = some x) (hs : s ≠ []) (hsuffix : s <:+ a) : x ∈ s := by
  obtain ⟨front, rfl⟩ := hsuffix
  rw [List.getLast?_append, List.getLast?_eq_some_getLast hs, Option.some_or] at h
  exact Option.some.inj h ▸ List.getLast_mem hs

/-- **A list is cut at the last place of a character in one way only.** -/
theorem append_cons_inj (hs : x ∉ s) (ht : x ∉ t) (h : u ++ x :: s = v ++ x :: t) : u = v ∧ s = t := by
  rcases List.append_eq_append_iff.mp h with ⟨w, rfl, hw⟩ | ⟨w, rfl, hw⟩
  · cases w with
    | nil => simpa using hw
    | cons d w =>
      rw [List.cons_append] at hw
      exact absurd ((List.cons.inj hw).2 ▸ List.mem_append_right w List.mem_cons_self) hs
  · cases w with
    | nil => simpa using hw.symm
    | cons d w =>
      rw [List.cons_append] at hw
      exact absurd ((List.cons.inj hw).2 ▸ List.mem_append_right w List.mem_cons_self) ht

/-- Lists that end in the same way are compared by their last words, and by what comes before these. -/
theorem eq_and_suffix_of_suffix (hs : x ∉ s) (ht : x ∉ t) {w : List α}
    (h : u ++ x :: s ++ w <:+ v ++ x :: t ++ w) : s = t ∧ u <:+ v := by
  obtain ⟨front, e⟩ := h
  rw [← List.append_assoc, ← List.append_assoc] at e
  obtain ⟨hfront, hword⟩ := append_cons_inj hs ht (List.append_cancel_right e)
  exact ⟨hword, front, hfront⟩

namespace ClosedBy

theorem ne_nil (h : ClosedBy x a) : a ≠ [] := by
  obtain ⟨s, rfl, -⟩ := h
  exact List.append_ne_nil_of_right_ne_nil s (List.cons_ne_nil x [])

theorem getLast? (h : ClosedBy x a) : a.getLast? = some x := by
  obtain ⟨s, rfl, -⟩ := h
  exact List.getLast?_concat

/-- Nothing follows the character that closes a word. -/
theorem eq_nil (h : ClosedBy x a) (e : a = u ++ x :: v) : v = [] := by
  obtain ⟨s, rfl, hs⟩ := h
  cases hv : v.getLast? with
  | none => exact List.getLast?_eq_none_iff.mp hv
  | some y =>
    obtain ⟨front, rfl⟩ := List.getLast?_eq_some_iff.mp hv
    rw [← List.cons_append, ← List.append_assoc] at e
    exact absurd ((List.append_inj' e rfl).1 ▸ List.mem_append_right u List.mem_cons_self) hs

/-- A beginning of a closed word that holds its end is the word. -/
theorem eq_of_prefix (h : ClosedBy x a) (hbegin : s <+: a) (hs : x ∈ s) : s = a := by
  obtain ⟨rest, rfl⟩ := hbegin
  obtain ⟨u, v, rfl⟩ := List.append_of_mem hs
  have hnil := h.eq_nil (u := u) (v := v ++ rest) (by simp)
  rw [(List.append_eq_nil_iff.mp hnil).2, List.append_nil]

/-- A closed word that holds the end of another holds it at its own end. -/
theorem suffix_of_infix (h : ClosedBy x c) (ha : x ∈ a) (hin : a <:+: c) : a <:+ c := by
  obtain ⟨u, v, rfl⟩ := hin
  have hwhole := h.eq_of_prefix (List.prefix_append (u ++ a) v) (List.mem_append_right u ha)
  exact ⟨u, hwhole⟩

end ClosedBy

variable [DecidableEq α]

theorem unbordered_of_closedBy (h : ClosedBy x a) : unbordered a = true := by
  rw [unbordered, Bool.not_eq_true', Bool.eq_false_iff]
  intro hmeets
  obtain ⟨s, hs, hsuffix, hbegin⟩ := meets_iff.mp hmeets
  have hsuffix' : s <:+ a := hsuffix.trans (List.tail_suffix a)
  have heq := h.eq_of_prefix hbegin (mem_of_suffix h.getLast? hs hsuffix')
  have hlength := heq ▸ hsuffix.length_le
  have hpos := List.length_pos_iff.mpr h.ne_nil
  rw [List.length_tail] at hlength
  omega

theorem meets_eq_false_of_closedBy (ha : a.getLast? = some x) (hc : ClosedBy x c) (h : ¬ c <:+ a) :
    meets a c = false := by
  rw [Bool.eq_false_iff]
  intro hmeets
  obtain ⟨s, hs, hsuffix, hbegin⟩ := meets_iff.mp hmeets
  exact h (hc.eq_of_prefix hbegin (mem_of_suffix ha hs hsuffix) ▸ hsuffix)

/-- **Words that are closed by the same character lie apart, unless one of them ends the other.** -/
theorem apart_of_closedBy (ha : ClosedBy x a) (hc : ClosedBy x c) (hac : ¬ a <:+ c) (hca : ¬ c <:+ a) :
    apart a c = true := by
  refine apart_iff.mpr ⟨fun h => hac ?_, fun h => hca ?_, ?_, ?_⟩
  · exact hc.suffix_of_infix (List.mem_of_getLast? ha.getLast?) h
  · exact ha.suffix_of_infix (List.mem_of_getLast? hc.getLast?) h
  · exact meets_eq_false_of_closedBy ha.getLast? hc hca
  · exact meets_eq_false_of_closedBy hc.getLast? ha hac

theorem apart_symm (h : apart a c = true) : apart c a = true := by
  obtain ⟨hac, hca, hmeets, hmeets'⟩ := apart_iff.mp h
  exact apart_iff.mpr ⟨hca, hac, hmeets', hmeets⟩

theorem meets_eq_false_of_not_mem (ha : a.getLast? = some x) (hx : x ∉ c) : meets a c = false := by
  rw [Bool.eq_false_iff]
  intro hmeets
  obtain ⟨s, hs, hsuffix, hbegin⟩ := meets_iff.mp hmeets
  exact hx (hbegin.subset (mem_of_suffix ha hs hsuffix))

theorem meets_eq_false_of_head? (hc : c.head? = some y) (hy : y ∉ a) : meets a c = false := by
  rw [Bool.eq_false_iff]
  intro hmeets
  obtain ⟨s, hs, hsuffix, rest, rfl⟩ := meets_iff.mp hmeets
  obtain ⟨d, s, rfl⟩ := List.exists_cons_of_ne_nil hs
  exact hy (Option.some.inj hc ▸ hsuffix.subset List.mem_cons_self)

/-- **Words lie apart if neither holds the last character of the other.** -/
theorem apart_of_ends (ha : a.getLast? = some x) (hx : x ∉ c) (hc : c.getLast? = some y) (hy : y ∉ a) :
    apart a c = true :=
  apart_iff.mpr ⟨fun h => hx (h.subset (List.mem_of_getLast? ha)), fun h => hy (h.subset (List.mem_of_getLast? hc)),
    meets_eq_false_of_not_mem ha hx, meets_eq_false_of_not_mem hc hy⟩

/-- A place right after a word lies in none that does not hold the end of the word, or ends with it. -/
theorem cutAfter_of_not_mem (ha : a.getLast? = some x) (hx : x ∉ c.dropLast) : cutAfter a c = false :=
  Bool.or_eq_false_iff.mpr ⟨meets_eq_false_of_not_mem ha hx,
    occursIn_eq_false_iff.mpr fun h => hx (h.subset (List.mem_of_getLast? ha))⟩

/-- A place right after a word lies in none that does not hold the word, and begins with no part of it. -/
theorem cutAfter_of_head? (hc : c.head? = some y) (hy : y ∉ a) (hin : ¬ a <:+: c) : cutAfter a c = false := by
  have hmeets := meets_eq_false_of_head? hc hy
  refine Bool.or_eq_false_iff.mpr ⟨Bool.eq_false_iff.mpr fun h => ?_, occursIn_eq_false_iff.mpr fun h => ?_⟩
  · obtain ⟨s, hs, hsuffix, hbegin⟩ := meets_iff.mp h
    exact not_meets hmeets hs hsuffix (hbegin.trans (List.dropLast_prefix c))
  · exact hin (h.trans (List.dropLast_prefix c).isInfix)

end

end FlowTypes.Occurrence
