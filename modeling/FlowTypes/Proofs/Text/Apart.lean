import FlowTypes.Text.Occurrence

/-!
# Words that lie apart

Where can a word stand in a text that was put together from parts? It lies in the first part, in the
second, or across the seam (`split_append`). Two words lie *apart* if neither occurs in the other and no
end of one begins the other. Then an insertion of the second makes no new occurrence of the first, and
every occurrence lies on one side of what was inserted (`split_of_apart`). This is the one fact about
words that everything about repeated edits rests on.

All conditions are computed, so they can be checked for given words.
-/

namespace FlowTypes.Occurrence

variable {α : Type} [DecidableEq α]

/-! ## Conditions -/

/-- An end of `x` that is not empty begins `y`. -/
def meets : List α → List α → Bool
  | [], _ => false
  | c :: x, y => (c :: x).isPrefixOf y || meets x y

/-- Neither word occurs in the other, and no end of one begins the other. -/
def apart (a c : List α) : Bool := !occursIn a c && !occursIn c a && !meets a c && !meets c a

/-- Every end of `x` that begins `c` begins `a` too. -/
def meetsOnlyWith (a c : List α) : List α → Bool
  | [] => true
  | d :: x => (!(d :: x).isPrefixOf c || (d :: x).isPrefixOf a) && meetsOnlyWith a c x

/-- Neither word occurs in the other, no end of `c` begins `a`, and an end of `a` that begins `c` begins `a`
too. -/
def supplants (a c : List α) : Bool :=
  !occursIn a c && !occursIn c a && !meets c a && meetsOnlyWith a c a

/-- A word that does not overlap itself. -/
def unbordered (a : List α) : Bool := !meets a.tail a

/-- A place right before `a` may lie inside `c`. -/
def cutBefore (a c : List α) : Bool := meets c.tail a || occursIn a c.tail

/-- A place right after `a` may lie inside `c`. -/
def cutAfter (a c : List α) : Bool := meets a c.dropLast || occursIn a c.dropLast

theorem meets_iff {y : List α} : ∀ {x : List α}, meets x y = true ↔ ∃ s, s ≠ [] ∧ s <:+ x ∧ s <+: y
  | [] => ⟨nofun, fun ⟨s, hs, hx, _⟩ => absurd (List.suffix_nil.mp hx) hs⟩
  | c :: x => by
    rw [meets, Bool.or_eq_true, List.isPrefixOf_iff_prefix, meets_iff]
    constructor
    · rintro (h | ⟨s, hs, hx, hy⟩)
      · exact ⟨c :: x, List.cons_ne_nil _ _, List.suffix_rfl, h⟩
      · exact ⟨s, hs, hx.trans (List.suffix_cons c x), hy⟩
    · rintro ⟨s, hs, hx, hy⟩
      rcases List.suffix_cons_iff.mp hx with rfl | hx
      · exact .inl hy
      · exact .inr ⟨s, hs, hx, hy⟩

theorem occursIn_iff_infix {a c : List α} : occursIn a c = true ↔ a <:+: c := occursIn_iff

theorem occursIn_eq_false_iff {a c : List α} : occursIn a c = false ↔ ¬ a <:+: c := by
  rw [← occursIn_iff_infix, Bool.not_eq_true]

theorem not_meets {x y s : List α} (h : meets x y = false) (hs : s ≠ []) (hx : s <:+ x) : ¬ s <+: y :=
  fun hy => Bool.eq_false_iff.mp h (meets_iff.mpr ⟨s, hs, hx, hy⟩)

theorem prefix_of_meetsOnlyWith {a c s : List α} (hc : s <+: c) :
    ∀ {x : List α}, meetsOnlyWith a c x = true → s <:+ x → s <+: a
  | [], _, hx => by rw [List.suffix_nil.mp hx]; exact List.nil_prefix
  | d :: x, h, hx => by
    simp only [meetsOnlyWith, Bool.and_eq_true, Bool.or_eq_true, Bool.not_eq_true'] at h
    rcases List.suffix_cons_iff.mp hx with rfl | hx
    · rcases h.1 with h | h
      · exact absurd (List.isPrefixOf_iff_prefix.mpr hc) (Bool.eq_false_iff.mp h)
      · exact List.isPrefixOf_iff_prefix.mp h
    · exact prefix_of_meetsOnlyWith hc h.2 hx

theorem apart_iff {a c : List α} :
    apart a c = true ↔ ¬ a <:+: c ∧ ¬ c <:+: a ∧ meets a c = false ∧ meets c a = false := by
  simp only [apart, Bool.and_eq_true, Bool.not_eq_true', occursIn_eq_false_iff, and_assoc]

/-! ## Where a word stands -/

omit [DecidableEq α] in
/-- A word in two parts lies in the first, in the second, or across the seam. -/
theorem split_append {u a v x y : List α} (h : u ++ a ++ v = x ++ y) :
    (∃ w, x = u ++ a ++ w ∧ v = w ++ y) ∨ (∃ w, u = x ++ w ∧ y = w ++ a ++ v) ∨
      ∃ b c, b ≠ [] ∧ c ≠ [] ∧ a = b ++ c ∧ x = u ++ b ∧ y = c ++ v := by
  rcases List.append_eq_append_iff.mp h with ⟨w, rfl, rfl⟩ | ⟨w, hw, rfl⟩
  · exact .inl ⟨w, rfl, rfl⟩
  rcases List.append_eq_append_iff.mp hw with ⟨b, rfl, rfl⟩ | ⟨b, rfl, rfl⟩
  · by_cases hb : b = []
    · subst hb
      exact .inr (.inl ⟨[], by simp, by simp⟩)
    · by_cases hw' : w = []
      · subst hw'
        exact .inl ⟨[], by simp, by simp⟩
      · exact .inr (.inr ⟨b, w, hb, hw', rfl, rfl, rfl⟩)
  · exact .inr (.inl ⟨b, rfl, by simp⟩)

/-- **What lies apart from an insertion stands on one side of it.** -/
theorem split_of_apart {a c u v x y : List α} (hac : apart a c = true)
    (h : u ++ a ++ v = x ++ c ++ y) :
    (∃ w, x = u ++ a ++ w ∧ v = w ++ c ++ y) ∨ ∃ w, u = x ++ c ++ w ∧ y = w ++ a ++ v := by
  obtain ⟨hin, haround, hinto, hfrom⟩ := apart_iff.mp hac
  rw [List.append_assoc x] at h
  rcases split_append h with ⟨w, rfl, rfl⟩ | ⟨w, rfl, hy⟩ | ⟨b, d, hb, hd, rfl, rfl, hy⟩
  · exact .inl ⟨w, rfl, by simp⟩
  · -- past the seam: inside the insertion, behind it, or across its end
    rcases split_append hy.symm with ⟨z, rfl, -⟩ | ⟨z, rfl, rfl⟩ | ⟨b, d, hb, -, rfl, rfl, -⟩
    · exact absurd (List.infix_append w a z) hin
    · exact .inr ⟨z, by simp, rfl⟩
    · exact absurd (List.prefix_append b d) (not_meets hfrom hb (List.suffix_append w b))
  · -- across the beginning of the insertion
    exfalso
    rcases List.append_eq_append_iff.mp hy with ⟨z, rfl, -⟩ | ⟨z, rfl, -⟩
    · exact haround ⟨b, z, by simp⟩
    · exact not_meets hinto hd (List.suffix_append b d) (List.prefix_append d z)

/-- A word that lies apart from an insertion is not made by it. -/
theorem not_infix_insert {a c x y : List α} (hac : apart a c = true) (hx : ¬ a <:+: x)
    (hy : ¬ a <:+: y) : ¬ a <:+: x ++ c ++ y := by
  rintro ⟨u, v, h⟩
  rcases split_of_apart hac h with ⟨w, rfl, -⟩ | ⟨w, -, rfl⟩
  · exact hx (List.infix_append u a w)
  · exact hy (List.infix_append w a v)

/-- **A word in the place of another makes no new occurrence of it**, if none began before that place: an
occurrence that ends in the new word would have ended in the old one. -/
theorem split_of_supplants {a c u v x y : List α} (hac : supplants a c = true)
    (hx : ∀ u v, x ++ a = u ++ a ++ v → v = []) (h : u ++ a ++ v = x ++ c ++ y) (hne : a ≠ []) :
    ∃ w, y = w ++ a ++ v := by
  simp only [supplants, Bool.and_eq_true, Bool.not_eq_true', occursIn_eq_false_iff] at hac
  obtain ⟨⟨⟨hin, haround⟩, hfrom⟩, hinto⟩ := hac
  rw [List.append_assoc x] at h
  rcases split_append h with ⟨w, rfl, rfl⟩ | ⟨w, rfl, hy⟩ | ⟨b, d, hb, hd, rfl, rfl, hy⟩
  · have hnil := hx u (w ++ a) (by simp)
    exact absurd (List.append_eq_nil_iff.mp hnil).2 hne
  · rcases split_append hy.symm with ⟨z, rfl, -⟩ | ⟨z, -, rfl⟩ | ⟨b, d, hb, -, rfl, rfl, -⟩
    · exact absurd (List.infix_append w a z) hin
    · exact ⟨z, rfl⟩
    · exact absurd (List.prefix_append b d) (not_meets hfrom hb (List.suffix_append w b))
  · exfalso
    rcases List.append_eq_append_iff.mp hy with ⟨z, rfl, -⟩ | ⟨z, rfl, -⟩
    · exact haround ⟨b, z, by simp⟩
    · -- the old word begins in the same way
      obtain ⟨r, hr⟩ := prefix_of_meetsOnlyWith (List.prefix_append d z) hinto (List.suffix_append b d)
      have hnil := hx u r (by simpa using congrArg (u ++ b ++ ·) hr.symm)
      subst hnil
      have hlength := congrArg List.length hr
      simp only [List.length_append, List.length_nil] at hlength
      exact hb (List.eq_nil_of_length_eq_zero (by omega))

/-- What begins with a word that does not overlap itself, and holds it further on, holds it twice. -/
theorem eq_nil_or_prefix_of_unbordered {a v w y : List α} (hb : unbordered a = true)
    (h : a ++ v = w ++ a ++ y) : w = [] ∨ ∃ z, w = a ++ z := by
  rw [List.append_assoc] at h
  rcases List.append_eq_append_iff.mp h with ⟨z, rfl, -⟩ | ⟨s, ha, hs⟩
  · exact .inr ⟨z, rfl⟩
  · by_cases hs' : s = []
    · exact .inr ⟨[], by simp [ha, hs']⟩
    · refine .inl (Decidable.byContradiction fun hw => ?_)
      obtain ⟨c, w, rfl⟩ := List.exists_cons_of_ne_nil hw
      have hle : s.length ≤ a.length := by rw [ha, List.length_append]; omega
      have hprefix : s <+: a :=
        List.prefix_of_prefix_length_le ⟨v, hs.symm⟩ (List.prefix_append a y) hle
      refine not_meets (by simpa [unbordered] using hb) hs' ?_ hprefix
      rw [ha]
      exact List.suffix_append w s

/-- **Two places of a word that does not overlap itself are the same or far enough from each other.** -/
theorem split_of_unbordered {a u v x y : List α} (hb : unbordered a = true)
    (h : u ++ a ++ v = x ++ a ++ y) :
    (∃ w, x = u ++ a ++ w ∧ v = w ++ a ++ y) ∨ (u = x ∧ v = y) ∨
      ∃ w, u = x ++ a ++ w ∧ y = w ++ a ++ v := by
  rw [List.append_assoc u, List.append_assoc x] at h
  rcases List.append_eq_append_iff.mp h with ⟨w, rfl, hw⟩ | ⟨w, rfl, hw⟩
  · rw [← List.append_assoc w] at hw
    rcases eq_nil_or_prefix_of_unbordered hb hw with rfl | ⟨z, rfl⟩
    · exact .inr (.inl ⟨by simp, by simpa using hw⟩)
    · exact .inl ⟨z, by simp, by simpa using hw⟩
  · rw [← List.append_assoc w] at hw
    rcases eq_nil_or_prefix_of_unbordered hb hw with rfl | ⟨z, rfl⟩
    · exact .inr (.inl ⟨by simp, by simpa using hw.symm⟩)
    · exact .inr (.inr ⟨z, by simp, by simpa using hw⟩)

/-! ## Places next to a word -/

/-- A place right before `a` lies inside no `c`. -/
theorem eq_nil_of_cutBefore {a c b d y : List α} (hcut : cutBefore a c = false) (hc : c = b ++ d)
    (hb : b ≠ []) (ha : a <+: y) (hd : d <+: y) : d = [] := by
  refine Decidable.byContradiction fun hne => ?_
  obtain ⟨hmeets, hin⟩ := Bool.or_eq_false_iff.mp hcut
  obtain ⟨z, b, rfl⟩ := List.exists_cons_of_ne_nil hb
  subst hc
  rcases List.prefix_or_prefix_of_prefix ha hd with h | h
  · exact occursIn_eq_false_iff.mp hin (h.isInfix.trans (List.suffix_append b d).isInfix)
  · exact not_meets hmeets hne (List.suffix_append b d) h

/-- A place right after `a` lies inside no `c`. -/
theorem eq_nil_of_cutAfter {a c b d x : List α} (hcut : cutAfter a c = false) (hc : c = b ++ d)
    (hd : d ≠ []) (ha : a <:+ x) (hb : b <:+ x) : b = [] := by
  refine Decidable.byContradiction fun hne => ?_
  obtain ⟨hmeets, hin⟩ := Bool.or_eq_false_iff.mp hcut
  have hdrop : c.dropLast = b ++ d.dropLast := by rw [hc, List.dropLast_append_of_ne_nil hd]
  rw [hdrop] at hmeets hin
  rcases List.suffix_or_suffix_of_suffix ha hb with h | h
  · exact occursIn_eq_false_iff.mp hin (h.isInfix.trans (List.prefix_append b _).isInfix)
  · exact not_meets hmeets hne h (List.prefix_append b _)

end FlowTypes.Occurrence
