import FlowTypes.Text.Lower

/-!
# The lower case of a part

Is the lower case of a part a part of the lower case of the whole? Almost always it is, since a code point is lower-cased by
itself. The exception is the capital sigma, for which letters beside the part count as well. Such letters make a
difference only to a sigma that is *exposed*: the part alone does not tell whether it ends a word. So a text keeps its lower
case wherever it stands exactly if none of its capital sigmas is exposed (`standsAlone_iff`), and any text keeps it where no
letter is next to it (`infix_lower_of_not_meetsCased`).

That the condition is exact is seen by counting. With a letter beside it the text has one sigma of one kind less, and
nowhere is there another one to make up for it.
-/

namespace FlowTypes.Text

open FlowTypes.Text.Class

/-! ## Word ends -/

/-- A capital sigma between these parts is the last letter of a word. The part before it is given nearest first. -/
def endsWord (before rest : Text) : Bool := meetsCased before && !meetsCased rest

/-- All of the text is passed over when the neighbouring letter is looked for. -/
def passedOver (t : Text) : Bool := t.all fun c => member caseIgnorableFlips c.toNat

/-- The parts alone do not tell whether a capital sigma between them ends a word. A letter behind them would go on with the
word, or a letter before them would begin it. -/
def exposed (before rest : Text) : Bool :=
  (meetsCased before && passedOver rest) || (passedOver before && !meetsCased rest)

theorem meetsCased_append (x y : Text) :
    meetsCased (x ++ y) = if passedOver x then meetsCased y else meetsCased x := by
  induction x with
  | nil => rfl
  | cons c x ih =>
    have hover : passedOver (c :: x) = (member caseIgnorableFlips c.toNat && passedOver x) := List.all_cons
    rw [List.cons_append, meetsCased, meetsCased, hover, ih]
    cases member caseIgnorableFlips c.toNat <;> simp

theorem meetsCased_of_passedOver {x : Text} (h : passedOver x = true) : meetsCased x = false := by
  have happend := meetsCased_append x []
  rwa [h, if_pos rfl, List.append_nil] at happend

/-- **What stands beside the parts does not matter to a sigma that is not exposed.** -/
theorem endsWord_append {x y : Text} (h : exposed x y = false) (s u : Text) :
    endsWord (x ++ s) (y ++ u) = endsWord x y := by
  obtain ⟨hbehind, hbefore⟩ := Bool.or_eq_false_iff.mp h
  simp only [endsWord, meetsCased_append]
  by_cases hx : passedOver x = true
  · -- no word has begun, and the one that is met goes on
    have hy : meetsCased y = true := by simpa [hx] using hbefore
    have hy' : passedOver y ≠ true := fun hover => by simp [meetsCased_of_passedOver hover] at hy
    simp [hx, hy, hy', meetsCased_of_passedOver hx]
  · by_cases hy : passedOver y = true
    · have hx' : meetsCased x = false := by simpa [hy] using hbehind
      simp [hx, hx']
    · simp [hx, hy]

/-- Where no letter is next to the parts, they alone tell. -/
theorem endsWord_append_of_not_meetsCased {s u : Text} (hs : meetsCased s = false) (hu : meetsCased u = false)
    (x y : Text) : endsWord (x ++ s) (y ++ u) = endsWord x y := by
  have hkeep : ∀ z v : Text, meetsCased v = false → meetsCased (z ++ v) = meetsCased z := by
    intro z v hv
    rw [meetsCased_append]
    by_cases hz : passedOver z = true
    · rw [if_pos hz, hv, meetsCased_of_passedOver hz]
    · rw [if_neg hz]
  rw [endsWord, endsWord, hkeep x s hs, hkeep y u hu]

/-! ## Lower case between two parts -/

/-- The lower case of a code point, if it is known whether a capital sigma ends a word. -/
def lowerAt (final : Bool) (c : Char) : Text :=
  if c.toNat == 0x130 then [Char.ofNat 0x69, Char.ofNat 0x307]
  else if c.toNat == 0x3a3 then if final then [Char.ofNat 0x3c2] else [Char.ofNat 0x3c3]
  else [lowerChar c]

/-- The lower case that a text has between what comes before it, nearest first, and what comes after it. -/
def lowerWithin (before after : Text) : Text → Text
  | [] => []
  | c :: rest => lowerAt (endsWord before (rest ++ after)) c ++ lowerWithin (c :: before) after rest

theorem lowerAt_of_ne {c : Char} (h : c ≠ '\u03a3') (final final' : Bool) : lowerAt final c = lowerAt final' c := by
  have hsigma : (c.toNat == 0x3a3) = false := by
    rw [beq_eq_false_iff_ne]
    exact fun e => h (Char.toNat_inj.mp e)
  rw [lowerAt, lowerAt, hsigma]
  rfl

theorem lowerFrom_eq_lowerWithin : ∀ before t : Text, lowerFrom before t = lowerWithin before [] t
  | _, [] => rfl
  | before, c :: rest => by
    show lowerAt (endsWord before rest) c ++ lowerFrom (c :: before) rest = _
    rw [lowerFrom_eq_lowerWithin (c :: before) rest, lowerWithin, List.append_nil]

theorem lower_eq_lowerWithin (t : Text) : lower t = lowerWithin [] [] t := lowerFrom_eq_lowerWithin [] t

/-- **The lower case of a text is put together from the lower case of its parts**, each taken between the others. -/
theorem lowerWithin_append (before after q : Text) :
    ∀ p : Text, lowerWithin before after (p ++ q) =
      lowerWithin before (q ++ after) p ++ lowerWithin (p.reverse ++ before) after q := by
  intro p
  induction p generalizing before with
  | nil => rfl
  | cons c p ih =>
    rw [List.cons_append, lowerWithin, lowerWithin, ih, List.append_assoc, List.append_assoc, List.reverse_cons,
      List.append_assoc, List.singleton_append]

theorem lower_append_append (s t u : Text) :
    lower (s ++ t ++ u) =
      lowerWithin [] (t ++ u) s ++ lowerWithin s.reverse u t ++ lowerWithin (t.reverse ++ s.reverse) [] u := by
  rw [lower_eq_lowerWithin, lowerWithin_append, lowerWithin_append, List.append_nil, List.append_nil, List.reverse_append,
    List.append_nil]

/-- A text keeps its lower case if each of its capital sigmas ends a word exactly where it does in the text alone. -/
theorem lowerWithin_eq_lower {t s u : Text}
    (h : ∀ p q, t = p ++ '\u03a3' :: q → endsWord (p.reverse ++ s) (q ++ u) = endsWord p.reverse q) :
    lowerWithin s u t = lower t := by
  have hrest : ∀ q p : Text, t = p ++ q → lowerWithin (p.reverse ++ s) u q = lowerWithin p.reverse [] q := by
    intro q
    induction q with
    | nil => intro p _; rfl
    | cons c q ih =>
      intro p ht
      have hfurther := ih (p ++ [c]) (by rw [ht, List.append_assoc, List.singleton_append])
      rw [List.reverse_append, List.reverse_singleton, List.singleton_append, List.cons_append] at hfurther
      rw [lowerWithin, lowerWithin, List.append_nil, hfurther]
      congr 1
      by_cases hc : c = '\u03a3'
      · rw [h p q (hc ▸ ht)]
      · exact lowerAt_of_ne hc _ _
  rw [lower_eq_lowerWithin]
  exact hrest t [] rfl

theorem infix_lower_of_endsWord {t s u : Text}
    (h : ∀ p q, t = p ++ '\u03a3' :: q →
      endsWord (p.reverse ++ s.reverse) (q ++ u) = endsWord p.reverse q) :
    lower t <:+: lower (s ++ t ++ u) := by
  rw [lower_append_append, lowerWithin_eq_lower h]
  exact List.infix_append _ _ _

/-- **Where no letter is next to it a text keeps its lower case.** -/
theorem infix_lower_of_not_meetsCased {s u : Text} (hs : meetsCased s.reverse = false) (hu : meetsCased u = false)
    (t : Text) : lower t <:+: lower (s ++ t ++ u) :=
  infix_lower_of_endsWord fun p q _ => endsWord_append_of_not_meetsCased hs hu p.reverse q

/-! ## Texts that stand alone -/

/-- No capital sigma of the text is exposed. -/
def StandsAlone (t : Text) : Prop := ∀ p q, t = p ++ '\u03a3' :: q → exposed p.reverse q = false

/-- The small sigma at the end of a word, and the one within. -/
def mark (final : Bool) : Char := if final then Char.ofNat 0x3c2 else Char.ofNat 0x3c3

theorem lowerAt_sigma (final : Bool) : lowerAt final '\u03a3' = [mark final] := by
  cases final <;> rfl

theorem count_mark (b d : Bool) : [mark b].count (mark d) = if b = d then 1 else 0 := by
  cases b <;> cases d <;> rfl

section
variable {s u : Text} {d : Bool}

/-- If fewer sigmas are of a kind, that kind is not counted more often. -/
theorem count_lowerWithin_le (h : ∀ x y, endsWord (x ++ s) (y ++ u) = d → endsWord x y = d) (t x y : Text) :
    (lowerWithin (x ++ s) (y ++ u) t).count (mark d) ≤ (lowerWithin x y t).count (mark d) := by
  induction t generalizing x with
  | nil => exact Nat.le_refl _
  | cons c t ih =>
    rw [lowerWithin, lowerWithin, List.count_append, List.count_append]
    refine Nat.add_le_add ?_ (ih (c :: x))
    by_cases hc : c = '\u03a3'
    · have hhere := h x (t ++ y)
      rw [hc, lowerAt_sigma, lowerAt_sigma, count_mark, count_mark]
      rw [List.append_assoc] at hhere
      split
      · rename_i hkind
        exact Nat.le_of_eq (if_pos (hhere hkind)).symm
      · exact Nat.zero_le _
    · exact Nat.le_of_eq (congrArg (List.count (mark d)) (lowerAt_of_ne hc _ _))

/-- And if one sigma is no more of that kind, it is counted less often. -/
theorem count_lowerWithin_lt (h : ∀ x y, endsWord (x ++ s) (y ++ u) = d → endsWord x y = d) {p q : Text}
    (hkind : endsWord p.reverse q = d) (hother : endsWord (p.reverse ++ s) (q ++ u) ≠ d) :
    (lowerWithin s u (p ++ '\u03a3' :: q)).count (mark d) < (lower (p ++ '\u03a3' :: q)).count (mark d) := by
  have hbefore := count_lowerWithin_le h p [] ('\u03a3' :: q)
  have hbehind := count_lowerWithin_le h q ('\u03a3' :: p.reverse) []
  have hhere : (lowerAt (endsWord (p.reverse ++ s) (q ++ u)) '\u03a3').count (mark d) = 0 := by
    rw [lowerAt_sigma, count_mark, if_neg hother]
  have hhere' : (lowerAt (endsWord p.reverse q) '\u03a3').count (mark d) = 1 := by
    rw [lowerAt_sigma, count_mark, if_pos hkind]
  simp only [List.nil_append, List.cons_append] at hbefore hbehind
  rw [lower_eq_lowerWithin, lowerWithin_append, lowerWithin_append, lowerWithin, lowerWithin]
  simp only [List.append_nil, List.cons_append, List.count_append, hhere, hhere']
  omega

end

/-- So the text does not keep its lower case there, if no such sigma stands beside it. -/
theorem not_infix_lower (s u : Text) {d : Bool}
    (h : ∀ x y, endsWord (x ++ s.reverse) (y ++ u) = d → endsWord x y = d) {t p q : Text}
    (ht : t = p ++ '\u03a3' :: q) (hkind : endsWord p.reverse q = d)
    (hother : endsWord (p.reverse ++ s.reverse) (q ++ u) ≠ d)
    (hs : (lowerWithin [] (t ++ u) s).count (mark d) = 0)
    (hu : (lowerWithin (t.reverse ++ s.reverse) [] u).count (mark d) = 0) :
    ¬ lower t <:+: lower (s ++ t ++ u) := by
  intro hinfix
  have hle := hinfix.sublist.count_le (mark d)
  have hlt := count_lowerWithin_lt h hkind hother
  rw [lower_append_append, List.count_append, List.count_append, hs, hu, ht] at hle
  omega

/-- A letter behind the text goes on with its last word, or a letter before it begins its first one. -/
theorem exists_not_infix_lower {t p q : Text} (ht : t = p ++ '\u03a3' :: q) (h : exposed p.reverse q = true) :
    ∃ s u, ¬ lower t <:+: lower (s ++ t ++ u) := by
  have hletter : meetsCased ['A'] = true := rfl
  rcases Bool.or_eq_true_iff.mp h with hbehind | hbefore
  · obtain ⟨hp, hq⟩ := Bool.and_eq_true_iff.mp hbehind
    have hends : endsWord p.reverse q = true := by simp [endsWord, hp, meetsCased_of_passedOver hq]
    have hgoesOn : endsWord (p.reverse ++ []) (q ++ ['A']) ≠ true := by simp [endsWord, meetsCased_append, hq, hletter]
    have hnoMore : ∀ x y, endsWord (x ++ []) (y ++ ['A']) = true → endsWord x y = true := by
      intro x y hends
      by_cases hy : passedOver y = true
      · simp [endsWord, meetsCased_append y, hy, hletter] at hends
      · simpa [endsWord, meetsCased_append y, hy] using hends
    exact ⟨[], ['A'], not_infix_lower [] ['A'] hnoMore ht hends hgoesOn rfl rfl⟩
  · obtain ⟨hp, hq⟩ := Bool.and_eq_true_iff.mp hbefore
    have hwithin : endsWord p.reverse q = false := by simp [endsWord, meetsCased_of_passedOver hp]
    have hends : endsWord (p.reverse ++ ['A']) (q ++ []) ≠ false := by
      simpa [endsWord, meetsCased_append, hp, hletter] using hq
    have hnoMore : ∀ x y, endsWord (x ++ ['A']) (y ++ []) = false → endsWord x y = false := by
      intro x y hends
      by_cases hx : passedOver x = true
      · simp [endsWord, meetsCased_of_passedOver hx]
      · simpa [endsWord, meetsCased_append x, hx] using hends
    exact ⟨['A'], [], not_infix_lower ['A'] [] hnoMore ht hwithin hends rfl rfl⟩

/-- **A text keeps its lower case wherever it stands exactly if it stands alone.** -/
theorem standsAlone_iff {t : Text} : StandsAlone t ↔ ∀ s u, lower t <:+: lower (s ++ t ++ u) := by
  constructor
  · intro h s u
    exact infix_lower_of_endsWord fun p q ht => endsWord_append (h p q ht) s.reverse u
  · intro h p q ht
    rw [Bool.eq_false_iff]
    intro hexposed
    obtain ⟨s, u, hnot⟩ := exists_not_infix_lower ht hexposed
    exact hnot (h s u)

end FlowTypes.Text
