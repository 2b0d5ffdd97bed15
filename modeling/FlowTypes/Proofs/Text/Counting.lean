import FlowTypes.Proofs.Text.Gaps

/-!
# How often a word occurs

The occurrences of a word that are taken from the left without overlap are one fewer than the parts between them
(`countOf_of_gaps`). A word that does not overlap itself can be counted part by part: in a list that is put together
around something that lies apart from the word the counts of both sides add up (`countOf_append_of_apart`), and around
the word itself there is one more (`countOf_append_self`).

So when one word takes the place of another, nothing else is counted differently. This is said of the list that stands
between the parts (`countOf_intercalate_congr`, `countOf_intercalate_self`).
-/

namespace FlowTypes.Occurrence

variable {α : Type} [DecidableEq α]

/-! ## Counting by lengths -/

section
variable {pattern : List α}

/-- Every occurrence that is replaced is one that is counted. -/
theorem length_replaceFrom (hpattern : pattern ≠ []) (replacement : List α) :
    ∀ (whole : List α) (skip : Nat),
      (replaceFrom pattern replacement skip whole).length + pattern.length * countFrom pattern skip whole =
        whole.length - skip + replacement.length * countFrom pattern skip whole
  | [], skip => by simp [replaceFrom, countFrom]
  | c :: rest, skip + 1 => by
    rw [replaceFrom, countFrom, length_replaceFrom hpattern replacement rest skip, List.length_cons,
      Nat.add_sub_add_right]
  | c :: rest, 0 => by
    have hpos := List.length_pos_iff.mpr hpattern
    rw [replaceFrom, countFrom]
    split
    · rename_i hbegin
      have hle := (List.isPrefixOf_iff_prefix.mp hbegin).length_le
      have ih := length_replaceFrom hpattern replacement rest (pattern.length - 1)
      rw [List.length_cons] at hle
      rw [List.length_append, List.length_cons, Nat.mul_succ, Nat.mul_succ]
      omega
    · have ih := length_replaceFrom hpattern replacement rest 0
      rw [List.length_cons, List.length_cons]
      omega

omit [DecidableEq α] in
/-- Every part is followed by the word, but the last one. -/
theorem length_intercalate (word : List α) {parts : List (List α)} (h : parts ≠ []) :
    (word.intercalate parts).length + word.length = parts.flatten.length + word.length * parts.length := by
  induction parts with
  | nil => exact absurd rfl h
  | cons part parts ih =>
    by_cases hparts : parts = []
    · subst hparts
      simp
    · have ih := ih hparts
      rw [List.intercalate_cons_of_ne_nil hparts, List.flatten_cons]
      simp only [List.length_append, List.length_cons, Nat.mul_succ]
      omega

/-- **There is one occurrence fewer than there are parts.** -/
theorem countOf_of_gaps (hpattern : pattern ≠ []) {whole : List α} {gaps : List (List α)}
    (h : Gaps pattern whole gaps) : countOf pattern whole + 1 = gaps.length := by
  have hempty : pattern.isEmpty = false := by simpa using hpattern
  have hlaw := length_replaceFrom hpattern [] whole 0
  have hgone := replaceAll_of_gaps hpattern [] h
  rw [replaceAll_of_ne_nil hpattern] at hgone
  have hparts := length_intercalate ([] : List α) h.ne_nil
  have hwhole := length_intercalate pattern h.ne_nil
  rw [h.intercalate_eq] at hwhole
  rw [hgone] at hlaw
  rw [countOf, hempty, if_neg Bool.false_ne_true]
  refine Nat.eq_of_mul_eq_mul_left (List.length_pos_iff.mpr hpattern) ?_
  rw [Nat.mul_succ]
  simp only [List.length_nil, Nat.zero_mul, Nat.add_zero, Nat.sub_zero] at hlaw hparts
  omega

theorem countOf_eq_zero_iff (hpattern : pattern ≠ []) {whole : List α} :
    countOf pattern whole = 0 ↔ ¬ pattern <:+: whole := by
  obtain ⟨gaps, hgaps⟩ := exists_gaps hpattern whole
  have hcount := countOf_of_gaps hpattern hgaps
  cases hgaps with
  | last hfree => exact ⟨fun _ => hfree, fun _ => by simpa using hcount⟩
  | @next gap rest gaps hfirst hrest =>
    have hpos := List.length_pos_iff.mpr hrest.ne_nil
    rw [List.length_cons] at hcount
    exact ⟨fun hzero => by omega, fun hfree => absurd (List.infix_append gap pattern rest) hfree⟩

end

/-! ## Words that do not overlap themselves -/

section
variable {word m x y gap : List α}

omit [DecidableEq α] in
theorem not_infix_of_endsFirst (hword : word ≠ []) (h : EndsFirst word gap) : ¬ word <:+: gap := by
  rintro ⟨u, v, rfl⟩
  have hnil := h u (v ++ word) (by simp)
  exact hword (List.append_eq_nil_iff.mp hnil).2

theorem endsFirst_of_free (hb : unbordered word = true) (h : ¬ word <:+: gap) : EndsFirst word gap := by
  intro u v e
  have hplace : u ++ word ++ v = gap ++ word ++ [] := by rw [← e, List.append_nil]
  rcases split_of_unbordered hb hplace with ⟨w, rfl, -⟩ | ⟨-, hv⟩ | ⟨w, -, hw⟩
  · exact absurd (List.infix_append u word w) h
  · exact hv
  · exact (List.append_eq_nil_iff.mp hw.symm).2

omit [DecidableEq α] in
theorem Gaps.not_infix (hword : word ≠ []) {whole : List α} {gaps : List (List α)} (h : Gaps word whole gaps)
    (hgap : gap ∈ gaps) : ¬ word <:+: gap := by
  induction h with
  | last hfree => exact List.mem_singleton.mp hgap ▸ hfree
  | next hfirst _ ih =>
    rcases List.mem_cons.mp hgap with rfl | hgap
    · exact not_infix_of_endsFirst hword hfirst
    · exact ih hgap

/-- The last part on the left and the first one on the right become one around what lies apart from the word. -/
theorem Gaps.join (hword : word ≠ []) (hb : unbordered word = true) (hm : apart word m = true) {before : List (List α)}
    {after : List (List α)} (hx : Gaps word x before) (hy : Gaps word y (gap :: after)) :
    ∃ gaps, Gaps word (x ++ m ++ y) gaps ∧ gaps.length = before.length + after.length := by
  induction hx with
  | @last left hleft =>
    have hseam := not_infix_insert hm hleft (hy.not_infix hword List.mem_cons_self)
    refine ⟨(left ++ m ++ gap) :: after, ?_, by simp [Nat.add_comm]⟩
    cases hy with
    | last _ => exact .last hseam
    | @next _ rest _ _ hrest =>
      have hnext := Gaps.next (endsFirst_of_free hb hseam) hrest
      rwa [show left ++ m ++ (gap ++ word ++ rest) = left ++ m ++ gap ++ word ++ rest by simp]
  | @next left rest before hfirst hrest ih =>
    obtain ⟨gaps, hgaps, hlength⟩ := ih
    refine ⟨left :: gaps, ?_, by simp [hlength, Nat.succ_add]⟩
    rw [show left ++ word ++ rest ++ m ++ y = left ++ word ++ (rest ++ m ++ y) by simp]
    exact .next hfirst hgaps

/-- The parts on both sides of a word are those of the list around it. -/
theorem Gaps.append (hb : unbordered word = true) {before after : List (List α)} (hx : Gaps word x before)
    (hy : Gaps word y after) : Gaps word (x ++ word ++ y) (before ++ after) := by
  induction hx with
  | last hfree => exact .next (endsFirst_of_free hb hfree) hy
  | @next left rest before hfirst hrest ih =>
    rw [show left ++ word ++ rest ++ word ++ y = left ++ word ++ (rest ++ word ++ y) by simp]
    exact .next hfirst ih

/-- **Around what lies apart from a word its occurrences add up.** -/
theorem countOf_append_of_apart (hword : word ≠ []) (hb : unbordered word = true) (hm : apart word m = true)
    (x y : List α) : countOf word (x ++ m ++ y) = countOf word x + countOf word y := by
  obtain ⟨before, hx⟩ := exists_gaps hword x
  obtain ⟨after, hy⟩ := exists_gaps hword y
  obtain ⟨gap, after, rfl⟩ := List.exists_cons_of_ne_nil hy.ne_nil
  obtain ⟨gaps, hgaps, hlength⟩ := hx.join hword hb hm hy
  have hcount := countOf_of_gaps hword hgaps
  have hleft := countOf_of_gaps hword hx
  have hright := countOf_of_gaps hword hy
  rw [List.length_cons] at hright
  omega

/-- **Around the word itself there is one occurrence more.** -/
theorem countOf_append_self (hword : word ≠ []) (hb : unbordered word = true) (x y : List α) :
    countOf word (x ++ word ++ y) = countOf word x + countOf word y + 1 := by
  obtain ⟨before, hx⟩ := exists_gaps hword x
  obtain ⟨after, hy⟩ := exists_gaps hword y
  have hcount := countOf_of_gaps hword (hx.append hb hy)
  have hleft := countOf_of_gaps hword hx
  have hright := countOf_of_gaps hword hy
  rw [List.length_append] at hcount
  omega

/-- **It does not matter what stands between parts**, as long as it lies apart from the word. -/
theorem countOf_intercalate_congr (hword : word ≠ []) (hb : unbordered word = true) {m' : List α}
    (hm : apart word m = true) (hm' : apart word m' = true) (parts : List (List α)) :
    countOf word (m.intercalate parts) = countOf word (m'.intercalate parts) := by
  induction parts with
  | nil => rfl
  | cons part parts ih =>
    by_cases hparts : parts = []
    · rw [hparts, List.intercalate_singleton, List.intercalate_singleton]
    · rw [List.intercalate_cons_of_ne_nil hparts, List.intercalate_cons_of_ne_nil hparts,
        countOf_append_of_apart hword hb hm, countOf_append_of_apart hword hb hm', ih]

/-- The word between parts counts once for each of them but the last one. -/
theorem countOf_intercalate_self (hword : word ≠ []) (hb : unbordered word = true) (hm : apart word m = true)
    {parts : List (List α)} (h : parts ≠ []) :
    countOf word (word.intercalate parts) + 1 = countOf word (m.intercalate parts) + parts.length := by
  induction parts with
  | nil => exact absurd rfl h
  | cons part parts ih =>
    by_cases hparts : parts = []
    · rw [hparts, List.intercalate_singleton, List.intercalate_singleton, List.length_singleton]
    · have ih := ih hparts
      rw [List.intercalate_cons_of_ne_nil hparts, List.intercalate_cons_of_ne_nil hparts,
        countOf_append_self hword hb, countOf_append_of_apart hword hb hm, List.length_cons]
      omega

end

end FlowTypes.Occurrence
