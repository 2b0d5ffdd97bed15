import FlowTypes.Proofs.Text.Apart

/-!
# What replacing occurrences does

The occurrences of a word that are taken from the left without overlap cut a list into parts. `Gaps` says which
parts these are, without a scan: the word follows each of them but the last, it ends in no place before, and it is
nowhere in the last one. Every list has such parts (`exists_gaps`).

Replacing puts the new word between the parts and leaves the parts as they are (`replaceAll_of_gaps`). So what
stands outside of the occurrences is kept, in order.
-/

namespace FlowTypes.Occurrence

variable {α : Type}

/-! ## Parts -/

/-- In the part and the word behind it, the word is at the end and nowhere else. -/
def EndsFirst (pattern gap : List α) : Prop := ∀ u v, gap ++ pattern = u ++ pattern ++ v → v = []

/-- The parts of a list between the occurrences of a word, which are taken from the left without overlap. -/
inductive Gaps (pattern : List α) : List α → List (List α) → Prop
  | last {gap : List α} (hfree : ¬ pattern <:+: gap) : Gaps pattern gap [gap]
  | next {gap rest : List α} {gaps : List (List α)} (hfirst : EndsFirst pattern gap)
      (hrest : Gaps pattern rest gaps) : Gaps pattern (gap ++ pattern ++ rest) (gap :: gaps)

variable {pattern : List α}

theorem Gaps.ne_nil {whole : List α} {gaps : List (List α)} (h : Gaps pattern whole gaps) : gaps ≠ [] := by
  cases h <;> nofun

/-- What stands between parts with a separator is of the separator or of a part. -/
theorem mem_intercalate {separator : List α} {parts : List (List α)} {a : α}
    (h : a ∈ separator.intercalate parts) : a ∈ separator ∨ ∃ part ∈ parts, a ∈ part := by
  induction parts with
  | nil => cases h
  | cons part parts ih =>
    by_cases hparts : parts = []
    · subst hparts
      rw [List.intercalate_singleton] at h
      exact .inr ⟨part, List.mem_cons_self, h⟩
    · rw [List.intercalate_cons_of_ne_nil hparts] at h
      rcases List.mem_append.mp h with h | h
      · rcases List.mem_append.mp h with h | h
        · exact .inr ⟨part, List.mem_cons_self, h⟩
        · exact .inl h
      · rcases ih h with h | ⟨part', hm, h⟩
        · exact .inl h
        · exact .inr ⟨part', List.mem_cons_of_mem part hm, h⟩

/-- The parts with the word between them are the list. -/
theorem Gaps.intercalate_eq {whole : List α} {gaps : List (List α)} (h : Gaps pattern whole gaps) :
    pattern.intercalate gaps = whole := by
  induction h with
  | last _ => exact List.intercalate_singleton
  | next _ hrest ih => rw [List.intercalate_cons_of_ne_nil hrest.ne_nil, ih]

/-- Every part is a part of the list. -/
theorem Gaps.infix_whole {whole gap : List α} {gaps : List (List α)} (h : Gaps pattern whole gaps) (hgap : gap ∈ gaps) :
    gap <:+: whole := by
  induction h with
  | last _ =>
    obtain rfl := List.mem_singleton.mp hgap
    exact List.infix_rfl
  | @next first rest gaps _ _ ih =>
    rcases List.mem_cons.mp hgap with rfl | hgap
    · exact ((List.prefix_append _ pattern).trans (List.prefix_append _ rest)).isInfix
    · exact (ih hgap).trans (List.suffix_append _ rest).isInfix

/-- A word that is somewhere in a list is in a first place there. -/
theorem exists_endsFirst {whole : List α} (h : pattern <:+: whole) :
    ∃ gap rest, whole = gap ++ pattern ++ rest ∧ EndsFirst pattern gap := by
  induction whole with
  | nil =>
    obtain rfl := List.infix_nil.mp h
    exact ⟨[], [], rfl, fun u v e => (List.append_eq_nil_iff.mp e.symm).2⟩
  | cons c whole ih =>
    by_cases hhere : pattern <+: c :: whole
    · obtain ⟨rest, hrest⟩ := hhere
      refine ⟨[], rest, hrest.symm, fun u v e => List.eq_nil_of_length_eq_zero ?_⟩
      have hlength := congrArg List.length e
      simp only [List.nil_append, List.length_append] at hlength
      omega
    · obtain ⟨gap, rest, rfl, hfirst⟩ := ih ((List.infix_cons_iff.mp h).resolve_left hhere)
      refine ⟨c :: gap, rest, rfl, fun u v e => ?_⟩
      cases u with
      | nil =>
        -- then it would be at the very beginning
        exfalso
        apply hhere
        show pattern <+: (c :: gap ++ pattern) ++ rest
        rw [e]
        exact ⟨v ++ rest, by simp⟩
      | cons d u =>
        simp only [List.cons_append, List.cons.injEq] at e
        exact hfirst u v e.2

/-- **Every list has such parts.** -/
theorem exists_gaps (hpattern : pattern ≠ []) (whole : List α) : ∃ gaps, Gaps pattern whole gaps := by
  by_cases h : pattern <:+: whole
  · obtain ⟨gap, rest, hwhole, hfirst⟩ := exists_endsFirst h
    have hshorter : rest.length < whole.length := by
      have hpos := List.length_pos_iff.mpr hpattern
      rw [hwhole]
      simp only [List.length_append]
      omega
    obtain ⟨gaps, hgaps⟩ := exists_gaps hpattern rest
    exact ⟨gap :: gaps, hwhole ▸ .next hfirst hgaps⟩
  · exact ⟨[whole], .last h⟩
termination_by whole.length

/-- The word does not begin in a part that it follows. -/
theorem EndsFirst.not_prefix {gap : List α} (h : EndsFirst pattern gap) (rest : List α) {s t : List α}
    (hgap : gap = s ++ t) (ht : t ≠ []) : ¬ pattern <+: t ++ (pattern ++ rest) := by
  intro hfront
  have hpos := List.length_pos_iff.mpr ht
  have hwithin : pattern <+: t ++ pattern := by
    refine List.prefix_of_prefix_length_le hfront ⟨rest, by simp⟩ ?_
    rw [List.length_append]
    omega
  obtain ⟨v, hv⟩ := hwithin
  have hnil := h s v (by rw [hgap, List.append_assoc, ← hv, List.append_assoc])
  have hlength := congrArg List.length hv
  rw [hnil, List.append_nil, List.length_append] at hlength
  omega

/-! ## Replacing -/

variable [DecidableEq α]

/-- Symbols that are passed over leave nothing. -/
theorem replaceFrom_append (pattern replacement passed rest : List α) :
    replaceFrom pattern replacement passed.length (passed ++ rest) = replaceFrom pattern replacement 0 rest := by
  induction passed with
  | nil => rfl
  | cons c passed ih =>
    rw [List.cons_append, List.length_cons, replaceFrom]
    exact ih

/-- A part in which the word does not begin is kept. -/
theorem replaceFrom_gap (replacement : List α) {gap rest : List α}
    (h : ∀ s t, gap = s ++ t → t ≠ [] → ¬ pattern <+: t ++ rest) :
    replaceFrom pattern replacement 0 (gap ++ rest) = gap ++ replaceFrom pattern replacement 0 rest := by
  induction gap with
  | nil => rfl
  | cons c gap ih =>
    have hhere : pattern.isPrefixOf (c :: (gap ++ rest)) = false := by
      rw [Bool.eq_false_iff, ne_eq, List.isPrefixOf_iff_prefix]
      exact h [] (c :: gap) rfl (List.cons_ne_nil c gap)
    have hfurther : ∀ s t, gap = s ++ t → t ≠ [] → ¬ pattern <+: t ++ rest := by
      rintro s t rfl ht
      exact h (c :: s) t rfl ht
    rw [List.cons_append, replaceFrom, hhere, if_neg Bool.false_ne_true, ih hfurther, List.cons_append]

/-- The word that is found becomes the new one. -/
theorem replaceFrom_found (hpattern : pattern ≠ []) (replacement rest : List α) :
    replaceFrom pattern replacement 0 (pattern ++ rest) =
      replacement ++ replaceFrom pattern replacement 0 rest := by
  obtain ⟨c, tail, rfl⟩ := List.exists_cons_of_ne_nil hpattern
  have hhere : (c :: tail).isPrefixOf (c :: (tail ++ rest)) = true :=
    List.isPrefixOf_iff_prefix.mpr ⟨rest, rfl⟩
  rw [List.cons_append, replaceFrom, hhere, if_pos rfl, List.length_cons, Nat.add_sub_cancel,
    replaceFrom_append]

theorem replaceAll_of_ne_nil (hpattern : pattern ≠ []) (replacement whole : List α) :
    replaceAll pattern replacement whole = replaceFrom pattern replacement 0 whole := by
  have hempty : pattern.isEmpty = false := by simpa using hpattern
  rw [replaceAll, hempty, if_neg Bool.false_ne_true]

/-- **Replacing puts the new word between the parts**, and keeps the parts. -/
theorem replaceAll_of_gaps (hpattern : pattern ≠ []) (replacement : List α) {whole : List α}
    {gaps : List (List α)} (h : Gaps pattern whole gaps) :
    replaceAll pattern replacement whole = replacement.intercalate gaps := by
  rw [replaceAll_of_ne_nil hpattern]
  induction h with
  | @last gap hfree =>
    have hkeep : ∀ s t, gap = s ++ t → t ≠ [] → ¬ pattern <+: t ++ [] := by
      rintro s t rfl - hfront
      rw [List.append_nil] at hfront
      exact hfree (hfront.isInfix.trans (List.suffix_append s t).isInfix)
    have hall := replaceFrom_gap replacement hkeep
    rw [List.append_nil, replaceFrom, List.append_nil] at hall
    rw [hall, List.intercalate_singleton]
  | @next gap rest gaps hfirst hrest ih =>
    rw [List.append_assoc, replaceFrom_gap replacement fun s t => hfirst.not_prefix rest,
      replaceFrom_found hpattern, ih, List.intercalate_cons_of_ne_nil hrest.ne_nil, List.append_assoc]

end FlowTypes.Occurrence
