import FlowTypes.Proofs.Patch.Weaving
import FlowTypes.Proofs.Text.Counting

/-!
# Edits part by part

An anchor that is taken literally cuts a text into the parts between its occurrences (`Anchor.cuts_literal`). So what an
edit makes of the text can be written down from the parts alone:

* content that takes the place of the anchor stands between the parts (`text_amend_over`);
* content that is to follow the anchor comes first in every part that does not hold it (`text_amend_after`, `fill`);
* content that is to come before the anchor ends every part where the text up to there does not end with it
  (`text_amend_before`, `lead`).

What is due is counted from the parts, too. An edit that has nothing to do leaves the text as it is
(`amend_of_edits_eq_zero`). So are other words: a replacement changes the count of its content by the number of anchors
(`countOf_amend_over_self`), and of a word that lies apart from both not at all (`countOf_amend_over_of_apart`).
-/

namespace FlowTypes

/-! ## The cuts of a literal anchor -/

section
variable {a t gap : Text} {gaps : List Text}

/-- A literal anchor finds its text. -/
theorem Anchor.finds_literal (ha : a ≠ []) : (Anchor.literal a).Finds ⟨a, false⟩ := by
  refine Anchor.finds_of_needle? ?_
  cases a with
  | nil => exact absurd rfl ha
  | cons c rest => rfl

/-- Parts between occurrences are gaps between needles. -/
theorem Needle.splits_of_gaps (previous : Option Char) : ∀ {gaps : List Text} {t gap : Text},
    Occurrence.Gaps a t (gap :: gaps) → Needle.Splits ⟨a, false⟩ previous gap (gaps.map (Segment.mk a))
  | [], _, _, .last hfree => (Needle.free_iff_of_not_wordStart rfl).mpr hfree
  | [], _, _, .next _ hrest => absurd rfl hrest.ne_nil
  | _ :: _, _, _, .next hfirst hrest => ⟨fun u v e _ => hfirst u v e, rfl, rfl, splits_of_gaps a.getLast? hrest⟩

theorem Occurrence.intercalate_eq_flatten (word gap : Text) (gaps : List Text) :
    word.intercalate (gap :: gaps) = gap ++ (gaps.map (word ++ ·)).flatten := by
  induction gaps generalizing gap with
  | nil => simp
  | cons next gaps ih =>
    rw [List.intercalate_cons_of_ne_nil (List.cons_ne_nil next gaps), ih, List.map_cons, List.flatten_cons]
    simp

theorem Segment.flat_map_mk (a : Text) (gaps : List Text) :
    Segment.flat (gaps.map (Segment.mk a)) = (gaps.map (a ++ ·)).flatten := by
  simp [flat, List.flatMap_def, Function.comp_def]

/-- **The cuts of a literal anchor are the parts between its occurrences.** -/
theorem Anchor.cuts_literal (ha : a ≠ []) (h : Occurrence.Gaps a t (gap :: gaps)) :
    (Anchor.literal a).cuts t = ⟨gap, gaps.map (Segment.mk a)⟩ := by
  have hcuts := (Anchor.finds_literal ha).cuts_eq (Needle.splits_of_gaps none h)
  rwa [Segment.flat_map_mk, ← Occurrence.intercalate_eq_flatten, h.intercalate_eq] at hcuts

end

namespace Patch

/-! ## Edits that have nothing to do -/

/-- Without edits the text stays. -/
theorem amend_of_edits_eq_zero {placement : Placement} {anchor : Anchor} {content t : Text}
    (h : (amend placement anchor content t).edits = 0) :
    amend placement anchor content t = ⟨t, (amend placement anchor content t).status, 0⟩ := by
  have hcount := edits_amend placement anchor content t
  rw [h] at hcount
  unfold amend amendAt
  dsimp only
  rw [← hcount]
  split <;> rfl

theorem status_amend_of_edits_eq_zero {placement : Placement} {anchor : Anchor} {content t : Text}
    (h : (amend placement anchor content t).edits = 0) :
    (amend placement anchor content t).status =
      if anchor.occursIn t then .alreadyApplied else unmatched placement content t := by
  have hcount := edits_amend placement anchor content t
  rw [h] at hcount
  unfold amend amendAt Anchor.occursIn
  dsimp only
  rw [← hcount]
  cases (anchor.cuts t).segments.isEmpty <;> rfl

/-- An edit that changes a text has edits to count. -/
theorem status_amend_of_text_ne {placement : Placement} {anchor : Anchor} {content t : Text}
    (h : (amend placement anchor content t).text ≠ t) : (amend placement anchor content t).status = .applied := by
  refine (edits_amend_pos_iff placement anchor content t).mp (Nat.pos_iff_ne_zero.mpr fun hzero => h ?_)
  rw [amend_of_edits_eq_zero hzero]

/-! ## What is made of the parts -/

/-- A part with the content at its start, unless it holds it. -/
def fill (content gap : Text) : Text := if Occurrence.occursIn content gap then gap else content ++ gap

/-- The parts with the content at their ends, unless the text up to there ends with it. The last part is followed by no
anchor. -/
def lead (anchor content behind : Text) : List Text → List Text
  | [] => []
  | [gap] => [gap]
  | gap :: next :: gaps =>
    (if Occurrence.endsWith (behind ++ gap) content then gap else gap ++ content)
      :: lead anchor content (behind ++ gap ++ anchor) (next :: gaps)

theorem lead_ne_nil (anchor content behind gap : Text) (gaps : List Text) :
    lead anchor content behind (gap :: gaps) ≠ [] := by
  cases gaps <;> exact List.cons_ne_nil _ _

theorem lead_of_suffix {anchor content behind gap : Text} (h : content <:+ behind ++ gap) (next : Text)
    (gaps : List Text) : lead anchor content behind (gap :: next :: gaps) =
      gap :: lead anchor content (behind ++ gap ++ anchor) (next :: gaps) :=
  congrArg (· :: _) (if_pos (List.isSuffixOf_iff_suffix.mpr h))

theorem lead_of_not_suffix {anchor content behind gap : Text} (h : ¬ content <:+ behind ++ gap) (next : Text)
    (gaps : List Text) : lead anchor content behind (gap :: next :: gaps) =
      (gap ++ content) :: lead anchor content (behind ++ gap ++ anchor) (next :: gaps) :=
  congrArg (· :: _) (if_neg fun hends => h (List.isSuffixOf_iff_suffix.mp hends))

theorem fill_eq_self {content gap : Text} (h : content <:+: gap) : fill content gap = gap :=
  if_pos (Occurrence.occursIn_iff_infix.mpr h)

theorem fill_eq_append {content gap : Text} (h : ¬ content <:+: gap) : fill content gap = content ++ gap :=
  if_neg fun hin => h (Occurrence.occursIn_iff_infix.mp hin)

@[simp]
theorem fill_nil (content : Text) : fill content [] = content := by
  by_cases h : content = []
  · rw [h, fill_eq_self List.nil_infix]
  · rw [fill_eq_append (h ∘ List.infix_nil.mp), List.append_nil]

theorem infix_fill (content gap : Text) : content <:+: fill content gap := by
  by_cases h : content <:+: gap
  · rwa [fill_eq_self h]
  · exact fill_eq_append h ▸ (List.prefix_append content gap).isInfix

/-- What a part holds stays in it. -/
theorem suffix_fill (content gap : Text) : gap <:+ fill content gap := by
  by_cases h : content <:+: gap
  · exact ⟨[], (fill_eq_self h).symm⟩
  · exact fill_eq_append h ▸ List.suffix_append content gap

section
variable {a c t gap : Text} {gaps : List Text}

theorem text_amend_literal (ha : a ≠ []) (placement : Placement) (h : Occurrence.Gaps a t (gap :: gaps)) :
    (amend placement (.literal a) c t).text = assemble placement c ⟨gap, gaps.map (Segment.mk a)⟩ := by
  rw [text_amend, Anchor.cuts_literal ha h]

theorem edits_amend_literal (ha : a ≠ []) (placement : Placement) (h : Occurrence.Gaps a t (gap :: gaps)) :
    (amend placement (.literal a) c t).edits =
      (due placement c ⟨gap, gaps.map (Segment.mk a)⟩).count true := by
  rw [edits_amend, Anchor.cuts_literal ha h]

/-- **A replacement stands between the parts.** -/
theorem text_amend_over (ha : a ≠ []) (h : Occurrence.Gaps a t (gap :: gaps)) :
    (amend .over (.literal a) c t).text = c.intercalate (gap :: gaps) := by
  rw [text_amend_literal ha .over h, Occurrence.intercalate_eq_flatten, assemble]
  congr 2
  rw [due, List.zipWith_map_right, List.zipWith_self, List.map_map]
  rfl

theorem edits_amend_over (ha : a ≠ []) (h : Occurrence.Gaps a t (gap :: gaps)) :
    (amend .over (.literal a) c t).edits = gaps.length := by
  rw [edits_amend_literal ha .over h]
  simp [due, List.map_const']

/-- **Content that follows an anchor starts the parts.** -/
theorem text_amend_after (ha : a ≠ []) (h : Occurrence.Gaps a t (gap :: gaps)) :
    (amend .after (.literal a) c t).text = a.intercalate (gap :: gaps.map (fill c)) := by
  rw [text_amend_literal ha .after h, Occurrence.intercalate_eq_flatten, assemble]
  congr 2
  simp only [due, List.zipWith_map_right, List.zipWith_map_left, List.zipWith_self, List.map_map]
  refine List.map_congr_left fun gap _ => ?_
  cases hholds : Occurrence.occursIn c gap <;> simp [written, fill, hholds]

theorem edits_amend_after (ha : a ≠ []) (h : Occurrence.Gaps a t (gap :: gaps)) :
    (amend .after (.literal a) c t).edits = gaps.countP fun gap => !Occurrence.occursIn c gap := by
  rw [edits_amend_literal ha .after h]
  simp [due, List.count, List.countP_map, Function.comp_def]

/-- Where every part after an anchor holds the content, nothing is due. -/
theorem edits_amend_after_eq_zero (ha : a ≠ []) (h : Occurrence.Gaps a t (gap :: gaps))
    (hholds : ∀ part ∈ gaps, c <:+: part) : (amend .after (.literal a) c t).edits = 0 := by
  rw [edits_amend_after ha h, List.countP_eq_zero]
  intro part hpart
  rw [Occurrence.occursIn_iff_infix.mpr (hholds part hpart)]
  exact Bool.false_ne_true

theorem flatten_written_before (behind gap : Text) (gaps : List Text) :
    gap ++ (List.zipWith (written .before c) (gaps.map (Segment.mk a))
      (dueBefore c (behind ++ gap).reverse (gaps.map (Segment.mk a)))).flatten =
        a.intercalate (lead a c behind (gap :: gaps)) := by
  induction gaps generalizing behind gap with
  | nil => simp [lead]
  | cons next gaps ih =>
    rw [List.map_cons, dueBefore_reverse_cons, List.zipWith_cons_cons, List.flatten_cons, lead,
      List.intercalate_cons_of_ne_nil (lead_ne_nil a c _ next gaps), ← ih, ← List.append_assoc _ a]
    cases Occurrence.endsWith (behind ++ gap) c <;> simp [written]

/-- **Content that comes before an anchor ends the parts.** -/
theorem text_amend_before (ha : a ≠ []) (h : Occurrence.Gaps a t (gap :: gaps)) :
    (amend .before (.literal a) c t).text = a.intercalate (lead a c [] (gap :: gaps)) := by
  rw [text_amend_literal ha .before h, ← flatten_written_before]
  rfl

theorem edits_amend_before (ha : a ≠ []) (h : Occurrence.Gaps a t (gap :: gaps)) :
    (amend .before (.literal a) c t).edits = (dueBefore c gap.reverse (gaps.map (Segment.mk a))).count true :=
  edits_amend_literal ha .before h

end

/-! ## What a replacement does to other words -/

section
variable {a c word : Text}

/-- **A word that lies apart from the anchor and from the content is not made and not broken.** -/
theorem countOf_amend_over_of_apart (ha : a ≠ []) (hword : word ≠ []) (hb : Occurrence.unbordered word = true)
    (hwa : Occurrence.apart word a = true) (hwc : Occurrence.apart word c = true) (t : Text) :
    Occurrence.countOf word (amend .over (.literal a) c t).text = Occurrence.countOf word t := by
  obtain ⟨gaps, hgaps⟩ := Occurrence.exists_gaps ha t
  obtain ⟨gap, gaps, rfl⟩ := List.exists_cons_of_ne_nil hgaps.ne_nil
  rw [text_amend_over ha hgaps, Occurrence.countOf_intercalate_congr hword hb hwc hwa, hgaps.intercalate_eq]

/-- **The content comes in once for every anchor.** -/
theorem countOf_amend_over_self (ha : a ≠ []) (hc : c ≠ []) (hb : Occurrence.unbordered c = true)
    (hca : Occurrence.apart c a = true) (t : Text) :
    Occurrence.countOf c (amend .over (.literal a) c t).text = Occurrence.countOf c t + Occurrence.countOf a t := by
  obtain ⟨gaps, hgaps⟩ := Occurrence.exists_gaps ha t
  obtain ⟨gap, gaps, rfl⟩ := List.exists_cons_of_ne_nil hgaps.ne_nil
  have hanchors := Occurrence.countOf_of_gaps ha hgaps
  have hself := Occurrence.countOf_intercalate_self hc hb hca hgaps.ne_nil
  rw [hgaps.intercalate_eq, ← text_amend_over ha hgaps] at hself
  omega

end

end Patch

end FlowTypes
