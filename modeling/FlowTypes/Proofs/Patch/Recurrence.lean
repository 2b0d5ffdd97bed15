import FlowTypes.Proofs.Patch.Parts
import FlowTypes.Proofs.Patch.Presence

/-!
# Edits that have nothing left to do

A rule is meant to find nothing to do in its own result. What it puts into a text may yet make up its anchor together with
what stands beside it, even if it does not hold the anchor itself. Whether this can happen in any text is a question about
anchor and content alone, `Recurs`: **an edit at a literal anchor has nothing left to do, whatever the text is, exactly if
the anchor does not recur** (`edits_amend_amend_iff`).

In particular the anchor does not recur if it lies apart from the content (`not_recurs_of_apart`).

## Why the condition is exact

In one direction the parts of the result are followed. As long as the anchor does not recur, the result of an edit has the
parts that were written, and no other occurrence of the anchor. In the other direction there is a text for each way in
which the anchor recurs; it is made of the anchor and one or two pieces of it.
-/

namespace FlowTypes

/-! ## First places -/

namespace Occurrence

variable {a gap x y rest : Text}

theorem endsFirst_nil (a : Text) : EndsFirst a [] := by
  intro u v e
  have hlength := congrArg List.length e
  simp only [List.nil_append, List.length_append] at hlength
  exact List.eq_nil_of_length_eq_zero (by omega)

theorem EndsFirst.right (h : EndsFirst a (x ++ y)) : EndsFirst a y := by
  intro u v e
  exact h (x ++ u) v (by rw [List.append_assoc, e]; simp)

/-- Of two places of a word none comes before the first one. -/
theorem EndsFirst.length_le (h : EndsFirst a gap) (e : gap ++ a ++ rest = x ++ a ++ y) : gap.length ≤ x.length :=
  have hfirst : Needle.First ⟨a, false⟩ none gap := fun u v e _ => h u v e
  hfirst.le rfl e

/-- What is too short for a word does not hold it. -/
theorem not_infix_of_length_lt (h : x.length < a.length) : ¬ a <:+: x :=
  fun hin => Nat.not_le_of_lt h hin.length_le

/-- Otherwise the word begins in the part, and goes on in itself. -/
theorem not_endsFirst_iff : ¬ EndsFirst a gap ↔ ∃ p q, gap = p ++ q ∧ q ≠ [] ∧ a <+: q ++ a := by
  constructor
  · intro h
    obtain ⟨u, v, e, hv⟩ : ∃ u v, gap ++ a = u ++ a ++ v ∧ v ≠ [] := by
      simpa [EndsFirst] using h
    have hlength := congrArg List.length e
    simp only [List.length_append] at hlength
    rw [List.append_assoc] at e
    obtain ⟨q, rfl⟩ : u <+: gap :=
      List.prefix_of_prefix_length_le ⟨a ++ v, e.symm⟩ (List.prefix_append gap a) (by omega)
    rw [List.append_assoc] at e
    have hrest := List.append_cancel_left e
    exact ⟨u, q, rfl, fun hq => hv (by simpa [hq] using hrest), v, hrest.symm⟩
  · rintro ⟨p, q, rfl, hq, v, hv⟩ h
    have hnil := h p v (by rw [List.append_assoc, List.append_assoc, hv])
    have hlength := congrArg List.length hv
    have hpos := List.length_pos_iff.mpr hq
    simp only [hnil, List.length_append, List.length_nil] at hlength
    omega

/-- The ways to split a list are counted by the length of the first part. -/
theorem exists_split_iff {α : Type} {P : List α → List α → Prop} {whole : List α} :
    (∃ p q, whole = p ++ q ∧ P p q) ↔ ∃ k ∈ List.range (whole.length + 1), P (whole.take k) (whole.drop k) := by
  constructor
  · rintro ⟨p, q, rfl, h⟩
    refine ⟨p.length, List.mem_range.mpr (by rw [List.length_append]; omega), ?_⟩
    rwa [List.take_left, List.drop_left]
  · rintro ⟨k, -, h⟩
    exact ⟨_, _, (List.take_append_drop k whole).symm, h⟩

instance decidableSplit {α : Type} {P : List α → List α → Prop} [∀ p q, Decidable (P p q)] (whole : List α) :
    Decidable (∃ p q, whole = p ++ q ∧ P p q) :=
  decidable_of_iff _ exists_split_iff.symm

instance decidableSplitTwice {α : Type} {P : List α → List α → List α → Prop} [∀ p q r, Decidable (P p q r)]
    (whole : List α) : Decidable (∃ p q r, whole = p ++ q ++ r ∧ P p q r) :=
  decidable_of_iff (∃ front r, whole = front ++ r ∧ ∃ p q, front = p ++ q ∧ P p q r)
    ⟨fun ⟨_, r, hwhole, p, q, hfront, h⟩ => ⟨p, q, r, hfront ▸ hwhole, h⟩,
      fun ⟨p, q, r, hwhole, h⟩ => ⟨_, r, hwhole, p, q, rfl, h⟩⟩

instance decidableEndsFirst (a gap : Text) : Decidable (EndsFirst a gap) :=
  decidable_of_iff (¬ ∃ p q, gap = p ++ q ∧ q ≠ [] ∧ a <+: q ++ a) (by rw [← not_endsFirst_iff, Classical.not_not])

end Occurrence

namespace Patch

open Occurrence (EndsFirst Gaps)

/-! ## Anchors that recur -/

/-- After the edit of some text the anchor stands where something is due again.

* In place of the anchor, the content and the text beside it make up the anchor. What is left of the text before the
  content had no anchor begin in it.
* After the anchor, the content holds the anchor or begins it. The anchor goes on with text that does not hold the content
  and maybe with the next anchor.
* Before the anchor, an anchor begins in the content, or in text that does not end with the content. -/
def Recurs (placement : Placement) (anchor content : Text) : Prop :=
  match placement with
  | .over => Occurrence.meets content anchor = true ∨
      ∃ p q, anchor = p ++ q ∧ p ≠ [] ∧ EndsFirst anchor p ∧ (q <+: content ∨ content <+: q)
  | .after => content ≠ [] ∧ (anchor <:+: content ∨
      ∃ p q r, anchor = p ++ q ++ r ∧ p ≠ [] ∧ p <:+ content ∧ ¬ content <:+: q ∧ r <+: anchor)
  | .before => content ≠ [] ∧ (¬ EndsFirst anchor content ∨
      ∃ p q, anchor = p ++ q ∧ EndsFirst anchor p ∧ ¬ content <:+ p ∧ q <+: content ++ anchor)

instance decidableRecurs (placement : Placement) (anchor content : Text) : Decidable (Recurs placement anchor content) :=
  match placement with
  | .over => inferInstanceAs (Decidable (Occurrence.meets content anchor = true ∨
      ∃ p q, anchor = p ++ q ∧ p ≠ [] ∧ EndsFirst anchor p ∧ (q <+: content ∨ content <+: q)))
  | .after => inferInstanceAs (Decidable (content ≠ [] ∧ (anchor <:+: content ∨
      ∃ p q r, anchor = p ++ q ++ r ∧ p ≠ [] ∧ p <:+ content ∧ ¬ content <:+: q ∧ r <+: anchor)))
  | .before => inferInstanceAs (Decidable (content ≠ [] ∧ (¬ EndsFirst anchor content ∨
      ∃ p q, anchor = p ++ q ∧ EndsFirst anchor p ∧ ¬ content <:+ p ∧ q <+: content ++ anchor)))

section
variable {a c t gap x y : Text} {gaps : List Text}

/-! ## Replacements -/

theorem edits_amend_over_eq_zero_iff (ha : a ≠ []) : (amend .over (.literal a) c t).edits = 0 ↔ ¬ a <:+: t := by
  obtain ⟨gaps, hgaps⟩ := Occurrence.exists_gaps ha t
  obtain ⟨gap, gaps, rfl⟩ := List.exists_cons_of_ne_nil hgaps.ne_nil
  have hcount := Occurrence.countOf_of_gaps ha hgaps
  rw [edits_amend_over ha hgaps, ← Occurrence.countOf_eq_zero_iff ha]
  rw [List.length_cons] at hcount
  omega

/-- Content between the parts makes up no anchor. -/
theorem not_infix_intercalate (ha : a ≠ []) (hac : ¬ a <:+: c) (hr : ¬ Recurs .over a c) {parts : List Text}
    (h : Gaps a t parts) : ¬ a <:+: c.intercalate parts := by
  obtain ⟨hmeets, hsplit⟩ := not_or.mp hr
  induction h with
  | last hfree => rwa [List.intercalate_singleton]
  | @next gap rest parts hfirst hrest ih =>
    rw [List.intercalate_cons_of_ne_nil hrest.ne_nil, List.append_assoc]
    rintro ⟨u, v, e⟩
    rcases Occurrence.split_append e with ⟨w, rfl, -⟩ | ⟨w, -, hw⟩ | ⟨p, q, hp, -, rfl, rfl, hw⟩
    · exact Occurrence.not_infix_of_endsFirst ha hfirst ⟨u, w, rfl⟩
    · -- behind the part: in the content, further on, or across its end
      rcases Occurrence.split_append hw.symm with ⟨z, rfl, -⟩ | ⟨z, -, hz⟩ | ⟨p, q, hp, -, rfl, rfl, -⟩
      · exact hac ⟨w, z, rfl⟩
      · exact ih ⟨z, v, hz.symm⟩
      · exact hmeets (Occurrence.meets_iff.mpr ⟨p, hp, List.suffix_append w p, List.prefix_append p q⟩)
    · exact hsplit ⟨p, q, rfl, hp, hfirst.right,
        List.prefix_or_prefix_of_prefix ⟨v, hw.symm⟩ (List.prefix_append c _)⟩

theorem edits_amend_amend_over (ha : a ≠ []) (hac : ¬ a <:+: c) (hr : ¬ Recurs .over a c) (t : Text) :
    (amend .over (.literal a) c (amend .over (.literal a) c t).text).edits = 0 := by
  obtain ⟨gaps, hgaps⟩ := Occurrence.exists_gaps ha t
  obtain ⟨gap, gaps, rfl⟩ := List.exists_cons_of_ne_nil hgaps.ne_nil
  rw [edits_amend_over_eq_zero_iff ha, text_amend_over ha hgaps]
  exact not_infix_intercalate ha hac hr hgaps

/-- One anchor is replaced. What follows it is too short to hold another. -/
theorem text_amend_over_once (ha : a ≠ []) (hx : EndsFirst a x) (hy : y.length < a.length) :
    (amend .over (.literal a) c (x ++ a ++ y)).text = x ++ c ++ y := by
  rw [text_amend_over ha (.next hx (.last (Occurrence.not_infix_of_length_lt hy))),
    List.intercalate_cons_of_ne_nil (List.cons_ne_nil y []), List.intercalate_singleton]

/-- An anchor that recurs stands in the result of some replacement. It stood there between two pieces of it. -/
theorem exists_infix_of_recurs_over (ha : a ≠ []) (hr : Recurs .over a c) :
    ∃ t, a <:+: (amend .over (.literal a) c t).text := by
  have hpos := List.length_pos_iff.mpr ha
  rcases hr with hmeets | ⟨p, q, rfl, hp, hfirst, ⟨d, rfl⟩ | ⟨d, rfl⟩⟩
  · obtain ⟨p, hp, ⟨s, rfl⟩, ⟨q, rfl⟩⟩ := Occurrence.meets_iff.mp hmeets
    have hpos := List.length_pos_iff.mpr hp
    refine ⟨[] ++ (p ++ q) ++ q, ?_⟩
    rw [text_amend_over_once ha (Occurrence.endsFirst_nil _) (by rw [List.length_append]; omega)]
    exact ⟨s, [], by simp⟩
  · refine ⟨p ++ (p ++ q) ++ [], ?_⟩
    rw [text_amend_over_once ha hfirst (show ([] : Text).length < _ from hpos)]
    exact ⟨[], d, by simp⟩
  · have hpos := List.length_pos_iff.mpr hp
    refine ⟨p ++ (p ++ (c ++ d)) ++ d, ?_⟩
    rw [text_amend_over_once ha hfirst (by simp only [List.length_append]; omega)]
    exact ⟨[], [], by simp⟩

/-! ## Content that follows -/

/-- An anchor in content and a text behind it lies in the text, as long as the anchor does not recur. What lies behind the
text is an anchor or nothing. -/
theorem exists_right_of_not_recurs (hr : ¬ Recurs .after a c) (hgap : ¬ c <:+: gap) {follows u v : Text}
    (hfollows : follows <+: a) (e : c ++ (gap ++ follows) = u ++ a ++ v) :
    ∃ w, gap ++ follows = w ++ a ++ v := by
  have hc : c ≠ [] := fun hc => hgap (hc ▸ List.nil_infix)
  obtain ⟨hin, hsplit⟩ := not_or.mp fun h => hr ⟨hc, h⟩
  rcases Occurrence.split_append e.symm with ⟨w, rfl, -⟩ | ⟨w, -, hw⟩ | ⟨p, d, hp, -, hpd, rfl, hd⟩
  · exact absurd ⟨u, w, rfl⟩ hin
  · exact ⟨w, hw⟩
  · exfalso
    rcases List.append_eq_append_iff.mp hd with ⟨r, rfl, hr'⟩ | ⟨w, rfl, -⟩
    · -- the text and the beginning of what follows it
      refine hsplit ⟨p, gap, r, by rw [hpd, List.append_assoc], hp, List.suffix_append u p, hgap, ?_⟩
      exact List.IsPrefix.trans ⟨v, hr'.symm⟩ hfollows
    · refine hsplit ⟨p, d, [], by simpa using hpd, hp, List.suffix_append u p, fun h => hgap ?_, List.nil_prefix⟩
      exact h.trans (List.prefix_append d w).isInfix

theorem not_infix_fill (hr : ¬ Recurs .after a c) (h : ¬ a <:+: gap) : ¬ a <:+: fill c gap := by
  by_cases hgap : c <:+: gap
  · rwa [fill_eq_self hgap]
  rw [fill_eq_append hgap]
  rintro ⟨u, v, e⟩
  obtain ⟨w, hw⟩ := exists_right_of_not_recurs hr hgap List.nil_prefix (u := u) (v := v) (by simpa using e.symm)
  exact h ⟨w, v, by simpa using hw.symm⟩

theorem endsFirst_fill (hr : ¬ Recurs .after a c) (h : EndsFirst a gap) : EndsFirst a (fill c gap) := by
  by_cases hgap : c <:+: gap
  · rwa [fill_eq_self hgap]
  rw [fill_eq_append hgap]
  intro u v e
  rw [List.append_assoc] at e
  obtain ⟨w, hw⟩ := exists_right_of_not_recurs hr hgap List.prefix_rfl e
  exact h w v hw

theorem gaps_map_fill (hr : ¬ Recurs .after a c) {parts : List Text} (h : Gaps a t parts) :
    Gaps a (a.intercalate (parts.map (fill c))) (parts.map (fill c)) := by
  induction h with
  | @last gap hfree =>
    rw [List.map_singleton, List.intercalate_singleton]
    exact .last (not_infix_fill hr hfree)
  | @next gap rest parts hfirst hrest ih =>
    have hne : parts.map (fill c) ≠ [] := by simpa using hrest.ne_nil
    rw [List.map_cons, List.intercalate_cons_of_ne_nil hne]
    exact .next (endsFirst_fill hr hfirst) ih

/-- **The parts of the result are the parts that were filled**, as long as the anchor does not recur. -/
theorem gaps_fill (hr : ¬ Recurs .after a c) (h : Gaps a t (gap :: gaps)) :
    Gaps a (a.intercalate (gap :: gaps.map (fill c))) (gap :: gaps.map (fill c)) := by
  cases h with
  | last hfree =>
    rw [List.map_nil, List.intercalate_singleton]
    exact .last hfree
  | next hfirst hrest =>
    have hne : gaps.map (fill c) ≠ [] := by simpa using hrest.ne_nil
    rw [List.intercalate_cons_of_ne_nil hne]
    exact .next hfirst (gaps_map_fill hr hrest)

theorem edits_amend_amend_after (ha : a ≠ []) (hr : ¬ Recurs .after a c) (t : Text) :
    (amend .after (.literal a) c (amend .after (.literal a) c t).text).edits = 0 := by
  obtain ⟨gaps, hgaps⟩ := Occurrence.exists_gaps ha t
  obtain ⟨gap, gaps, rfl⟩ := List.exists_cons_of_ne_nil hgaps.ne_nil
  rw [text_amend_after ha hgaps]
  exact edits_amend_after_eq_zero ha (gaps_fill hr hgaps) (List.forall_mem_map.mpr fun gap _ => infix_fill c gap)

/-- Something is due at an anchor that is followed by another one too soon. -/
theorem edits_amend_after_ne_zero (ha : a ≠ []) (hx : x.length < c.length) :
    (amend .after (.literal a) c (a ++ (x ++ a ++ y))).edits ≠ 0 := by
  obtain ⟨gap, rest, hplace, hfirst⟩ := Occurrence.exists_endsFirst (List.infix_append x a y)
  have hle := hfirst.length_le hplace.symm
  obtain ⟨gaps, hgaps⟩ := Occurrence.exists_gaps ha rest
  rw [hplace, show a ++ (gap ++ a ++ rest) = [] ++ a ++ (gap ++ a ++ rest) from rfl,
    edits_amend_after ha (.next (Occurrence.endsFirst_nil a) (.next hfirst hgaps))]
  refine Nat.pos_iff_ne_zero.mp (List.countP_pos_iff.mpr ⟨gap, List.mem_cons_self, ?_⟩)
  rw [Occurrence.occursIn_eq_false_iff.mpr (Occurrence.not_infix_of_length_lt (by omega))]
  rfl

theorem text_amend_after_once (ha : a ≠ []) : (amend .after (.literal a) c ([] ++ a ++ [])).text = a ++ c := by
  have hlast : Gaps a [] [[]] := .last (Occurrence.not_infix_of_length_lt (List.length_pos_iff.mpr ha))
  rw [text_amend_after ha (.next (Occurrence.endsFirst_nil a) hlast), Occurrence.intercalate_eq_flatten]
  simp

theorem text_amend_after_twice (ha : a ≠ []) (hgap : EndsFirst a gap) (hc : ¬ c <:+: gap) :
    (amend .after (.literal a) c ([] ++ a ++ (gap ++ a ++ []))).text = a ++ (c ++ gap ++ a ++ c) := by
  have hlast : Gaps a [] [[]] := .last (Occurrence.not_infix_of_length_lt (List.length_pos_iff.mpr ha))
  rw [text_amend_after ha (.next (Occurrence.endsFirst_nil a) (.next hgap hlast)), List.map_cons, fill_eq_append hc,
    Occurrence.intercalate_eq_flatten]
  simp

theorem exists_edits_of_recurs_after (ha : a ≠ []) (hr : Recurs .after a c) :
    ∃ t, (amend .after (.literal a) c (amend .after (.literal a) c t).text).edits ≠ 0 := by
  have hpos := List.length_pos_iff.mpr ha
  obtain ⟨-, ⟨x, y, rfl⟩ | ⟨p, q, r, hpqr, hp, ⟨x, rfl⟩, hq, hr⟩⟩ := hr
  · -- content behind the anchor alone
    refine ⟨[] ++ a ++ [], ?_⟩
    rw [text_amend_after_once ha]
    exact edits_amend_after_ne_zero ha (by simp only [List.length_append]; omega)
  · -- content between two anchors, whose distance is a piece of the anchor
    have hpos := List.length_pos_iff.mpr hp
    obtain ⟨gap, rest, hplace, hfirst⟩ := Occurrence.exists_endsFirst (List.suffix_append q a).isInfix
    have hle : gap.length ≤ q.length := hfirst.length_le (x := q) (y := []) (by rw [← hplace, List.append_nil])
    have hwithin : gap <+: q :=
      List.prefix_of_prefix_length_le ⟨a ++ rest, by rw [hplace, List.append_assoc]⟩ (List.prefix_append q a) hle
    obtain ⟨d, hd⟩ : q ++ r <+: gap ++ a := by
      refine List.prefix_of_prefix_length_le ((List.prefix_append_right_inj q).mpr hr) ⟨rest, hplace.symm⟩ ?_
      simp only [hpqr, List.length_append]
      omega
    -- the anchor is made of the end of the content, the gap and the next anchor
    have hseam : x ++ p ++ gap ++ a ++ (x ++ p) = x ++ a ++ (d ++ (x ++ p)) := by
      rw [List.append_assoc (x ++ p), ← hd, hpqr]
      simp
    refine ⟨[] ++ a ++ (gap ++ a ++ []), ?_⟩
    rw [text_amend_after_twice ha hfirst fun h => hq (h.trans hwithin.isInfix), hseam]
    exact edits_amend_after_ne_zero ha (by rw [List.length_append]; omega)

/-! ## Content that comes before -/

/-- No anchor begins in content that was put behind a text. -/
theorem endsFirst_append (ha : a ≠ []) (hc : c ≠ []) (hr : ¬ Recurs .before a c) (h : EndsFirst a gap)
    (hgap : ¬ c <:+ gap) : EndsFirst a (gap ++ c) := by
  obtain ⟨hcontent, hsplit⟩ := not_or.mp fun h => hr ⟨hc, h⟩
  intro u v e
  rw [List.append_assoc] at e
  rcases Occurrence.split_append e.symm with ⟨w, hw, -⟩ | ⟨w, -, hw⟩ | ⟨p, q, hp, -, rfl, rfl, hq⟩
  · exact absurd ⟨u, w, hw.symm⟩ (Occurrence.not_infix_of_endsFirst ha h)
  · exact Classical.not_not.mp hcontent w v hw
  · exact absurd ⟨p, q, rfl, h.right, fun hcp => hgap (hcp.trans (List.suffix_append u p)), v, hq.symm⟩ hsplit

theorem gaps_lead (ha : a ≠ []) (hr : ¬ Recurs .before a c) {parts : List Text} (h : Gaps a t parts) (behind : Text) :
    Gaps a (a.intercalate (lead a c behind parts)) (lead a c behind parts) := by
  induction h generalizing behind with
  | last hfree =>
    rw [lead, List.intercalate_singleton]
    exact .last hfree
  | @next gap rest parts hfirst hrest ih =>
    obtain ⟨next, parts, rfl⟩ := List.exists_cons_of_ne_nil hrest.ne_nil
    by_cases hgap : c <:+ behind ++ gap
    · rw [lead_of_suffix hgap, List.intercalate_cons_of_ne_nil (lead_ne_nil a c _ next parts)]
      exact .next hfirst (ih _)
    · rw [lead_of_not_suffix hgap, List.intercalate_cons_of_ne_nil (lead_ne_nil a c _ next parts)]
      refine .next (endsFirst_append ha (fun hc => hgap (hc ▸ List.nil_suffix)) hr hfirst fun h => hgap ?_) (ih _)
      exact h.trans (List.suffix_append behind gap)

/-- **Nothing is due where content was put before the anchors.** A text that ended with the content still does. -/
theorem not_mem_dueBefore_lead (hin : ¬ a <:+: c) (gap : Text) (gaps : List Text) (behind behind' : Text)
    (hkeep : ∀ x, c <:+ behind ++ x → c <:+ behind' ++ x) {gap' : Text} {gaps' : List Text}
    (h : lead a c behind (gap :: gaps) = gap' :: gaps') :
    true ∉ dueBefore c (behind' ++ gap').reverse (gaps'.map (Segment.mk a)) := by
  induction gaps generalizing gap behind behind' gap' gaps' with
  | nil =>
    obtain ⟨-, rfl⟩ := List.cons.inj h
    exact List.not_mem_nil
  | cons next gaps ih =>
    obtain ⟨next', rest, hnext⟩ := List.exists_cons_of_ne_nil (lead_ne_nil a c (behind ++ gap ++ a) next gaps)
    have hends : gaps' = next' :: rest ∧ c <:+ behind' ++ gap' ∧
        ∀ x, c <:+ behind ++ gap ++ a ++ x → c <:+ behind' ++ gap' ++ a ++ x := by
      by_cases hgap : c <:+ behind ++ gap
      · rw [lead_of_suffix hgap, hnext] at h
        obtain ⟨rfl, rfl⟩ := List.cons.inj h
        refine ⟨rfl, hkeep gap hgap, fun x hx => ?_⟩
        simpa using hkeep (gap ++ a ++ x) (by simpa using hx)
      · rw [lead_of_not_suffix hgap, hnext] at h
        obtain ⟨rfl, rfl⟩ := List.cons.inj h
        rw [← List.append_assoc]
        refine ⟨rfl, List.suffix_append _ c, fun x hx => ?_⟩
        rw [List.append_assoc] at hx ⊢
        -- the content holds no anchor, so it does not reach back behind one
        rcases List.suffix_or_suffix_of_suffix hx (List.suffix_append _ (a ++ x)) with h | h
        · exact h.trans (List.suffix_append _ _)
        · exact absurd ((List.prefix_append a x).isInfix.trans h.isInfix) hin
    obtain ⟨rfl, hhere, hfurther⟩ := hends
    rw [List.map_cons, dueBefore_reverse_cons, List.mem_cons, not_or, Occurrence.endsWith,
      List.isSuffixOf_iff_suffix.mpr hhere, ← List.append_assoc]
    exact ⟨by decide, ih next (behind ++ gap ++ a) (behind' ++ gap' ++ a) hfurther hnext⟩

theorem edits_amend_amend_before (ha : a ≠ []) (hr : ¬ Recurs .before a c) (t : Text) :
    (amend .before (.literal a) c (amend .before (.literal a) c t).text).edits = 0 := by
  have hin : ¬ a <:+: c := by
    by_cases hc : c = []
    · rwa [hc, List.infix_nil]
    · exact Occurrence.not_infix_of_endsFirst ha (Classical.not_not.mp (not_or.mp fun h => hr ⟨hc, h⟩).1)
  obtain ⟨gaps, hgaps⟩ := Occurrence.exists_gaps ha t
  obtain ⟨gap, gaps, rfl⟩ := List.exists_cons_of_ne_nil hgaps.ne_nil
  obtain ⟨gap', gaps', h⟩ := List.exists_cons_of_ne_nil (lead_ne_nil a c [] gap gaps)
  have hlead := gaps_lead ha hr hgaps []
  rw [h] at hlead
  rw [text_amend_before ha hgaps, h, edits_amend_before ha hlead, List.count_eq_zero]
  exact not_mem_dueBefore_lead hin gap gaps [] [] (fun _ => id) h

/-- Something is due at an anchor that comes too soon. -/
theorem edits_amend_before_ne_zero (ha : a ≠ []) (hx : x.length < c.length) :
    (amend .before (.literal a) c (x ++ a ++ y)).edits ≠ 0 := by
  obtain ⟨gap, rest, hplace, hfirst⟩ := Occurrence.exists_endsFirst (List.infix_append x a y)
  have hle := hfirst.length_le hplace.symm
  obtain ⟨gaps, hgaps⟩ := Occurrence.exists_gaps ha rest
  obtain ⟨next, gaps, rfl⟩ := List.exists_cons_of_ne_nil hgaps.ne_nil
  have hends : Occurrence.endsWith gap c = false :=
    Bool.eq_false_iff.mpr fun h => absurd (List.isSuffixOf_iff_suffix.mp h).length_le (by omega)
  rw [hplace, edits_amend_before ha (.next hfirst hgaps), List.map_cons, dueBefore_reverse_cons, hends]
  exact Nat.pos_iff_ne_zero.mp (List.count_pos_iff.mpr List.mem_cons_self)

theorem text_amend_before_once (ha : a ≠ []) (hx : EndsFirst a x) (hc : ¬ c <:+ x) :
    (amend .before (.literal a) c (x ++ a ++ [])).text = x ++ c ++ a := by
  have hlast : Gaps a [] [[]] := .last (Occurrence.not_infix_of_length_lt (List.length_pos_iff.mpr ha))
  rw [text_amend_before ha (.next hx hlast), lead_of_not_suffix hc, lead,
    List.intercalate_cons_of_ne_nil (List.cons_ne_nil _ []), List.intercalate_singleton, List.append_nil]

theorem exists_edits_of_recurs_before (ha : a ≠ []) (hr : Recurs .before a c) :
    ∃ t, (amend .before (.literal a) c (amend .before (.literal a) c t).text).edits ≠ 0 := by
  obtain ⟨hc, hcontent | ⟨p, q, rfl, hp, hcp, d, hd⟩⟩ := hr
  · -- content before the anchor alone
    obtain ⟨p, q, rfl, hq, d, hd⟩ := Occurrence.not_endsFirst_iff.mp hcontent
    have hpos := List.length_pos_iff.mpr hq
    refine ⟨[] ++ a ++ [], ?_⟩
    rw [text_amend_before_once ha (Occurrence.endsFirst_nil a) (hc ∘ List.suffix_nil.mp), List.nil_append,
      List.append_assoc, ← hd, ← List.append_assoc]
    exact edits_amend_before_ne_zero ha (by rw [List.length_append]; omega)
  · -- content behind a piece of the anchor
    have hseam : p ++ c ++ (p ++ q) = [] ++ (p ++ q) ++ d := by
      rw [List.append_assoc, ← hd]
      simp
    refine ⟨p ++ (p ++ q) ++ [], ?_⟩
    rw [text_amend_before_once ha hp hcp, hseam]
    exact edits_amend_before_ne_zero ha (List.length_pos_iff.mpr hc)

/-! ## Edits that are done -/

/-- **An edit at a literal anchor has nothing left to do in its own result, whatever the text was, exactly if the anchor
does not recur.** -/
theorem edits_amend_amend_iff {placement : Placement} (ha : a ≠ []) (hac : placement = .over → ¬ a <:+: c) :
    (∀ t, (amend placement (.literal a) c (amend placement (.literal a) c t).text).edits = 0) ↔
      ¬ Recurs placement a c := by
  constructor
  · intro h hr
    cases placement with
    | «over» =>
      obtain ⟨t, ht⟩ := exists_infix_of_recurs_over ha hr
      exact (edits_amend_over_eq_zero_iff ha).mp (h t) ht
    | after =>
      obtain ⟨t, ht⟩ := exists_edits_of_recurs_after ha hr
      exact ht (h t)
    | before =>
      obtain ⟨t, ht⟩ := exists_edits_of_recurs_before ha hr
      exact ht (h t)
  · intro hr t
    cases placement with
    | «over» => exact edits_amend_amend_over ha (hac rfl) hr t
    | after => exact edits_amend_amend_after ha hr t
    | before => exact edits_amend_amend_before ha hr t

example : Recurs .after "a" "xax" := by decide
example : Recurs .before "aa" "a" := by decide

/-- **An anchor that lies apart from the content does not recur.** -/
theorem not_recurs_of_apart (ha : a ≠ []) (hac : Occurrence.apart a c = true) (placement : Placement) :
    ¬ Recurs placement a c := by
  obtain ⟨hin, haround, hinto, hfrom⟩ := Occurrence.apart_iff.mp hac
  -- a first place of the anchor is no whole anchor, so something of it is left
  have hleft : ∀ p q, a = p ++ q → EndsFirst a p → q ≠ [] := by
    rintro p q e hp rfl
    rw [List.append_nil] at e
    exact Occurrence.not_infix_of_endsFirst ha hp (e ▸ List.infix_rfl)
  cases placement with
  | «over» =>
    rintro (hmeets | ⟨p, q, rfl, -, hp, hq | hq⟩)
    · exact absurd hmeets (Bool.eq_false_iff.mp hfrom)
    · exact Occurrence.not_meets hinto (hleft p q rfl hp) (List.suffix_append p q) hq
    · exact haround (hq.isInfix.trans (List.suffix_append p q).isInfix)
  | after =>
    rintro ⟨-, h | ⟨p, q, r, rfl, hp, hpc, -, -⟩⟩
    · exact hin h
    · exact Occurrence.not_meets hfrom hp hpc ⟨q ++ r, (List.append_assoc p q r).symm⟩
  | before =>
    rintro ⟨-, h | ⟨p, q, rfl, hp, -, hq⟩⟩
    · obtain ⟨p, q, rfl, hq, d, hd⟩ := Occurrence.not_endsFirst_iff.mp h
      rcases List.prefix_or_prefix_of_prefix ⟨d, hd⟩ (List.prefix_append q a) with h | h
      · exact hin (h.isInfix.trans (List.suffix_append p q).isInfix)
      · exact Occurrence.not_meets hfrom hq (List.suffix_append p q) h
    · rcases List.prefix_or_prefix_of_prefix hq (List.prefix_append c (p ++ q)) with h | h
      · exact Occurrence.not_meets hinto (hleft p q rfl hp) (List.suffix_append p q) h
      · exact haround (h.isInfix.trans (List.suffix_append p q).isInfix)

end

end Patch

/-! ## Rules that are done -/

section
variable {r : Rule} {placement : Placement} {a : Text}

theorem Rule.patchText_of_amend {anchor : Anchor} (haction : r.action = .amend placement anchor) (t : Text) :
    r.patchText t = .ok (Patch.amend placement anchor r.content t) := by
  rw [patchText, haction]

/-- What is checked of every rule. -/
theorem Rule.anchor_ne_nil (haction : r.action = .amend placement (.literal a)) : a ≠ [] := by
  have haccepted := r.accepted
  rintro rfl
  cases placement <;> simp [haction, Action.accepts, Anchor.isVoid] at haccepted

/-- What is checked of a replacement. -/
theorem Rule.not_infix_content (haction : r.action = .amend .over (.literal a)) : ¬ a <:+: r.content := by
  have haccepted := r.accepted
  have hfinds := Anchor.finds_literal (anchor_ne_nil haction)
  simp only [haction, Action.accepts, Bool.and_eq_true, Bool.not_eq_true'] at haccepted
  rw [← hfinds.occursIn_iff_contains, haccepted.2]
  exact Bool.false_ne_true

/-- **A rule with a literal anchor leaves its own result as it is, whatever the text was, exactly if the anchor does not
recur.** What is checked of a rule does not make sure of that. -/
theorem Rule.patchText_again_iff (haction : r.action = .amend placement (.literal a)) :
    (∀ t, ∃ p status, r.patchText t = .ok p ∧ r.patchText p.text = .ok ⟨p.text, status, 0⟩) ↔
      ¬ Patch.Recurs placement a r.content := by
  have hiff : (∀ t, (Patch.amend placement (.literal a) r.content
      (Patch.amend placement (.literal a) r.content t).text).edits = 0) ↔ ¬ Patch.Recurs placement a r.content :=
    Patch.edits_amend_amend_iff (anchor_ne_nil haction) fun hover => not_infix_content (hover ▸ haction)
  rw [← hiff]
  refine forall_congr' fun t => ?_
  simp only [patchText_of_amend haction]
  constructor
  · rintro ⟨p, status, hfirst, hagain⟩
    cases hfirst
    rw [Except.ok.inj hagain]
  · intro hzero
    exact ⟨_, _, rfl, congrArg Except.ok (Patch.amend_of_edits_eq_zero hzero)⟩

end

/-- One blank line in place of two. -/
def blankLinesRule : Rule := ⟨"blank lines", 50, "*.js", "\n", .amend .over (.literal "\n\n"), by decide⟩

/-- A base class in the header of a class. -/
def extendsRule : Rule :=
  ⟨"extends", 50, "*.js", "class A extends B \x7b", .amend .over (.literal "class A \x7b"), by decide⟩

theorem patchText_again_iff_extends :
    extendsRule.content = "class A extends B \x7b" ∧
      ∀ t, ∃ p status, extendsRule.patchText t = .ok p ∧ extendsRule.patchText p.text = .ok ⟨p.text, status, 0⟩ :=
  ⟨rfl, (Rule.patchText_again_iff rfl).mpr (by decide)⟩

/-- Line ends that were apart come together, and a second application finds them. -/
theorem patchText_blankLines_again :
    blankLinesRule.patchText "a\n\n\nb" = .ok ⟨"a\n\nb", .applied, 1⟩ ∧
      blankLinesRule.patchText "a\n\nb" = .ok ⟨"a\nb", .applied, 1⟩ ∧
      ¬ ∃ p status, blankLinesRule.patchText "a\n\n\nb" = .ok p ∧
        blankLinesRule.patchText p.text = .ok ⟨p.text, status, 0⟩ := by
  have hfirst : blankLinesRule.patchText "a\n\n\nb" = .ok ⟨"a\n\nb", .applied, 1⟩ :=
    (Rule.patchText_of_amend rfl _).trans (congrArg Except.ok (by decide))
  have hagain : blankLinesRule.patchText "a\n\nb" = .ok ⟨"a\nb", .applied, 1⟩ :=
    (Rule.patchText_of_amend rfl _).trans (congrArg Except.ok (by decide))
  refine ⟨hfirst, hagain, ?_⟩
  rintro ⟨p, status, h, hstays⟩
  rw [hfirst] at h
  cases h
  rw [hagain] at hstays
  cases hstays

end FlowTypes
