import FlowTypes.Proofs.Patch.Parts
import FlowTypes.Text.LineEnd

/-!
# Words that an edit keeps

An edit keeps a word of a text if it touches no place inside of it. Whether a place next to the needle can lie inside
of the word is seen from the two alone (`Occurrence.cutAfter`, `Occurrence.cutBefore`). A replacement may share its
beginning and its end with the needle, and then only the part between them matters, which has to lie apart from the
word.

`Patch.Plan.Keeps` says this of an edit and a word, and **then the word is still there after the edit, wherever it
stands** (`Patch.infix_amend_of_keeps`). It also outlasts the reading of the text with other line ends
(`Text.infix_unifyLineEnds`).

The other way round, an edit that finds its anchor brings its content in, or it was there (`Patch.content_infix_amend`).
-/

namespace FlowTypes

/-! ## Line ends -/

namespace Text

theorem unifyLineEnds_append {s t : Text} (h : '\r' ∉ s) : unifyLineEnds (s ++ t) = s ++ unifyLineEnds t := by
  induction s with
  | nil => rfl
  | cons c s ih =>
    rw [List.mem_cons, not_or] at h
    rw [List.cons_append, unifyLineEnds.eq_3 c _ (fun _ e => absurd e.symm h.1), ih h.2, if_neg (Ne.symm h.1),
      List.cons_append]

/-- **A word without carriage returns is read as it stands**, whatever line ends there are around it. -/
theorem infix_unifyLineEnds {w t : Text} (hw : '\r' ∉ w) (h : w <:+: t) : w <:+: unifyLineEnds t := by
  obtain ⟨u, v, ht⟩ := h
  rw [List.append_assoc] at ht
  have hhere : ∀ {w v : Text}, '\r' ∉ w → w <+: unifyLineEnds (w ++ v) := fun hw => by
    rw [unifyLineEnds_append hw]
    exact List.prefix_append _ _
  fun_induction unifyLineEnds t generalizing u with
  | case1 =>
    have hnil : w = [] := (List.append_eq_nil_iff.mp (List.append_eq_nil_iff.mp ht).2).1
    exact hnil ▸ List.nil_infix
  | case2 rest ih =>
    cases w with
    | nil => exact List.nil_infix
    | cons first w =>
      rw [List.mem_cons, not_or] at hw
      rcases u with _ | ⟨c, _ | ⟨d, u⟩⟩
      · exact absurd (List.cons.inj ht).1.symm hw.1
      · -- the word begins with the line feed that stays
        obtain ⟨-, ht⟩ := List.cons.inj ht
        obtain ⟨rfl, rfl⟩ := List.cons.inj ht
        exact (List.cons_prefix_cons.mpr ⟨rfl, hhere hw.2⟩).isInfix
      · obtain ⟨-, ht⟩ := List.cons.inj ht
        obtain ⟨-, ht⟩ := List.cons.inj ht
        exact List.infix_cons (ih u ht)
  | case3 c rest hreturn ih =>
    rcases u with _ | ⟨d, u⟩
    · have hprefix := @hhere w v hw
      rw [show w ++ v = c :: rest from ht, unifyLineEnds.eq_3 c rest hreturn] at hprefix
      exact hprefix.isInfix
    · exact List.infix_cons (ih u (List.cons.inj ht).2)

end Text

namespace Patch

section
variable {p : Plan} {anchor : Anchor} {w t : Text}

/-! ## Words that stay -/

/-- The edit touches no place inside of the word. -/
inductive Plan.Keeps (w : Text) : Plan → Prop
  | over {needle : Needle} {front old new back : Text} (hneedle : needle.text = front ++ old ++ back)
      (hapart : Occurrence.apart w old = true) : Keeps w ⟨.over, needle, front ++ new ++ back⟩
  | after {needle : Needle} {content : Text} (hcut : Occurrence.cutAfter needle.text w = false) :
      Keeps w ⟨.after, needle, content⟩
  | before {needle : Needle} {content : Text} (hcut : Occurrence.cutBefore needle.text w = false) :
      Keeps w ⟨.before, needle, content⟩
  | empty {p : Plan} (hempty : w = []) : Keeps w p

/-- A word that is not cut by an insertion stands beside it. -/
theorem infix_insert {x y : Text} (content : Text) (h : w <:+: x ++ y)
    (hcut : ∀ b d u v, b ≠ [] → d ≠ [] → w = b ++ d → x = u ++ b → y = d ++ v → False) : w <:+: x ++ content ++ y := by
  obtain ⟨u, v, h⟩ := h
  rcases Occurrence.split_append h with ⟨z, rfl, -⟩ | ⟨z, -, rfl⟩ | ⟨b, d, hb, hd, hw, hx, hy⟩
  · exact ⟨u, z ++ content ++ y, by simp⟩
  · exact ⟨x ++ content ++ z, v, by simp⟩
  · exact (hcut b d u v hb hd hw hx hy).elim

/-- **A word that an edit keeps is still there after the edit.** -/
theorem infix_amend_of_keeps (hf : anchor.Finds p.needle) (h : p.Keeps w) (hin : w <:+: t) :
    w <:+: (p.amend anchor t).text := by
  refine amend_induction hf (Q := (w <:+: ·)) (fun x y hin => ?_) hin
  cases h with
  | @«over» needle front old new back hneedle hapart =>
    show w <:+: x ++ (front ++ new ++ back) ++ y
    rw [show x ++ needle.text ++ y = (x ++ front) ++ old ++ (back ++ y) by simp [hneedle]] at hin
    obtain ⟨u, v, hin⟩ := hin
    rcases Occurrence.split_of_apart hapart hin with ⟨z, hz, -⟩ | ⟨z, -, hz⟩
    · exact ⟨u, z ++ new ++ back ++ y, by simp [← List.append_assoc, ← hz]⟩
    · exact ⟨x ++ front ++ new ++ z, v, by simp [hz]⟩
  | @after needle content hcut =>
    show w <:+: x ++ (needle.text ++ content) ++ y
    rw [← List.append_assoc x]
    refine infix_insert content hin fun b d u v hb hd hw hx hy => ?_
    exact hb (Occurrence.eq_nil_of_cutAfter hcut hw hd (List.suffix_append x _) ⟨u, hx.symm⟩)
  | @before needle content hcut =>
    show w <:+: x ++ (content ++ needle.text) ++ y
    rw [List.append_assoc] at hin
    rw [← List.append_assoc x, List.append_assoc (x ++ content)]
    refine infix_insert content hin fun b d u v hb hd hw hx hy => ?_
    exact hd (Occurrence.eq_nil_of_cutBefore hcut hw hb (List.prefix_append _ y) ⟨v, hy.symm⟩)
  | empty hempty =>
    exact hempty ▸ List.nil_infix

end

/-! ## Content that comes in -/

section
variable {placement : Placement} {anchor : Anchor} {content t : Text}

/-- An edit that finds its anchor is applied, or has been applied before. -/
theorem status_amend_of_occursIn (h : anchor.occursIn t = true) :
    (amend placement anchor content t).status = .applied ∨
      (amend placement anchor content t).status = .alreadyApplied := by
  rcases Nat.eq_zero_or_pos (amend placement anchor content t).edits with hzero | hpos
  · exact .inr (by rw [status_amend_of_edits_eq_zero hzero, h, if_pos rfl])
  · exact .inl ((edits_amend_pos_iff ..).mp hpos)

/-- **An edit that finds its anchor brings its content in**, unless it goes before it or is there already. -/
theorem content_infix_amend (hplacement : placement ≠ .before) (h : anchor.occursIn t = true) :
    content <:+: (amend placement anchor content t).text := by
  have hsegments : (anchor.cuts t).segments ≠ [] := by
    unfold Anchor.occursIn at h
    simpa using h
  obtain ⟨s, rest, hcons⟩ := List.exists_cons_of_ne_nil hsegments
  have hwritten : ∀ front first more : Text, content <:+: first → content <:+: front ++ (first ++ more) :=
    fun front first more hfirst => (hfirst.trans (List.prefix_append first more).isInfix).trans
      (List.suffix_append front _).isInfix
  rw [text_amend, assemble, due.eq_def, hcons]
  cases placement with
  | before => exact absurd rfl hplacement
  | «over» => exact hwritten _ _ _ (List.prefix_append content s.after).isInfix
  | after =>
    refine hwritten _ _ _ ?_
    dsimp only [written]
    split
    · exact List.infix_append s.found content s.after
    · rename_i hoccurs
      rw [Bool.not_eq_true', Bool.not_eq_false] at hoccurs
      exact (Occurrence.occursIn_iff_infix.mp hoccurs).trans (List.suffix_append _ _).isInfix

end

end Patch

end FlowTypes
