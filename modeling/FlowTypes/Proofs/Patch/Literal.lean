import FlowTypes.Proofs.Patch.Recurrence
import FlowTypes.Proofs.Pattern.Escape

/-!
# Literal anchors and escaped patterns

An anchor can be a text taken literally, or the escaped text read as a pattern. Both find the same, whatever characters
the text has (`Anchor.finds_escape`), and an edit knows of its anchor only what it finds (`Patch.amend_congr`). So **two
rules that differ only in this way do the same to every text**.

With either, a replacement is the plain one (`Patch.amend_over_literal`): the leftmost occurrences that do not overlap
become the content, and there are as many edits as there are such occurrences. This holds also of a text that overlaps
itself.
-/

namespace FlowTypes

/-! ## What an escaped text finds -/

/-- **An escaped text finds what the text finds.** -/
theorem Anchor.finds_escape {a : Text} (ha : a ≠ []) (source : Text) :
    (Anchor.pattern source (Pattern.sequence (a.map .char))).Finds ⟨a, false⟩ := by
  refine ⟨ha, fun bound moving p => ?_⟩
  obtain ⟨c, rest, rfl⟩ := List.exists_cons_of_ne_nil ha
  rw [Needle.admits_of_not_wordStart rfl, Bool.and_true]
  exact Regex.matchLength?_of_letters? (Pattern.letters?_sequence (c :: rest)) bound moving p

/-- An escaped text is a pattern. -/
theorem Anchor.ofPattern?_escape (a : Text) :
    Anchor.ofPattern? (Pattern.escape a) =
      some (.pattern (Pattern.escape a) (Pattern.sequence (a.map .char))) := by
  rw [ofPattern?, Pattern.read?_escape]
  rfl

/-- Anchors that find the same cut a text in the same way. -/
theorem Anchor.Finds.cuts_congr {a b : Anchor} {n : Needle} (ha : a.Finds n) (hb : b.Finds n) (t : Text) :
    a.cuts t = b.cuts t := by
  have hprobe : a.probe t.length = b.probe t.length := by
    funext moving p
    rw [ha.probe_eq, hb.probe_eq]
  rw [cuts, hprobe]
  rfl

namespace Patch

variable {a c t : Text}

/-- An edit knows of its anchor only where it cuts the text. -/
theorem amend_congr {x y : Anchor} (h : x.cuts t = y.cuts t) (placement : Placement) (content : Text) :
    amend placement x content t = amend placement y content t := by
  rw [amend, amend, h]

/-- **A replacement at a literal anchor is the plain one.** -/
theorem amend_over_literal (ha : a ≠ []) (h : a <:+: t) :
    amend .over (.literal a) c t = ⟨Occurrence.replaceAll a c t, .applied, Occurrence.countOf a t⟩ := by
  obtain ⟨gaps, hgaps⟩ := Occurrence.exists_gaps ha t
  obtain ⟨gap, gaps, rfl⟩ := List.exists_cons_of_ne_nil hgaps.ne_nil
  have htext : (amend .over (.literal a) c t).text = Occurrence.replaceAll a c t := by
    rw [text_amend_over ha hgaps, Occurrence.replaceAll_of_gaps ha c hgaps]
  have hedits : (amend .over (.literal a) c t).edits = Occurrence.countOf a t := by
    have hcount := Occurrence.countOf_of_gaps ha hgaps
    rw [List.length_cons] at hcount
    rw [edits_amend_over ha hgaps]
    omega
  have hsome : Occurrence.countOf a t ≠ 0 := fun hzero => (Occurrence.countOf_eq_zero_iff ha).mp hzero h
  have hstatus : (amend .over (.literal a) c t).status = .applied :=
    (edits_amend_pos_iff .over (.literal a) c t).mp (by omega)
  rw [← htext, ← hedits, ← hstatus]

end Patch

/-! ## The rules -/

/-- A draft with an anchor that makes sense is accepted, and what the rule has is what the draft has. -/
theorem Draft.check_of_accepts {d : Draft} {placement : Placement} {anchor : Anchor}
    (hedit : d.edit = (Action.amend placement anchor).edit.text) (hanchor : d.anchor = some anchor)
    (haccepts : (Action.amend placement anchor).accepts d.target d.content = true) :
    d.check = .ok ⟨d.name, d.phase, d.target, d.content, .amend placement anchor, haccepts⟩ := by
  have hvoid : anchor.isVoid = false := by
    cases placement <;> simp_all [Action.accepts]
  have hanchored : ∀ edit, d.anchored edit placement =
      .ok ⟨d.name, d.phase, d.target, d.content, .amend placement anchor, haccepts⟩ := by
    intro edit
    rw [anchored, hanchor]
    simp [hvoid, withAction, haccepts]
  rw [check, hedit, Edit.ofText?_text]
  cases placement <;> exact hanchored _

/-- An anchor that finds a text makes sense with every content that does not hold the text. -/
theorem Action.accepts_of_finds {anchor : Anchor} {a c : Text} (hf : anchor.Finds ⟨a, false⟩)
    (hvoid : anchor.isVoid = false) (hac : ¬ a <:+: c) (placement : Placement) (target : Text) :
    (Action.amend placement anchor).accepts target c = true := by
  have hout : anchor.occursIn c = false := by
    rw [Bool.eq_false_iff, ne_eq, hf.occursIn_iff_contains]
    exact hac
  cases placement <;> simp [accepts, hvoid, hout]

/-- Every edit but writing a file has its placement. -/
theorem Edit.exists_placement {edit : Edit} (h : edit ≠ .create) :
    ∃ placement, ∀ anchor, (Action.amend placement anchor).edit = edit := by
  cases edit with
  | create => exact absurd rfl h
  | insertAfter => exact ⟨.after, fun _ => rfl⟩
  | insertBefore => exact ⟨.before, fun _ => rfl⟩
  | replace => exact ⟨.over, fun _ => rfl⟩

/-- **Literal anchors.** A replacement makes of a text what replacing the occurrences makes of it, and counts them. With
the escaped text as a pattern in place of the literal text, every rule does the same to every text. -/
theorem Draft.check_literal_escape {a c : Text} (ha : a ≠ []) (hac : ¬ a <:+: c) (name : Text) (phase : Int)
    (target : Text) :
    (∃ r, check ⟨name, phase, target, Edit.replace.text, c, some (.literal a)⟩ = .ok r ∧
      ∀ t, a <:+: t → r.patchText t = .ok ⟨Occurrence.replaceAll a c t, .applied, Occurrence.countOf a t⟩) ∧
    ∃ escaped, Anchor.ofPattern? (Pattern.escape a) = some escaped ∧
      ∀ edit, edit ≠ Edit.create →
        ∃ r r', check ⟨name, phase, target, edit.text, c, some (.literal a)⟩ = .ok r ∧
          check ⟨name, phase, target, edit.text, c, some escaped⟩ = .ok r' ∧
          ∀ t, ∃ p, r.patchText t = .ok p ∧ r'.patchText t = .ok p := by
  have hliteral := Anchor.finds_literal ha
  have hescape := Anchor.finds_escape ha (Pattern.escape a)
  have hvoid : (Anchor.literal a).isVoid = false := by simpa [Anchor.isVoid] using ha
  have haccepts := fun placement => Action.accepts_of_finds hliteral hvoid hac placement target
  have haccepts' := fun placement => Action.accepts_of_finds hescape rfl hac placement target
  constructor
  · have hedit : Edit.replace.text = (Action.amend .over (.literal a)).edit.text := rfl
    refine ⟨_, check_of_accepts hedit rfl (haccepts .over), fun t ht => ?_⟩
    rw [Rule.patchText_of_amend rfl, Patch.amend_over_literal ha ht]
  · refine ⟨_, Anchor.ofPattern?_escape a, fun edit hedit => ?_⟩
    obtain ⟨placement, hplacement⟩ := Edit.exists_placement hedit
    refine ⟨_, _, check_of_accepts (congrArg Edit.text (hplacement _).symm) rfl (haccepts placement),
      check_of_accepts (congrArg Edit.text (hplacement _).symm) rfl (haccepts' placement), fun t => ?_⟩
    refine ⟨_, Rule.patchText_of_amend rfl t, ?_⟩
    rw [Rule.patchText_of_amend rfl, Patch.amend_congr (hescape.cuts_congr hliteral t)]

/-- The dots stand for dots, and of three in a row the last two are found. -/
theorem check_literal_escape_dots :
    ("..\n" : Text) ≠ [] ∧ ¬ ("..\n" : Text) <:+: "-" ∧
      ∃ r escaped r', Draft.check ⟨"dots", 50, "*.js", "replace", "-", some (.literal "..\n")⟩ = .ok r ∧
        Anchor.ofPattern? (Pattern.escape "..\n") = some escaped ∧
        Draft.check ⟨"dots", 50, "*.js", "replace", "-", some escaped⟩ = .ok r' ∧
        r.patchText "...\n\na..\n" = .ok ⟨".-\na-", .applied, 2⟩ ∧
        r'.patchText "...\n\na..\n" = .ok ⟨".-\na-", .applied, 2⟩ := by
  have hne : ("..\n" : Text) ≠ [] := by decide
  have hout : ¬ ("..\n" : Text) <:+: "-" := fun h => absurd (Occurrence.occursIn_iff_infix.mpr h) (by decide)
  have hin : ("..\n" : Text) <:+: "...\n\na..\n" := Occurrence.occursIn_iff_infix.mp (by decide)
  obtain ⟨⟨r, hr, hreplaces⟩, escaped, hescaped, hrules⟩ := Draft.check_literal_escape hne hout "dots" 50 "*.js"
  obtain ⟨r₁, r', hr₁, hr', hsame⟩ := hrules .replace (by decide)
  obtain rfl : r₁ = r := Except.ok.inj (hr₁.symm.trans hr)
  obtain ⟨p, hp, hp'⟩ := hsame "...\n\na..\n"
  have htext : r₁.patchText "...\n\na..\n" = .ok ⟨".-\na-", .applied, 2⟩ :=
    (hreplaces _ hin).trans (congrArg Except.ok (by decide))
  exact ⟨hne, hout, r₁, escaped, r', hr, hescaped, hr', htext, hp'.trans (hp.symm.trans htext)⟩

end FlowTypes
