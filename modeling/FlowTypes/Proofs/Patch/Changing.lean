import FlowTypes.Proofs.Patch.Places
import FlowTypes.Proofs.Pattern.Language

/-!
# Edits that change nothing

An edit that changes a text says that it was applied. The other way round this is not so: a replacement may put the
same text down again, and it is counted as an edit. What is checked of a rule is meant to exclude this, but the anchor
is looked for in the content alone.

An insertion that is due makes the text longer. For a replacement, text and result have the same parts between matches
and contents. Where the result runs ahead of the text or falls behind, it has to come back, and on the way **some
match lies within its content** (`exists_infix_of_flatMap_eq`). So the anchor has a match in the content, unless the
match depends on what stands around it. **Only patterns that look around can replace a text by itself and be reported
as applied** (`Rule.patchText_changes`).

Which patterns look around is said of the patterns that can be read here. Those are the ones with a test for an end of
the text or for the boundary of a word. Tests of what comes next or before would be further ones.
-/

namespace FlowTypes

/-- A word lies within another one if it begins no earlier and ends no later in the same list. -/
theorem infix_of_append_eq {α : Type} {x new before y old behind : List α} (h : x ++ new ++ before = y ++ old ++ behind)
    (hstart : x.length ≤ y.length) (hstop : y.length + old.length ≤ x.length + new.length) : old <:+: new := by
  have hends : y ++ old <+: x ++ new := by
    refine List.prefix_of_prefix_length_le (List.prefix_append _ behind) (h ▸ List.prefix_append _ before) ?_
    simpa only [List.length_append] using hstop
  obtain ⟨w, hw⟩ := hends
  have hbegins : x <+: y := by
    refine List.prefix_of_prefix_length_le (List.prefix_append x new) ?_ hstart
    exact ⟨old ++ w, by rw [← hw, List.append_assoc]⟩
  obtain ⟨u, rfl⟩ := hbegins
  refine ⟨u, w, ?_⟩
  rw [List.append_assoc, List.append_assoc, List.append_cancel_left_eq] at hw
  rw [List.append_assoc, hw]

/-- Two ways to fill in the same parts. If they give the same text, and the first begins no later than the second, one
of the words of the second lies within its counterpart. -/
theorem exists_infix_of_flatMap_eq {α β : Type} (new old after : β → List α) :
    ∀ {parts : List β} {x y : List α}, parts ≠ [] → x.length ≤ y.length →
      x ++ parts.flatMap (fun s => new s ++ after s) = y ++ parts.flatMap (fun s => old s ++ after s) →
        ∃ s ∈ parts, old s <:+: new s
  | [], _, _, hne, _, _ => absurd rfl hne
  | s :: rest, x, y, _, hle, h => by
    by_cases hwithin : y.length + (old s).length ≤ x.length + (new s).length
    · refine ⟨s, List.mem_cons_self, ?_⟩
      simp only [List.flatMap_cons, List.append_assoc] at h
      rw [← List.append_assoc x, ← List.append_assoc y] at h
      exact infix_of_append_eq h hle hwithin
    · -- the first is still behind
      have hlength := congrArg List.length h
      simp only [List.flatMap_cons, ← List.append_assoc] at h hlength
      have hbehind : (x ++ new s ++ after s).length ≤ (y ++ old s ++ after s).length := by
        simp only [List.length_append]
        omega
      have hrest : rest ≠ [] := by
        rintro rfl
        simp only [List.flatMap_nil, List.append_nil, List.length_append] at hlength
        omega
      obtain ⟨s', hs', hin⟩ := exists_infix_of_flatMap_eq new old after hrest hbehind h
      exact ⟨s', List.mem_cons_of_mem _ hs', hin⟩

namespace Patch

section
variable {placement : Placement} {anchor : Anchor} {content t : Text}

/-! ## Insertions -/

/-- Nothing is due if the content is empty. -/
theorem sites_nil_content (hplacement : placement ≠ .over) (t : Text) (spans : List Span) :
    sites placement [] t spans = [] := by
  induction spans with
  | nil => rfl
  | cons s rest ih =>
    have hdue : ¬ IsDue placement [] t s (nextStart t rest) := by
      cases placement with
      | «over» => exact absurd rfl hplacement
      | after => exact fun h => h List.nil_infix
      | before => exact fun h => h List.nil_suffix
    rw [sites, if_neg hdue, ih]

/-- **An insertion that is applied changes the text.** -/
theorem text_amend_ne_of_insertion (hplacement : placement ≠ .over)
    (happlied : (amend placement anchor content t).status = .applied) :
    (amend placement anchor content t).text ≠ t := by
  intro hsame
  have hperforms := performs_amend placement anchor content t
  have hedits : 0 < (amend placement anchor content t).edits := (edits_amend_pos_iff ..).mpr happlied
  have hlength := hperforms.length_eq hplacement
  rw [hsame] at hlength
  have hcontent : content = [] := by
    refine List.eq_nil_of_length_eq_zero ((Nat.mul_eq_zero.mp ?_).resolve_left (Nat.pos_iff_ne_zero.mp hedits))
    omega
  rw [hperforms.edits_eq, hcontent, sites_nil_content hplacement] at hedits
  cases hedits

/-! ## Replacements -/

theorem assemble_over (content : Text) (cuts : Cuts) :
    assemble .over content cuts = cuts.head ++ cuts.segments.flatMap fun s => content ++ s.after := by
  simp only [assemble, due, written, List.zipWith_map_right, List.zipWith_self, List.flatMap]

/-- What a segment behind a front found is read at one of the spans. -/
theorem exists_read_eq_found {s : Segment} : ∀ {segments : List Segment} (front : Text), s ∈ segments →
    ∃ span ∈ Segment.spans front.length segments, span.read (front ++ Segment.flat segments) = s.found
  | first :: rest, front, hs => by
    rw [Segment.flat_cons]
    rcases List.mem_cons.mp hs with rfl | hs
    · refine ⟨_, List.mem_cons_self, ?_⟩
      rw [← List.append_assoc]
      exact Span.read_append front s.found _
    · obtain ⟨span, hspan, hread⟩ := exists_read_eq_found (front ++ first.found ++ first.after) hs
      refine ⟨span, ?_, ?_⟩
      · rw [List.length_append, List.length_append] at hspan
        exact List.mem_cons_of_mem _ hspan
      · simpa only [List.append_assoc] using hread

/-- What a segment found is read at one of the spans of the anchor. -/
theorem exists_span_of_segment {s : Segment} (hs : s ∈ (anchor.cuts t).segments) :
    ∃ span ∈ anchor.spans t, span.read t = s.found := by
  have hwhole : (anchor.cuts t).head ++ Segment.flat (anchor.cuts t).segments = t := anchor.whole_cuts t
  have hread := exists_read_eq_found (anchor.cuts t).head hs
  rwa [hwhole, ← Nat.zero_add (anchor.cuts t).head.length] at hread

/-- **A replacement that is applied and changes nothing finds what lies within its content**, and its content lies
within something that it finds. -/
theorem exists_infix_of_text_amend_eq (happlied : (amend .over anchor content t).status = .applied)
    (hsame : (amend .over anchor content t).text = t) :
    (∃ s ∈ (anchor.cuts t).segments, s.found <:+: content) ∧
      ∃ s ∈ (anchor.cuts t).segments, content <:+: s.found := by
  have hsegments : (anchor.cuts t).segments ≠ [] := by
    intro hnil
    have hedits : 0 < (amend .over anchor content t).edits := (edits_amend_pos_iff ..).mpr happlied
    rw [edits_amend, due, hnil] at hedits
    cases hedits
  have htext : (anchor.cuts t).head ++ (anchor.cuts t).segments.flatMap (fun s => content ++ s.after) =
      (anchor.cuts t).head ++ (anchor.cuts t).segments.flatMap fun s => s.found ++ s.after := by
    rw [← assemble_over, ← text_amend, hsame]
    exact (anchor.whole_cuts t).symm
  exact ⟨exists_infix_of_flatMap_eq (fun _ => content) Segment.found Segment.after hsegments (Nat.le_refl _) htext,
    exists_infix_of_flatMap_eq Segment.found (fun _ => content) Segment.after hsegments (Nat.le_refl _) htext.symm⟩

end

end Patch

namespace Rule

variable {r : Rule} {placement : Placement} {anchor : Anchor} {t : Text}

theorem not_occursIn_content (haction : r.action = .amend .over anchor) : anchor.occursIn r.content = false := by
  have haccepted := r.accepted
  simp only [haction, Action.accepts, Bool.and_eq_true, Bool.not_eq_true'] at haccepted
  exact haccepted.2

/-- An anchor that looks for one text finds the content in no replacement. -/
theorem text_amend_ne_of_needle (haction : r.action = .amend .over anchor) {n : Needle} (hf : anchor.Finds n)
    (happlied : (Patch.amend .over anchor r.content t).status = .applied) :
    (Patch.amend .over anchor r.content t).text ≠ t := by
  intro hsame
  obtain ⟨⟨s, hs, hin⟩, ⟨s', hs', hin'⟩⟩ := Patch.exists_infix_of_text_amend_eq happlied hsame
  rw [(hf.splits_cuts t).found_eq hs] at hin
  rw [(hf.splits_cuts t).found_eq hs'] at hin'
  -- the content is the text that is looked for, and it stands at its own start
  have hcontent : r.content = n.text := hin'.eq_of_length (Nat.le_antisymm hin'.length_le hin.length_le)
  have hstands : n.Stands r.content := by
    refine ⟨[], [], by simp [hcontent], ?_⟩
    simp [lastOr, Needle.admits]
  have hoccurs := hf.occursIn_iff.mpr hstands
  rw [not_occursIn_content haction] at hoccurs
  cases hoccurs

/-- **A rule that changes a text reports that it was applied, and if it was applied the text has changed**, unless a
replacement puts the same text down again. Then its anchor is a pattern that looks around, by one of the tests that
patterns have here, and does not look for one text only, and one of its matches lies within the content. -/
theorem patchText_changes (haction : r.action = .amend placement anchor) (t : Text) :
    ∃ p, r.patchText t = .ok p ∧ (p.text ≠ t → p.status = .applied) ∧
      (p.status = .applied → p.text = t → placement = .over ∧ anchor.looksAround = true ∧ anchor.needle? = none ∧
        ∃ s ∈ anchor.spans t, s.read t <:+: r.content) := by
  refine ⟨_, patchText_of_amend haction t, Patch.status_amend_of_text_ne, fun happlied hsame => ?_⟩
  obtain rfl : placement = .over := by
    refine Decidable.byContradiction fun hplacement => ?_
    exact Patch.text_amend_ne_of_insertion hplacement happlied hsame
  have hneedle : anchor.needle? = none := by
    cases hn : anchor.needle? with
    | none => rfl
    | some n => exact absurd hsame (text_amend_ne_of_needle haction (Anchor.finds_of_needle? hn) happlied)
  obtain ⟨⟨segment, hsegment, hin⟩, -⟩ := Patch.exists_infix_of_text_amend_eq happlied hsame
  obtain ⟨s, hs, hread⟩ := Patch.exists_span_of_segment hsegment
  rw [← hread] at hin
  refine ⟨rfl, ?_, hneedle, s, hs, hin⟩
  cases anchor with
  | literal a =>
    obtain ⟨c, rest, hcons⟩ := List.exists_cons_of_ne_nil (anchor_ne_nil haction)
    rw [hcons] at hneedle
    cases hneedle
  | pattern source regex =>
    refine Decidable.byContradiction fun hlooks => ?_
    have hoccurs := Anchor.occursIn_of_match (Bool.eq_false_iff.mpr hlooks) hs hin
    rw [not_occursIn_content haction] at hoccurs
    cases hoccurs

end Rule

/-- A base class is reported exactly where it changes the text. -/
theorem patchText_changes_extends :
    extendsRule.action = .amend .over (.literal "class A \x7b") ∧
      ∀ t, ∃ p, extendsRule.patchText t = .ok p ∧ (p.status = .applied ↔ p.text ≠ t) := by
  refine ⟨rfl, fun t => ?_⟩
  obtain ⟨p, hp, hchanges, hsame⟩ := Rule.patchText_changes (r := extendsRule) rfl t
  refine ⟨p, hp, fun happlied heq => ?_, hchanges⟩
  obtain ⟨-, hlooks, -⟩ := hsame happlied heq
  cases hlooks

/-- A semicolon in place of one right behind a word. -/
def semicolonRule : Rule :=
  ⟨"semicolon", 50, "*.js", ";", .amend .over (.pattern "\\b;" (.seq .wordBoundary (.char ';'))), by decide⟩

/-- **A semicolon that takes its own place is reported as an edit.** By itself it does not stand behind a word, so the
rule makes sense. -/
theorem patchText_semicolon_unchanged :
    Anchor.ofPattern? "\\b;" = some (.pattern "\\b;" (.seq .wordBoundary (.char ';'))) ∧
      semicolonRule.patchText "a;" = .ok ⟨"a;", .applied, 1⟩ :=
  ⟨rfl, rfl⟩

end FlowTypes
