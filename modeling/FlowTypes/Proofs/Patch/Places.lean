import FlowTypes.Proofs.Anchor.Scanning
import FlowTypes.Proofs.Patch.Recurrence

/-!
# Where an edit puts its content

An edit goes along the matches of its anchor, and at some of them it leaves out its content. Here this is said of the
text and the places of the matches in it, without the pieces that the text is cut into. `Patch.IsDue` says at which
matches the content is due, `Patch.site` what it takes the place of there, and `Patch.sites` collects this:

* content that takes the place of a match is always due, and the site is the match;
* content that is to follow a match is due if it does not stand between the match and the next one, and the site is empty
  and lies right behind the match;
* content that is to come before a match is due if the text up to the match does not end with it, and the site is empty
  and lies right before the match.

**The text after the edit is the text with the content spliced in at the sites, and nothing else** (`Patch.Performs`).
Matches may be empty and may touch, so sites may coincide.

The matches of an anchor are not special in this: they are spans that lie one behind the other, and a text can be cut at
any such spans (`Patch.cutsAt`). What an edit does is proved for all of them (`Patch.performs_amendAt`).

## How the pieces are followed

`assemble_eq_splice` goes from segment to segment. Where nothing is due the site before stays the last one, so what was
passed over since is not written yet. It is the part of the text from that site up to the segment.
-/

namespace FlowTypes

namespace Patch

/-! ## Sites -/

/-- Where the first of some matches starts, or the text ends if there is none. -/
def nextStart (t : Text) : List Span → Nat
  | [] => t.length
  | s :: _ => s.start

/-- Content is due at a match if the next one starts at `next`. -/
def IsDue (placement : Placement) (content t : Text) (s : Span) (next : Nat) : Prop :=
  match placement with
  | .over => True
  | .after => ¬ content <:+: t.extract s.stop next
  | .before => ¬ content <:+ t.take s.start

instance (placement : Placement) (content t : Text) (s : Span) (next : Nat) :
    Decidable (IsDue placement content t s next) :=
  match placement with
  | .over => .isTrue trivial
  | .after => decidable_of_iff (¬ Occurrence.occursIn content (t.extract s.stop next) = true)
      (not_congr Occurrence.occursIn_iff_infix)
  | .before => decidable_of_iff (¬ Occurrence.endsWith (t.take s.start) content = true)
      (not_congr List.isSuffixOf_iff_suffix)

/-- What content takes the place of at a match. -/
def site (placement : Placement) (s : Span) : Span :=
  match placement with
  | .over => s
  | .after => ⟨s.stop, s.stop⟩
  | .before => ⟨s.start, s.start⟩

/-- What content takes the place of at those matches where it is due. -/
def sites (placement : Placement) (content t : Text) : List Span → List Span
  | [] => []
  | s :: rest =>
    if IsDue placement content t s (nextStart t rest) then site placement s :: sites placement content t rest
    else sites placement content t rest

/-- A replacement takes the place of every match. -/
theorem sites_over (content t : Text) (spans : List Span) : sites .over content t spans = spans := by
  induction spans with
  | nil => rfl
  | cons s rest ih =>
    have hdue : IsDue .over content t s (nextStart t rest) := trivial
    rw [sites, if_pos hdue, ih]
    rfl

/-- An insertion takes the place of nothing. -/
theorem isEmpty_of_mem_sites {placement : Placement} (hp : placement ≠ .over) {content t : Text} {spans : List Span}
    {s : Span} (hs : s ∈ sites placement content t spans) : s.IsEmpty := by
  induction spans with
  | nil => cases hs
  | cons first rest ih =>
    rw [sites] at hs
    split at hs
    · rcases List.mem_cons.mp hs with rfl | hs
      · cases placement with
        | «over» => exact absurd rfl hp
        | after => rfl
        | before => rfl
      · exact ih hs
    · exact ih hs

/-- Sites lie one behind the other, as the matches do. -/
theorem inOrder_sites (placement : Placement) (content t : Text) {first last : Nat} {spans : List Span}
    (h : Span.InOrder first last spans) : Span.InOrder first last (sites placement content t spans) := by
  induction spans generalizing first with
  | nil => exact h
  | cons s rest ih =>
    obtain ⟨hstart, hspan, hstop, hrest⟩ := Span.inOrder_cons_iff.mp h
    -- from anywhere up to the end of the match
    have hfurther : ∀ {k : Nat}, k ≤ s.stop → Span.InOrder k last (sites placement content t rest) := by
      intro k hk
      refine ih ⟨fun s' hs' => ?_, hrest.apart⟩
      obtain ⟨hstart', hspan', hstop'⟩ := hrest.within s' hs'
      exact ⟨by omega, hspan', hstop'⟩
    rw [sites]
    split
    · rw [Span.inOrder_cons_iff]
      cases placement with
      | «over» => exact ⟨hstart, hspan, hstop, hfurther (Nat.le_refl _)⟩
      | after => exact ⟨by show first ≤ s.stop; omega, Nat.le_refl _, hstop, hfurther (Nat.le_refl _)⟩
      | before => exact ⟨hstart, Nat.le_refl _, by show s.start ≤ last; omega, hfurther hspan⟩
    · exact hfurther (by omega)

/-! ## The sites among the pieces -/

section
variable {placement : Placement} {content : Text}

/-- Behind a front, the first of the segments begins where the front ends. -/
theorem nextStart_spans (front : Text) (segments : List Segment) :
    nextStart (front ++ Segment.flat segments) (Segment.spans front.length segments) = front.length := by
  cases segments with
  | nil => exact congrArg List.length (List.append_nil front)
  | cons s rest => rfl

theorem isDue_after_iff (content x after y : Text) (start : Nat) :
    IsDue .after content (x ++ after ++ y) ⟨start, x.length⟩ (x.length + after.length) ↔
      (!Occurrence.occursIn content after) = true := by
  show ¬ content <:+: (Span.read ⟨x.length, x.length + after.length⟩ (x ++ after ++ y)) ↔ _
  rw [Span.read_append, ← Occurrence.occursIn_iff_infix, Bool.not_eq_true, Bool.not_eq_true']

theorem isDue_before_iff (content x y : Text) (stop next : Nat) :
    IsDue .before content (x ++ y) ⟨x.length, stop⟩ next ↔ (!Occurrence.endsWith x content) = true := by
  show ¬ content <:+ (x ++ y).take x.length ↔ _
  rw [List.take_left, ← List.isSuffixOf_iff_suffix, Bool.not_eq_true, Bool.not_eq_true']
  rfl

/-- What is asked of the pieces is what is asked of the text. -/
theorem due_cons (placement : Placement) (content front : Text) (s : Segment) (rest : List Segment) :
    due placement content ⟨front, s :: rest⟩ =
      decide (IsDue placement content (front ++ s.found ++ s.after ++ Segment.flat rest)
        ⟨front.length, (front ++ s.found).length⟩ (front ++ s.found ++ s.after).length) ::
          due placement content ⟨front ++ s.found ++ s.after, rest⟩ := by
  cases placement with
  | «over» => rfl
  | after =>
    refine congrArg (· :: _) (Bool.eq_iff_iff.mpr ?_)
    rw [decide_eq_true_iff, (List.length_append : (front ++ s.found ++ s.after).length = _)]
    exact (isDue_after_iff content (front ++ s.found) s.after _ _).symm
  | before =>
    show dueBefore content front.reverse (s :: rest) = _
    rw [dueBefore_reverse_cons, ← List.append_assoc]
    refine congrArg (· :: _) (Bool.eq_iff_iff.mpr ?_)
    rw [decide_eq_true_iff, List.append_assoc front, List.append_assoc front]
    exact (isDue_before_iff content front _ _ _).symm

/-- The sites among segments behind a front: one step. -/
theorem sites_cons (placement : Placement) (content front : Text) (s : Segment) (rest : List Segment) :
    sites placement content (front ++ Segment.flat (s :: rest)) (Segment.spans front.length (s :: rest)) =
      let further := sites placement content (front ++ s.found ++ s.after ++ Segment.flat rest)
        (Segment.spans (front ++ s.found ++ s.after).length rest)
      if IsDue placement content (front ++ s.found ++ s.after ++ Segment.flat rest)
          ⟨front.length, (front ++ s.found).length⟩ (front ++ s.found ++ s.after).length then
        site placement ⟨front.length, (front ++ s.found).length⟩ :: further
      else further := by
  have hnext := nextStart_spans (front ++ s.found ++ s.after) rest
  rw [Segment.spans, sites, Segment.flat_cons, ← List.append_assoc, ← List.append_assoc, ← List.length_append,
    ← List.length_append, hnext]

/-- There is a site for every match at which content is due. -/
theorem length_sites (placement : Placement) (content : Text) (segments : List Segment) (front : Text) :
    (sites placement content (front ++ Segment.flat segments) (Segment.spans front.length segments)).length =
      (due placement content ⟨front, segments⟩).count true := by
  induction segments generalizing front with
  | nil => cases placement <;> rfl
  | cons s rest ih =>
    have ih := ih (front ++ s.found ++ s.after)
    rw [sites_cons, due_cons, List.count_cons]
    dsimp only
    split
    · rename_i hdue
      rw [List.length_cons, ih, decide_eq_true hdue]
      rfl
    · rename_i hdue
      rw [ih, decide_eq_false hdue]
      rfl

/-- What is spliced in at the site of a segment is what is written for the segment. What comes further on may begin
anywhere in the segment. -/
theorem splice_site (placement : Placement) (content : Text) {front tail whole : Text} {s : Segment}
    {position : Nat} {further : List Span} (h : position ≤ front.length)
    (hwhole : front ++ s.found ++ s.after <+: whole)
    (hfurther : ∀ k ≤ (front ++ s.found ++ s.after).length,
      (front ++ s.found ++ s.after).drop k ++ tail = content.intercalate (Span.outsideFrom whole k further)) :
    content.intercalate (Span.outsideFrom whole position
        (site placement ⟨front.length, (front ++ s.found).length⟩ :: further)) =
      front.drop position ++ (written placement content s true ++ tail) := by
  have hfront : front <+: front ++ s.found := List.prefix_append _ _
  have hmatch : front ++ s.found <+: front ++ s.found ++ s.after := List.prefix_append _ _
  -- the site begins behind `x` and stops behind `z`, and `w` is what is left of the segment then
  have hsite : ∀ {x z w : Text}, x <+: front ++ s.found → front ++ s.found ++ s.after = z ++ w →
      position ≤ x.length → content.intercalate (Span.outsideFrom whole position (⟨x.length, z.length⟩ :: further)) =
        x.drop position ++ content ++ (w ++ tail) := by
    intro x z w hx hz hle
    have hbound : z.length ≤ (front ++ s.found ++ s.after).length := hz ▸ (List.prefix_append z w).length_le
    have hin : x <+: whole := hx.trans (hmatch.trans hwhole)
    rw [Span.intercalate_outsideFrom_cons content hin hle, ← hfurther _ hbound, hz, List.drop_left]
  cases placement with
  | «over» =>
    refine (hsite hfront (z := front ++ s.found) rfl h).trans ?_
    simp [written]
  | after =>
    refine (hsite List.prefix_rfl (z := front ++ s.found) rfl (Nat.le_trans h hfront.length_le)).trans ?_
    simp [written, List.drop_append_of_le_length h]
  | before =>
    refine (hsite hfront (z := front) (List.append_assoc _ _ _) h).trans ?_
    simp [written]

/-- What is written for segments behind a front is what is spliced in from any position in the front. -/
theorem written_eq_splice (placement : Placement) (content : Text) (segments : List Segment) (front : Text)
    {position : Nat} (h : position ≤ front.length) :
    front.drop position ++
        (List.zipWith (written placement content) segments (due placement content ⟨front, segments⟩)).flatten =
      content.intercalate (Span.outsideFrom (front ++ Segment.flat segments) position
        (sites placement content (front ++ Segment.flat segments) (Segment.spans front.length segments))) := by
  induction segments generalizing front position with
  | nil => simp [Segment.spans, sites, Span.outsideFrom]
  | cons s rest ih =>
    have hwhole : front ++ Segment.flat (s :: rest) = front ++ s.found ++ s.after ++ Segment.flat rest := by
      simp [Segment.flat_cons]
    have ih := fun k => @ih (front ++ s.found ++ s.after) k
    rw [sites_cons, due_cons, List.zipWith_cons_cons, List.flatten_cons, hwhole]
    dsimp only
    split
    · rename_i hdue
      rw [decide_eq_true hdue]
      exact (splice_site placement content h (List.prefix_append _ _) ih).symm
    · rename_i hdue
      have hp : placement ≠ .over := by
        rintro rfl
        exact hdue trivial
      have hle : position ≤ (front ++ s.found ++ s.after).length := by
        rw [List.length_append, List.length_append]
        omega
      rw [decide_eq_false hdue, written_false hp, ← ih position hle, List.append_assoc front,
        List.drop_append_of_le_length h]
      simp

end

/-! ## Cutting at spans -/

/-- The pieces that begin at spans, each with what follows it up to the next one or the end of the text. -/
def segmentsAt (t : Text) : List Span → List Segment
  | [] => []
  | s :: rest => ⟨s.read t, t.extract s.stop (nextStart t rest)⟩ :: segmentsAt t rest

/-- A text cut at spans. -/
def cutsAt (t : Text) (spans : List Span) : Cuts := ⟨t.take (nextStart t spans), segmentsAt t spans⟩

theorem le_nextStart {t : Text} {first : Nat} {spans : List Span} (h : Span.InOrder first t.length spans)
    (hfirst : first ≤ t.length) : first ≤ nextStart t spans ∧ nextStart t spans ≤ t.length := by
  cases spans with
  | nil => exact ⟨hfirst, Nat.le_refl _⟩
  | cons s rest =>
    obtain ⟨hstart, hspan, hstop, -⟩ := Span.inOrder_cons_iff.mp h
    exact ⟨hstart, Nat.le_trans hspan hstop⟩

/-- Cutting at spans in order loses nothing. -/
theorem flat_segmentsAt {t : Text} {first : Nat} {spans : List Span} (h : Span.InOrder first t.length spans)
    (hfirst : first ≤ t.length) :
    t.extract first (nextStart t spans) ++ Segment.flat (segmentsAt t spans) = t.drop first := by
  have hjoin : ∀ {i j : Nat}, i ≤ j → t.extract i j ++ t.drop j = t.drop i := by
    intro i j hij
    show (t.drop i).take (j - i) ++ t.drop j = t.drop i
    rw [show t.drop j = (t.drop i).drop (j - i) by rw [List.drop_drop, Nat.add_sub_cancel' hij],
      List.take_append_drop]
  induction spans generalizing first with
  | nil => simpa [segmentsAt, nextStart] using hjoin hfirst
  | cons s rest ih =>
    obtain ⟨hstart, hspan, hstop, hrest⟩ := Span.inOrder_cons_iff.mp h
    show t.extract first s.start ++ Segment.flat (_ :: segmentsAt t rest) = _
    rw [Segment.flat_cons, ih hrest hstop, Span.read, hjoin hspan, hjoin hstart]

/-- Cut at spans in order, a text has its matches there. -/
theorem spans_segmentsAt {t : Text} {first : Nat} {spans : List Span} (h : Span.InOrder first t.length spans) :
    Segment.spans (nextStart t spans) (segmentsAt t spans) = spans := by
  induction spans generalizing first with
  | nil => rfl
  | cons s rest ih =>
    obtain ⟨-, hspan, hstop, hrest⟩ := Span.inOrder_cons_iff.mp h
    obtain ⟨hnext, hlast⟩ := le_nextStart hrest hstop
    have hread : s.start + (s.read t).length = s.stop := by
      rw [Span.read, Span.length_extract]
      omega
    have hafter : s.stop + (t.extract s.stop (nextStart t rest)).length = nextStart t rest := by
      rw [Span.length_extract]
      omega
    show Segment.spans s.start (_ :: segmentsAt t rest) = _
    rw [Segment.spans, hread, hafter, ih hrest]

theorem whole_cutsAt {t : Text} {spans : List Span} (h : Span.InOrder 0 t.length spans) : (cutsAt t spans).whole = t :=
  flat_segmentsAt h (Nat.zero_le _)

theorem spansFrom_cutsAt {t : Text} {spans : List Span} (h : Span.InOrder 0 t.length spans) :
    (cutsAt t spans).spansFrom 0 = spans := by
  obtain ⟨-, hlast⟩ := le_nextStart h (Nat.zero_le _)
  rw [Cuts.spansFrom, cutsAt, List.length_take, Nat.min_eq_left hlast, Nat.zero_add, spans_segmentsAt h]

theorem segmentsAt_spans (segments : List Segment) (front : Text) :
    segmentsAt (front ++ Segment.flat segments) (Segment.spans front.length segments) = segments := by
  induction segments generalizing front with
  | nil => rfl
  | cons s rest ih =>
    have hwhole : front ++ Segment.flat (s :: rest) = front ++ s.found ++ s.after ++ Segment.flat rest := by
      simp [Segment.flat_cons]
    have hafter := Span.read_append (front ++ s.found) s.after (Segment.flat rest)
    have hfound := Span.read_append front s.found (s.after ++ Segment.flat rest)
    rw [← List.append_assoc] at hfound
    have ih := ih (front ++ s.found ++ s.after)
    have hnext := nextStart_spans (front ++ s.found ++ s.after) rest
    rw [List.length_append, List.length_append] at ih hnext
    rw [List.length_append] at hafter
    rw [hwhole, Segment.spans, segmentsAt, hfound, hnext, ih]
    exact congrArg (fun after => Segment.mk s.found after :: rest) hafter

/-- Cuts are known from the text and the places of the matches in it. -/
theorem cutsAt_spansFrom (cuts : Cuts) : cutsAt cuts.whole (cuts.spansFrom 0) = cuts := by
  have hnext := nextStart_spans cuts.head cuts.segments
  show cutsAt (cuts.head ++ Segment.flat cuts.segments) (Segment.spans (0 + cuts.head.length) cuts.segments) = cuts
  rw [Nat.zero_add, cutsAt, hnext, List.take_left, segmentsAt_spans]

/-- The edit at the matches of an anchor is the edit at their places. -/
theorem amend_eq_amendAt (placement : Placement) (a : Anchor) (content t : Text) :
    amend placement a content t = amendAt placement content t (cutsAt t (a.spans t)) := by
  have hcuts := cutsAt_spansFrom (a.cuts t)
  rw [a.whole_cuts t] at hcuts
  rw [amend, Anchor.spans, hcuts]

/-! ## The edit of a text -/

section
variable (placement : Placement) (content : Text) {t : Text} {cuts : Cuts} (hwhole : cuts.whole = t)
include hwhole

/-- **The pieces of an edit make up the text with the content at the sites.** -/
theorem assemble_eq_splice :
    assemble placement content cuts = Span.splice content (sites placement content t (cuts.spansFrom 0)) t := by
  have hwhole : cuts.head ++ Segment.flat cuts.segments = t := hwhole
  have hsplice := written_eq_splice placement content cuts.segments cuts.head (Nat.zero_le _)
  rw [hwhole] at hsplice
  rw [Span.splice, Span.outside, Cuts.spansFrom, Nat.zero_add, ← hsplice]
  rfl

/-- **There is an edit for every site.** -/
theorem edits_amendAt_eq_length :
    (amendAt placement content t cuts).edits = (sites placement content t (cuts.spansFrom 0)).length := by
  have hwhole : cuts.head ++ Segment.flat cuts.segments = t := hwhole
  have hlength := length_sites placement content cuts.segments cuts.head
  rw [hwhole] at hlength
  rw [edits_amendAt, Cuts.spansFrom, Nat.zero_add, hlength]

end

/-- What an edit does to a text, given where the matches lie in it: the content takes the place of every site, as it is,
and nothing else goes or comes. -/
structure Performs (placement : Placement) (content t : Text) (spans : List Span) (p : Patched) : Prop where
  text_eq : p.text = Span.splice content (sites placement content t spans) t
  edits_eq : p.edits = (sites placement content t spans).length
  /-- The copies of the content lie in the new text one behind the other. -/
  inOrder : Span.InOrder 0 p.text.length (Span.copies content.length (sites placement content t spans))
  /-- Every copy reads the content. -/
  read_eq : ∀ c ∈ Span.copies content.length (sites placement content t spans), c.read p.text = content
  /-- Outside of the copies stands what stood outside of the sites. -/
  outside_eq : Span.outside p.text (Span.copies content.length (sites placement content t spans)) =
    Span.outside t (sites placement content t spans)
  /-- A replacement takes the place of every match. -/
  sites_eq : placement = .over → sites placement content t spans = spans
  /-- Without the copies an insertion made, the text is as it was. -/
  without_eq : placement ≠ .over →
    Span.without p.text (Span.copies content.length (sites placement content t spans)) = t
  /-- An insertion makes the text longer by its copies. -/
  length_eq : placement ≠ .over → p.text.length = t.length + p.edits * content.length

/-- **An edit puts its content at the sites**, wherever the matches lie one behind the other. -/
theorem performs_amendAt (placement : Placement) (content : Text) {t : Text} {spans : List Span}
    (h : Span.InOrder 0 t.length spans) :
    Performs placement content t spans (amendAt placement content t (cutsAt t spans)) := by
  have htext := (text_amendAt placement content (whole_cutsAt h)).trans
    (assemble_eq_splice placement content (whole_cutsAt h))
  have hedits := edits_amendAt_eq_length placement content (whole_cutsAt h)
  rw [spansFrom_cutsAt h] at htext hedits
  have horder := inOrder_sites placement content t h
  have hempty : placement ≠ .over → ∀ s ∈ sites placement content t spans, s.IsEmpty :=
    fun hp s hs => isEmpty_of_mem_sites hp hs
  refine ⟨htext, hedits, ?_, ?_, ?_, ?_, ?_, ?_⟩
  · rw [htext]
    exact Span.inOrder_copies content horder
  · intro c hc
    rw [htext]
    exact Span.read_of_mem_copies content horder hc
  · rw [htext]
    exact Span.outside_splice content horder
  · rintro rfl
    exact sites_over content t _
  · intro hp
    rw [htext]
    exact Span.without_splice content horder (hempty hp)
  · intro hp
    rw [htext, hedits]
    exact Span.length_splice content horder (hempty hp)

theorem performs_amend (placement : Placement) (a : Anchor) (content t : Text) :
    Performs placement content t (a.spans t) (amend placement a content t) := by
  rw [amend_eq_amendAt]
  exact performs_amendAt placement content (a.inOrder_spans t)

end Patch

/-- **A rule finds the matches of its anchor from the left, and does at them what its placement says.** It makes one and
the same edit wherever the matches are, and this does what the placement says at any matches that lie one behind the
other. So what is said of the edit does not depend on how patterns are read and run. -/
theorem Rule.patchText_spans {r : Rule} {placement : Placement} {anchor : Anchor}
    (haction : r.action = .amend placement anchor) (t : Text) :
    anchor.Scans t 0 false (anchor.spans t) ∧ Span.InOrder 0 t.length (anchor.spans t) ∧
      (∃ p, r.patchText t = .ok p ∧ p = Patch.amendAt placement r.content t (Patch.cutsAt t (anchor.spans t)) ∧
        Patch.Performs placement r.content t (anchor.spans t) p) ∧
      ∀ spans, Span.InOrder 0 t.length spans →
        Patch.Performs placement r.content t spans
          (Patch.amendAt placement r.content t (Patch.cutsAt t spans)) :=
  ⟨anchor.scans_spans t, anchor.inOrder_spans t,
    ⟨_, patchText_of_amend haction t, Patch.amend_eq_amendAt .., Patch.performs_amend ..⟩,
    fun _ => Patch.performs_amendAt placement r.content⟩

/-- A letter behind every row of another one, which may be empty. -/
def rowsRule : Rule := ⟨"rows", 50, "*.js", "a", .amend .after (.pattern "b*" (.star (.char 'b'))), by decide⟩

/-- Behind the empty row at the start the letter stands already. Behind the row of two there is another empty one. -/
theorem patchText_spans_rows :
    rowsRule.action = .amend .after (.pattern "b*" (.star (.char 'b'))) ∧
      (Anchor.pattern "b*" (.star (.char 'b'))).spans "abb" = [⟨0, 0⟩, ⟨1, 3⟩, ⟨3, 3⟩] ∧
      ∃ p, rowsRule.patchText "abb" = .ok p ∧ p.text = "abbaa" ∧ p.edits = 2 ∧
        Patch.Performs .after "a" "abb" [⟨0, 0⟩, ⟨1, 3⟩, ⟨3, 3⟩] p := by
  have hspans : (Anchor.pattern "b*" (.star (.char 'b'))).spans "abb" = [⟨0, 0⟩, ⟨1, 3⟩, ⟨3, 3⟩] := by decide
  obtain ⟨-, -, ⟨p, hp, -, hperforms⟩, -⟩ := Rule.patchText_spans (r := rowsRule) rfl "abb"
  rw [hspans] at hperforms
  exact ⟨rfl, hspans, p, hp, hperforms.text_eq.trans (by decide), hperforms.edits_eq.trans (by decide), hperforms⟩

end FlowTypes
