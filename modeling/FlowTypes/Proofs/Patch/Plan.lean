import FlowTypes.Patch
import FlowTypes.Proofs.Anchor.Splitting

/-!
# Edits at a needle

An edit whose anchor looks for one text is a `Plan`: a placement, a needle and a content. A text is *settled*
for a plan if nothing is due wherever the needle stands (`Plan.Settled`): for a replacement the needle stands
nowhere, for an insertion its content is there already.

This says the same as the edit does (`amend_of_settled`), but it speaks of places in the text instead of
segments. So it can be followed when the text changes elsewhere.

`amend_induction` is how changes are followed: what an edit makes of a text is made by steps that change one
occurrence of the needle each. A property that survives every such step survives the edit.
-/

namespace FlowTypes

namespace Patch

/-- What an edit puts where, at a needle. -/
structure Plan where
  placement : Placement
  needle : Needle
  content : Text
  deriving DecidableEq, Repr

namespace Plan

/-- The edit of a text with the anchor of a plan. -/
def amend (p : Plan) (anchor : Anchor) (t : Text) : Patched := Patch.amend p.placement anchor p.content t

/-- What stands at a needle after the edit. -/
def around (p : Plan) : Text :=
  match p.placement with
  | .over => p.content
  | .after => p.needle.text ++ p.content
  | .before => p.content ++ p.needle.text

/-- Nothing is due at a needle between two texts. Content that follows is to come before the next needle. -/
def Carries (p : Plan) (u v : Text) : Prop :=
  match p.placement with
  | .over => False
  | .after => ∃ s w, v = s ++ p.content ++ w ∧ p.needle.Free p.needle.text.getLast? s
  | .before => p.content <:+ u

/-- Nothing is due in the text. -/
def Settled (p : Plan) (t : Text) : Prop :=
  ∀ u v, t = u ++ p.needle.text ++ v → p.needle.admits (lastOr none u) = true → p.Carries u v

/-- For a replacement, settled means that the needle does not occur. -/
theorem settled_over_iff {p : Plan} (hp : p.placement = .over) (hn : p.needle.wordStart = false)
    {t : Text} : p.Settled t ↔ ¬ p.needle.text <:+: t := by
  constructor
  · rintro h ⟨u, v, rfl⟩
    have hc := h u v rfl (Needle.admits_of_not_wordStart hn _)
    simp [Carries, hp] at hc
  · exact fun h u v e => absurd ⟨u, v, e.symm⟩ h

/-- A text without the needle is settled. -/
theorem settled_of_not_infix {p : Plan} {t : Text} (h : ¬ p.needle.text <:+: t) : p.Settled t :=
  fun u v e _ => absurd ⟨u, v, e.symm⟩ h

end Plan

/-! ## Plans that get along with themselves -/

namespace Plan

/-- The content disturbs neither the needle nor itself. -/
def sound (p : Plan) : Bool :=
  !p.needle.text.isEmpty && !p.content.contains '\r' &&
    match p.placement with
    | .over => !p.needle.wordStart && Occurrence.supplants p.needle.text p.content
    | .after =>
      Occurrence.unbordered p.needle.text && Occurrence.apart p.needle.text p.content &&
        p.needle.admits p.content.getLast? == p.needle.admits p.needle.text.getLast?
    | .before =>
      Occurrence.unbordered p.needle.text && Occurrence.apart p.needle.text p.content &&
        !p.needle.wordStart

variable {p : Plan}

theorem text_ne_nil_of_sound (h : p.sound = true) : p.needle.text ≠ [] := by
  simp only [sound, Bool.and_eq_true, Bool.not_eq_true', List.isEmpty_eq_false_iff] at h
  exact h.1.1

theorem not_mem_of_sound (h : p.sound = true) : '\r' ∉ p.content := by
  simp only [sound, Bool.and_eq_true, Bool.not_eq_true', List.contains_eq_mem,
    decide_eq_false_iff_not] at h
  exact h.1.2

theorem sound_over (h : p.sound = true) (hp : p.placement = .over) :
    p.needle.wordStart = false ∧ Occurrence.supplants p.needle.text p.content = true := by
  simp only [sound, hp, Bool.and_eq_true, Bool.not_eq_true'] at h
  exact h.2

theorem sound_after (h : p.sound = true) (hp : p.placement = .after) :
    Occurrence.unbordered p.needle.text = true ∧ Occurrence.apart p.needle.text p.content = true ∧
      p.needle.admits p.content.getLast? = p.needle.admits p.needle.text.getLast? := by
  simp only [sound, hp, Bool.and_eq_true, beq_iff_eq] at h
  exact ⟨h.2.1.1, h.2.1.2, h.2.2⟩

theorem sound_before (h : p.sound = true) (hp : p.placement = .before) :
    Occurrence.unbordered p.needle.text = true ∧ Occurrence.apart p.needle.text p.content = true ∧
      p.needle.wordStart = false := by
  simp only [sound, hp, Bool.and_eq_true, Bool.not_eq_true'] at h
  exact ⟨h.2.1.1, h.2.1.2, h.2.2⟩

end Plan

/-! ## A settled text stays -/

section
variable {p : Plan} {a : Anchor} {t : Text}

/-- Every segment is a needle at which nothing is due. -/
theorem Plan.Settled.carries (hf : a.Finds p.needle) (h : p.Settled t) {front rest : List Segment}
    {s : Segment} (hs : (a.cuts t).segments = front ++ s :: rest) :
    p.Carries ((a.cuts t).head ++ Segment.flat front) (s.after ++ Segment.flat rest) := by
  have hsplits := hf.splits_cuts t
  have hwhole : (a.cuts t).head ++ Segment.flat (a.cuts t).segments = t := a.whole_cuts t
  rw [hs] at hsplits hwhole
  obtain ⟨hfound, hadmits, -⟩ := hsplits.segment hf.text_ne_nil
  refine h _ _ (hwhole.symm.trans ?_) hadmits
  rw [Segment.flat_append, Segment.flat_cons, hfound]
  simp

/-- Content that follows a needle before the next one stands in the gap. -/
theorem infix_of_carries_after {n : Needle} {content s w : Text} {segment : Segment}
    {rest : List Segment} (hac : Occurrence.apart n.text content = true)
    (hsplits : n.Splits n.text.getLast? segment.after rest)
    (h : segment.after ++ Segment.flat rest = s ++ content ++ w)
    (hfree : n.Free n.text.getLast? s) : content <:+: segment.after := by
  cases rest with
  | nil => exact ⟨s, w, by simpa using h.symm⟩
  | cons next rest =>
    obtain ⟨-, hfound, hadmits, -⟩ := hsplits
    rw [Segment.flat_cons, hfound, ← List.append_assoc] at h
    rcases Occurrence.split_of_apart hac h with ⟨z, hz, -⟩ | ⟨z, hz, -⟩
    · -- the next needle would stand before the content
      exact absurd hadmits (Bool.eq_false_iff.mp (hfree _ _ hz))
    · exact ⟨s, z, hz.symm⟩

theorem mem_dueBefore {content : Text} {b : Bool} :
    ∀ {segments : List Segment} {upTo : Text}, b ∈ dueBefore content upTo.reverse segments →
      ∃ front s rest, segments = front ++ s :: rest ∧
        b = !Occurrence.endsWith (upTo ++ Segment.flat front) content
  | [], _, h => by simp [dueBefore] at h
  | s :: rest, upTo, h => by
    rw [dueBefore_reverse_cons] at h
    rcases List.mem_cons.mp h with rfl | h
    · exact ⟨[], s, rest, rfl, by simp⟩
    · obtain ⟨front, t, back, rfl, rfl⟩ := mem_dueBefore h
      exact ⟨s :: front, t, back, rfl, by simp [Segment.flat_cons]⟩

/-- Nothing is due at the segments of a settled text. -/
theorem due_of_settled (hf : a.Finds p.needle) (hsound : p.sound = true) (h : p.Settled t) {b : Bool}
    (hb : b ∈ due p.placement p.content (a.cuts t)) : b = false := by
  have hcarries := @h.carries p a t hf
  unfold Plan.Carries at hcarries
  cases hp : p.placement with
  | «over» =>
    simp only [hp, due, List.mem_map] at hb hcarries
    obtain ⟨s, hs, -⟩ := hb
    obtain ⟨front, rest, hs⟩ := List.append_of_mem hs
    exact absurd (hcarries hs) id
  | after =>
    simp only [hp, due, List.mem_map] at hb hcarries
    obtain ⟨s, hs, rfl⟩ := hb
    obtain ⟨front, rest, hs⟩ := List.append_of_mem hs
    obtain ⟨u, w, hw, hfree⟩ := hcarries hs
    have hsplits := hf.splits_cuts t
    rw [hs] at hsplits
    have hac := (Plan.sound_after hsound hp).2.1
    have hin := infix_of_carries_after hac (hsplits.segment hf.text_ne_nil).2.2 hw hfree
    rw [Occurrence.occursIn_iff_infix.mpr hin]
    rfl
  | before =>
    simp only [hp, due] at hb hcarries
    obtain ⟨front, s, rest, hs, rfl⟩ := mem_dueBefore hb
    have hsuffix := hcarries hs
    rw [Occurrence.endsWith, List.isSuffixOf_iff_suffix.mpr hsuffix]
    rfl

/-- **An edit leaves a settled text as it is and has nothing to do.** -/
theorem amend_of_settled (hf : a.Finds p.needle) (hsound : p.sound = true) (h : p.Settled t) :
    (p.amend a t).text = t ∧ (p.amend a t).status ≠ .applied := by
  have hcount : (due p.placement p.content (a.cuts t)).count true = 0 :=
    List.count_eq_zero.mpr fun hb => Bool.noConfusion (due_of_settled hf hsound h hb)
  unfold Plan.amend amend amendAt unmatched
  dsimp only
  rw [hcount]
  split
  · refine ⟨rfl, ?_⟩
    split <;> simp
  · simp

end

/-! ## The text of an edit -/

section
variable {placement : Placement} {content : Text}

/-- A match at which nothing is due stays. -/
theorem written_false (hp : placement ≠ .over) (s : Segment) :
    written placement content s false = s.found ++ s.after := by
  cases placement with
  | «over» => exact absurd rfl hp
  | after => simp [written]
  | before => rfl

/-- Without anything due the pieces make up the old text. -/
theorem flatten_written (hp : placement ≠ .over) :
    ∀ {segments : List Segment} {flags : List Bool}, flags.length = segments.length → (∀ b ∈ flags, b = false) →
      (List.zipWith (written placement content) segments flags).flatten = Segment.flat segments
  | [], [], _, _ => rfl
  | s :: rest, b :: flags, hlength, hflags => by
    have ih := flatten_written hp (Nat.succ.inj hlength) (fun b hb => hflags b (List.mem_cons_of_mem _ hb))
    rw [List.zipWith_cons_cons, List.flatten_cons, ih, hflags b List.mem_cons_self, written_false hp,
      Segment.flat_cons, List.append_assoc]

/-- The text of an edit is what its pieces make up, also where nothing is due. -/
theorem text_amendAt (placement : Placement) (content : Text) {t : Text} {cuts : Cuts} (hwhole : cuts.whole = t) :
    (amendAt placement content t cuts).text = assemble placement content cuts := by
  have hwhole : cuts.head ++ Segment.flat cuts.segments = t := hwhole
  unfold amendAt
  dsimp only
  split
  · rename_i he
    rw [List.isEmpty_iff.mp he, Segment.flat_nil, List.append_nil] at hwhole
    simp [assemble, List.isEmpty_iff.mp he, hwhole]
  split
  · rename_i he hcount
    have hflags : ∀ b ∈ due placement content cuts, b = false := by
      intro b hb
      cases b with
      | false => rfl
      | true => exact absurd hb (List.count_eq_zero.mp hcount)
    have hp : placement ≠ .over := by
      rintro rfl
      obtain ⟨s, hs⟩ := List.exists_mem_of_ne_nil _ (fun e => he (List.isEmpty_iff.mpr e))
      have htrue : true ∈ due .over content cuts := List.mem_map.mpr ⟨s, hs, rfl⟩
      exact Bool.noConfusion (hflags true htrue)
    rw [assemble, flatten_written hp (length_due ..) hflags, hwhole]
  · rfl

theorem text_amend (placement : Placement) (a : Anchor) (content t : Text) :
    (amend placement a content t).text = assemble placement content (a.cuts t) :=
  text_amendAt placement content (a.whole_cuts t)

/-- There is an edit for every match at which something is due. -/
theorem edits_amendAt (placement : Placement) (content t : Text) (cuts : Cuts) :
    (amendAt placement content t cuts).edits = (due placement content cuts).count true := by
  unfold amendAt
  dsimp only
  split
  · rename_i hempty
    have hlength := length_due placement content cuts
    rw [List.isEmpty_iff.mp hempty] at hlength
    rw [List.eq_nil_of_length_eq_zero hlength]
    rfl
  · split
    · rename_i hzero
      exact hzero.symm
    · rfl

theorem edits_amend (placement : Placement) (anchor : Anchor) (content t : Text) :
    (amend placement anchor content t).edits = (due placement content (anchor.cuts t)).count true :=
  edits_amendAt placement content t (anchor.cuts t)

end

/-! ## An edit in steps -/

section
variable {p : Plan} {a : Anchor} {t : Text}

theorem written_eq (s : Segment) (isDue : Bool) (hfound : s.found = p.needle.text) :
    written p.placement p.content s isDue =
      (if isDue = true ∨ p.placement = .over then p.around else p.needle.text) ++ s.after := by
  cases hp : p.placement <;> cases isDue <;> simp [written, Plan.around, hp, hfound]

theorem Plan.text_amend (p : Plan) (a : Anchor) (t : Text) :
    (p.amend a t).text = assemble p.placement p.content (a.cuts t) :=
  Patch.text_amend ..

theorem assemble_induction {Q : Text → Prop}
    (step : ∀ x y, Q (x ++ p.needle.text ++ y) → Q (x ++ p.around ++ y)) :
    ∀ {segments : List Segment} {flags : List Bool} (done : Text),
      (∀ s ∈ segments, s.found = p.needle.text) → flags.length = segments.length →
        Q (done ++ Segment.flat segments) →
          Q (done ++ (List.zipWith (written p.placement p.content) segments flags).flatten)
  | [], [], done, _, _, h => h
  | s :: rest, b :: flags, done, hfound, hlength, h => by
    have hs := hfound s List.mem_cons_self
    have ih := fun done => @assemble_induction Q step rest flags done
      (fun s hs => hfound s (List.mem_cons_of_mem _ hs)) (Nat.succ.inj hlength)
    rw [Segment.flat_cons, hs, ← List.append_assoc] at h
    rw [List.zipWith_cons_cons, List.flatten_cons, written_eq s b hs, ← List.append_assoc,
      ← List.append_assoc]
    refine ih _ ?_
    rw [List.append_assoc]
    split
    · exact step done _ h
    · exact h

/-- **What survives a change of one needle survives the edit.** -/
theorem amend_induction (hf : a.Finds p.needle) {Q : Text → Prop}
    (step : ∀ x y, Q (x ++ p.needle.text ++ y) → Q (x ++ p.around ++ y)) (h : Q t) :
    Q (p.amend a t).text := by
  rw [Plan.text_amend, assemble]
  refine assemble_induction step _ (fun s hs => (hf.splits_cuts t).found_eq hs) (length_due ..) ?_
  rwa [← Cuts.whole_eq_flat, Anchor.whole_cuts]

/-- An edit makes no carriage return. -/
theorem not_mem_amend (hf : a.Finds p.needle) (hp : '\r' ∉ p.content) (h : '\r' ∉ t) :
    '\r' ∉ (p.amend a t).text := by
  refine amend_induction hf (Q := fun t => '\r' ∉ t) (fun x y h => ?_) h
  cases hplacement : p.placement <;> simp_all [Plan.around]

end

end Patch

end FlowTypes
