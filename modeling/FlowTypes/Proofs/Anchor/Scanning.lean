import FlowTypes.Proofs.Anchor.Splitting
import FlowTypes.Proofs.Text.Spans

/-!
# Where the matches of an anchor lie

The cuts of a text are pieces. `Anchor.spans` says where in the text the matches among them lie. Spans that come from
cuts lie in the text one behind the other, whatever the matches are (`Anchor.inOrder_spans`).

Which matches these are is said without the scan by `Anchor.Scans`: each is the leftmost one that starts where the match
before it stopped, or later. After an empty match, a match at the same place has to hold a character. The scan of an
anchor finds these matches (`Anchor.scans_spans`), also of a pattern with empty matches.

## Why the scan gets ahead

A run of a pattern ends in the text it runs over (`Regex.reaches_run`), so a match is no longer than what is left, and a
match that has to move holds a character. This is what `scans_cutFrom` counts down by.
-/

namespace FlowTypes

/-! ## How far a run goes -/

namespace Pattern

@[simp]
theorem Place.past_nil (p : Place) : p.past [] = p := by
  simp [past, lastOr]

theorem Place.past_singleton {p : Place} {c : Char} {rest : Text} (h : p.rest = c :: rest) :
    p.past [c] = p.after c rest := by
  simp [past, after, lastOr, h]

/-- A run that gets through hands on a place further on in the same text, or the place where it began. -/
def Run.Reaches (run : Run) : Prop :=
  ∀ p k q, run p k = some q → ∃ s, s <+: p.rest ∧ k (p.past s) = some q

/-- Further on from a place further on is further on. -/
theorem exists_past_past {p : Place} {s : Text} {P : Place → Prop} (hs : s <+: p.rest)
    (h : ∃ t, t <+: (p.past s).rest ∧ P ((p.past s).past t)) : ∃ t, t <+: p.rest ∧ P (p.past t) := by
  obtain ⟨t, ht, hP⟩ := h
  obtain ⟨rest, hrest⟩ := hs
  refine ⟨s ++ t, ?_, by rwa [Place.past_append]⟩
  have hleft : (p.past s).rest = rest := by
    show p.rest.drop s.length = rest
    rw [← hrest, List.drop_left]
  rw [hleft] at ht
  rw [← hrest]
  exact (List.prefix_append_right_inj s).mpr ht

theorem reaches_rounds {body : Run} (hbody : body.Reaches) (n : Nat) : Run.Reaches (rounds body n) := by
  induction n with
  | zero =>
    intro p k q h
    exact ⟨[], List.nil_prefix, by rwa [Place.past_nil]⟩
  | succ n ih =>
    intro p k q h
    rw [rounds] at h
    cases hround : body p (fun q => if q.position = p.position then k q else rounds body n q k) with
    | none =>
      rw [hround] at h
      exact ⟨[], List.nil_prefix, by rwa [Place.past_nil]⟩
    | some q' =>
      rw [hround] at h
      obtain rfl : q' = q := Option.some.inj h
      obtain ⟨s, hs, hafter⟩ := hbody p _ q' hround
      split at hafter
      · exact ⟨s, hs, hafter⟩
      · exact exists_past_past (P := fun p => k p = some q') hs (ih _ k q' hafter)

end Pattern

open Pattern in
/-- **A run ends in the text it runs over.** -/
theorem Regex.reaches_run (bound : Nat) (r : Regex) : Run.Reaches (r.run bound) := by
  -- a test of the place, or nothing at all
  have hstay : ∀ {p : Place} {k : Place → Option Place} {q : Place}, k p = some q →
      ∃ s, s <+: p.rest ∧ k (p.past s) = some q :=
    fun {p k q} h => ⟨[], List.nil_prefix, by rwa [Place.past_nil]⟩
  induction r with
  | empty => exact fun p k q h => hstay h
  | char d =>
    intro p k q h
    simp only [run] at h
    split at h
    · rename_i c rest hrest
      split at h
      · exact ⟨[c], hrest ▸ List.prefix_append [c] rest, by rwa [Place.past_singleton hrest]⟩
      · cases h
    · cases h
  | set negated members =>
    intro p k q h
    simp only [run] at h
    split at h
    · rename_i c rest hrest
      split at h
      · exact ⟨[c], hrest ▸ List.prefix_append [c] rest, by rwa [Place.past_singleton hrest]⟩
      · cases h
    · cases h
  | seq first second ihfirst ihsecond =>
    intro p k q h
    obtain ⟨s, hs, h⟩ := ihfirst p _ q h
    exact exists_past_past (P := fun p => k p = some q) hs (ihsecond _ k q h)
  | either first second ihfirst ihsecond =>
    intro p k q h
    simp only [run] at h
    split at h
    · rename_i q' hfirst
      exact ihfirst p k q (hfirst.trans h)
    · exact ihsecond p k q h
  | star body ih => exact reaches_rounds ih bound
  | plus body ih =>
    intro p k q h
    obtain ⟨s, hs, h⟩ := ih p _ q h
    exact exists_past_past (P := fun p => k p = some q) hs (reaches_rounds ih bound _ k q h)
  | optional body ih =>
    intro p k q h
    simp only [run] at h
    split at h
    · rename_i q' hbody
      exact ih p k q (hbody.trans h)
    · exact hstay h
  | textStart | textEnd | wordBoundary =>
    intro p k q h
    simp only [run] at h
    split at h
    · exact hstay h
    · cases h

/-- A match is no longer than what is left of the text, and it holds a character if it has to. -/
theorem Anchor.le_of_probe {a : Anchor} {bound : Nat} {moving : Bool} {p : Pattern.Place} {n : Nat}
    (h : a.probe bound moving p = some n) : n ≤ p.rest.length ∧ (moving = true → n ≠ 0) := by
  cases a with
  | literal t =>
    simp only [probe, Option.ite_none_right_eq_some, Bool.and_eq_true, List.isPrefixOf_iff_prefix,
      Option.some.injEq] at h
    obtain ⟨⟨hat, hmoves⟩, rfl⟩ := h
    refine ⟨hat.length_le, ?_⟩
    rintro rfl hzero
    simp [List.eq_nil_of_length_eq_zero hzero] at hmoves
  | pattern source r =>
    simp only [probe, Regex.matchLength?, Option.map_eq_some_iff] at h
    obtain ⟨q, hrun, rfl⟩ := h
    obtain ⟨s, hs, hend⟩ := r.reaches_run bound p _ q hrun
    have hat : (p.past s).position = p.position + s.length := rfl
    have hlength := hs.length_le
    split at hend
    · cases hend
    · rename_i hmoved
      obtain rfl := Option.some.inj hend
      rw [hat] at hmoved ⊢
      simp only [Bool.and_eq_true, beq_iff_eq] at hmoved
      exact ⟨by omega, fun hmoving hzero => hmoved ⟨hmoving, by omega⟩⟩

/-! ## The spans of cuts -/

/-- Where the matches of segments lie, the first of which begins at a position. -/
def Segment.spans (position : Nat) : List Segment → List Span
  | [] => []
  | s :: rest =>
    ⟨position, position + s.found.length⟩ :: spans (position + s.found.length + s.after.length) rest

namespace Cuts

/-- Where the matches of cuts lie, which begin at a position. -/
def spansFrom (position : Nat) (cuts : Cuts) : List Span := Segment.spans (position + cuts.head.length) cuts.segments

theorem spansFrom_extend (position : Nat) (c : Char) (cuts : Cuts) :
    (cuts.extend c).spansFrom position = cuts.spansFrom (position + 1) := by
  show Segment.spans (position + (cuts.head.length + 1)) cuts.segments = _
  rw [← Nat.add_assoc, Nat.add_right_comm]
  rfl

theorem spansFrom_startWith (position : Nat) (found : Text) (cuts : Cuts) :
    (cuts.startWith found).spansFrom position =
      ⟨position, position + found.length⟩ :: cuts.spansFrom (position + found.length) := rfl

end Cuts

theorem Segment.inOrder_spans (position : Nat) (segments : List Segment) :
    Span.InOrder position (position + (flat segments).length) (spans position segments) := by
  induction segments generalizing position with
  | nil => exact Span.inOrder_nil _ _
  | cons s rest ih =>
    have ih := ih (position + s.found.length + s.after.length)
    have hlength : position + (flat (s :: rest)).length =
        position + s.found.length + s.after.length + (flat rest).length := by
      simp [flat_cons, Nat.add_assoc]
    rw [hlength, spans, Span.inOrder_cons_iff]
    refine ⟨Nat.le_refl _, Nat.le_add_right _ _, ?_, ?_, ih.apart⟩
    · show position + s.found.length ≤ _
      omega
    · intro s' hs'
      obtain ⟨hstart, hspan, hstop⟩ := ih.within s' hs'
      exact ⟨by show position + s.found.length ≤ _; omega, hspan, hstop⟩

/-! ## The spans of an anchor -/

/-- The place of a text at a position. -/
def Pattern.Place.within (t : Text) (position : Nat) : Pattern.Place :=
  ⟨position, (t.take position).getLast?, t.drop position⟩

namespace Anchor

/-- The length of the best match that starts at a position, or with `moving` of the best that is not empty. -/
def matchAt? (a : Anchor) (t : Text) (moving : Bool) (position : Nat) : Option Nat :=
  a.probe t.length moving (.within t position)

/-- Where the matches of the anchor lie in a text. -/
def spans (a : Anchor) (t : Text) : List Span := (a.cuts t).spansFrom 0

/-- **The matches of an anchor lie in the text one behind the other.** -/
theorem inOrder_spans (a : Anchor) (t : Text) : Span.InOrder 0 t.length (a.spans t) := by
  have hwhole : (a.cuts t).head ++ Segment.flat (a.cuts t).segments = t := a.whole_cuts t
  have hlength := congrArg List.length hwhole
  rw [List.length_append] at hlength
  obtain ⟨hwithin, hapart⟩ := Segment.inOrder_spans (0 + (a.cuts t).head.length) (a.cuts t).segments
  refine ⟨fun s hs => ?_, hapart⟩
  obtain ⟨-, hspan, hstop⟩ := hwithin s hs
  exact ⟨Nat.zero_le _, hspan, by omega⟩

/-- The spans are those of a scan from a position on, one after the other: the leftmost match, and then the matches from
where it stopped. With `moving`, a match at the position itself has to hold a character. -/
inductive Scans (a : Anchor) (t : Text) : (position : Nat) → (moving : Bool) → List Span → Prop
  | done {position : Nat} {moving : Bool}
      (hnone : ∀ k, position ≤ k → k ≤ t.length → a.matchAt? t (moving && k == position) k = none) :
      Scans a t position moving []
  | found {position k n : Nat} {moving : Bool} {spans : List Span} (hle : position ≤ k) (hbound : k ≤ t.length)
      (hnone : ∀ j, position ≤ j → j < k → a.matchAt? t (moving && j == position) j = none)
      (hmatch : a.matchAt? t (moving && k == position) k = some n) (hrest : Scans a t (k + n) (n == 0) spans) :
      Scans a t position moving (⟨k, k + n⟩ :: spans)

variable {a : Anchor} {t : Text} {position : Nat} {moving : Bool} {spans : List Span}

/-- A match lies in the text, and it holds a character if it has to. -/
theorem lies_of_matchAt? {n : Nat} (hle : position ≤ t.length) (h : a.matchAt? t moving position = some n) :
    position + n ≤ t.length ∧ (moving = true → n ≠ 0) := by
  obtain ⟨hlength, hmoves⟩ := le_of_probe h
  have hrest : (Pattern.Place.within t position).rest.length = t.length - position := List.length_drop
  exact ⟨by omega, hmoves⟩

/-- A scan goes on where no match starts. -/
theorem Scans.step (hnone : a.matchAt? t moving position = none) (h : a.Scans t (position + 1) false spans) :
    a.Scans t position moving spans := by
  -- further on, nothing is asked of a match
  have hfurther : ∀ {k}, position + 1 ≤ k → (moving && k == position) = false := by
    intro k hk
    rw [beq_false_of_ne (by omega), Bool.and_false]
  have hhere : a.matchAt? t (moving && position == position) position = none := by
    rwa [beq_self_eq_true, Bool.and_true]
  generalize hstart : position + 1 = start at h
  generalize hfree : false = free at h
  cases h with
  | done hrest =>
    subst hstart hfree
    refine .done fun k hk hbound => ?_
    rcases Nat.eq_or_lt_of_le hk with rfl | hk
    · exact hhere
    · rw [hfurther hk]
      exact hrest k hk hbound
  | found hle hbound hrest hmatch hafter =>
    subst hstart hfree
    refine .found (by omega) hbound (fun j hj hjk => ?_) ?_ hafter
    · rcases Nat.eq_or_lt_of_le hj with rfl | hj
      · exact hhere
      · rw [hfurther hj]
        exact hrest j hj hjk
    · rw [hfurther hle]
      exact hmatch

/-- A match right at the position. -/
theorem Scans.here {n : Nat} (hbound : position ≤ t.length) (hmatch : a.matchAt? t moving position = some n)
    (h : a.Scans t (position + n) (n == 0) spans) :
    a.Scans t position moving (⟨position, position + n⟩ :: spans) := by
  refine .found (Nat.le_refl _) hbound (fun j hj hjk => absurd hjk (by omega)) ?_ h
  rwa [beq_self_eq_true, Bool.and_true]

/-- At the end of the text there is no match that holds a character. -/
theorem Scans.atEnd (hnone : a.matchAt? t moving t.length = none) : a.Scans t t.length moving [] := by
  refine .done fun k hk hbound => ?_
  obtain rfl : k = t.length := by omega
  rwa [beq_self_eq_true, Bool.and_true]

/-- The cuts of what is left of a text from a position on. -/
def cutsFrom (a : Anchor) (t : Text) (position : Nat) : Cuts :=
  Cuts.cutFrom (a.probe t.length) 0 position (t.take position).getLast? (t.drop position)

/-- After what belongs to a match the cuts go on further in the text. -/
theorem cutFrom_eq_cutsFrom (a : Anchor) {t : Text} {position n : Nat} (h : position + n ≤ t.length) :
    Cuts.cutFrom (a.probe t.length) n position (t.take position).getLast? (t.drop position) =
      a.cutsFrom t (position + n) := by
  rw [Cuts.cutFrom_skip _ _ _ n _ (by rw [List.length_drop]; omega), List.drop_drop, cutsFrom, List.take_add,
    List.getLast?_append]
  rfl

/-- The cuts from the end of the text. -/
theorem cutsFrom_length (a : Anchor) (t : Text) :
    a.cutsFrom t t.length =
      if (a.matchAt? t false t.length).isSome then Cuts.startWith [] ⟨[], []⟩ else ⟨[], []⟩ := by
  rw [matchAt?, Pattern.Place.within, cutsFrom, List.drop_length, Cuts.cutFrom, decide_eq_true rfl, Bool.true_and]

/-- The cuts from a position inside of the text. -/
theorem cutsFrom_of_lt (a : Anchor) {t : Text} {position : Nat} (h : position < t.length) :
    a.cutsFrom t position =
      match a.matchAt? t false position with
      | none => (a.cutsFrom t (position + 1)).extend t[position]
      | some 0 =>
        match a.matchAt? t true position with
        | none | some 0 => ((a.cutsFrom t (position + 1)).extend t[position]).startWith []
        | some (n + 1) =>
          ((a.cutsFrom t (position + (n + 1))).startWith ((t.drop position).take (n + 1))).startWith []
      | some (n + 1) => (a.cutsFrom t (position + (n + 1))).startWith ((t.drop position).take (n + 1)) := by
  have hplace : (⟨position, (t.take position).getLast?, t[position] :: t.drop (position + 1)⟩ : Pattern.Place) =
      .within t position := by
    rw [Pattern.Place.within, List.drop_eq_getElem_cons h]
  have hlast : some t[position] = (t.take (position + 1)).getLast? := by
    rw [← List.take_append_getElem h, List.getLast?_concat]
  -- behind a match that is not empty
  have hbehind : ∀ {moving : Bool} {n : Nat}, a.matchAt? t moving position = some (n + 1) →
      Cuts.cutFrom (a.probe t.length) n (position + 1) (t.take (position + 1)).getLast? (t.drop (position + 1)) =
        a.cutsFrom t (position + (n + 1)) := by
    intro moving n hmatch
    have hbound := (lies_of_matchAt? (Nat.le_of_lt h) hmatch).1
    rw [cutFrom_eq_cutsFrom a (by omega), Nat.add_assoc, Nat.add_comm 1]
  rw [cutsFrom, List.drop_eq_getElem_cons h, Cuts.cutFrom]
  dsimp only
  rw [hplace, hlast, ← List.drop_eq_getElem_cons h]
  show (match a.matchAt? t false position with | none => _ | some 0 => _ | some (n + 1) => _) = _
  split
  · rfl
  · show (match a.matchAt? t true position with | none | some 0 => _ | some (n + 1) => _) = _
    split
    · rfl
    · rfl
    · rename_i hmatch
      rw [hbehind hmatch]
  · rename_i hmatch
    rw [hbehind hmatch]

/-- At the end of the text only an empty match may start, and only one. -/
theorem scans_cutsFrom_length (a : Anchor) (t : Text) :
    a.Scans t t.length false ((a.cutsFrom t t.length).spansFrom t.length) := by
  rw [cutsFrom_length]
  cases hfree : a.matchAt? t false t.length with
  | none => exact .atEnd hfree
  | some n =>
    obtain rfl : n = 0 := by
      have hbound := (lies_of_matchAt? (Nat.le_refl _) hfree).1
      omega
    have hdone : a.matchAt? t true t.length = none := by
      cases hmoves : a.matchAt? t true t.length with
      | none => rfl
      | some n =>
        obtain ⟨hbound, hpos⟩ := lies_of_matchAt? (Nat.le_refl _) hmoves
        exact absurd (by omega) (hpos rfl)
    exact .here (Nat.le_refl _) hfree (.atEnd hdone)

/-- **A scan finds the leftmost matches, one after the other.** -/
theorem scans_cutsFrom (a : Anchor) (t : Text) (position : Nat) (hle : position ≤ t.length) :
    a.Scans t position false ((a.cutsFrom t position).spansFrom position) := by
  induction hleft : t.length - position using Nat.strongRecOn generalizing position with
  | ind left ih =>
  subst hleft
  have hfound : ∀ {moving : Bool} {n : Nat}, a.matchAt? t moving position = some (n + 1) →
      a.Scans t position moving (((a.cutsFrom t (position + (n + 1))).startWith
        ((t.drop position).take (n + 1))).spansFrom position) := by
    intro moving n hmatch
    have hbound := (lies_of_matchAt? hle hmatch).1
    have htake : ((t.drop position).take (n + 1)).length = n + 1 := by
      rw [List.length_take, List.length_drop]
      omega
    rw [Cuts.spansFrom_startWith, htake]
    exact .here hle hmatch (ih _ (by omega) (position + (n + 1)) hbound rfl)
  rcases Nat.eq_or_lt_of_le hle with rfl | hlt
  · exact scans_cutsFrom_length a t
  · have hnext : ∀ {moving : Bool}, a.matchAt? t moving position = none → a.Scans t position moving
        (((a.cutsFrom t (position + 1)).extend t[position]).spansFrom position) := by
      intro moving hnone
      rw [Cuts.spansFrom_extend]
      exact .step hnone (ih _ (by omega) (position + 1) hlt rfl)
    rw [cutsFrom_of_lt a hlt]
    cases hfree : a.matchAt? t false position with
    | none => exact hnext hfree
    | some n =>
      cases n with
      | succ n => exact hfound hfree
      | zero =>
        -- an empty match, and then the best that holds a character, if there is one
        cases hmoves : a.matchAt? t true position with
        | none => exact .here hle hfree (hnext hmoves)
        | some n =>
          cases n with
          | zero => exact absurd rfl ((lies_of_matchAt? hle hmoves).2 rfl)
          | succ n => exact .here hle hfree (hfound hmoves)

/-- **The matches of an anchor are the leftmost ones**, one after the other. -/
theorem scans_spans (a : Anchor) (t : Text) : a.Scans t 0 false (a.spans t) :=
  scans_cutsFrom a t 0 (Nat.zero_le _)

end Anchor

end FlowTypes
