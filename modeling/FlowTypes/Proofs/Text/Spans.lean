import FlowTypes.Proofs.Text.Counting

/-!
# Spans of a list

A span is a stretch of a list, given by the positions where it starts and where it stops. Spans that lie one behind the
other (`Span.InOrder`) cut a list into the parts outside of them (`Span.outside`). `Span.splice` puts a word in place of
every span. An empty span is replaced as well: the word then stands between two symbols that stay.

Where the copies of the word stand in the new list is known from the spans alone (`Span.copies`):

* the copies lie in order, as the spans do (`inOrder_copies`);
* every copy reads the word (`read_of_mem_copies`);
* outside of the copies stands what stood outside of the spans (`outside_splice`).

If all the spans are empty, nothing of the old list goes, so the new list without the copies is the old one
(`without_splice`), and it is longer by the length of the copies (`length_splice`).
-/

namespace FlowTypes

/-- A stretch of a list, from one position up to another. -/
structure Span where
  start : Nat
  stop : Nat
  deriving DecidableEq, Repr

namespace Span

variable {α : Type}

/-- Nothing lies in the span. -/
def IsEmpty (s : Span) : Prop := s.start = s.stop

/-- What stands in the span. -/
def read (s : Span) (whole : List α) : List α := whole.extract s.start s.stop

/-- The spans lie one behind the other between two positions. They may touch, and they may be empty. -/
structure InOrder (first last : Nat) (spans : List Span) : Prop where
  within : ∀ s ∈ spans, first ≤ s.start ∧ s.start ≤ s.stop ∧ s.stop ≤ last
  apart : spans.Pairwise fun s s' => s.stop ≤ s'.start

/-- The parts from a position on that lie outside of the spans. -/
def outsideFrom (whole : List α) (position : Nat) : List Span → List (List α)
  | [] => [whole.drop position]
  | s :: spans => whole.extract position s.start :: outsideFrom whole s.stop spans

/-- The parts outside of the spans: before the first one, between any two, and behind the last one. -/
def outside (whole : List α) (spans : List Span) : List (List α) := outsideFrom whole 0 spans

/-- What is left when the spans are deleted. -/
def without (whole : List α) (spans : List Span) : List α := (outside whole spans).flatten

/-- The list with the word in place of every span. -/
def splice (word : List α) (spans : List Span) (whole : List α) : List α := word.intercalate (outside whole spans)

/-- The spans of copies of a certain width that stand in place of spans. In the old list the spans begin from `position`
on, in the new one the copies from `current` on. -/
def copiesFrom (width position current : Nat) : List Span → List Span
  | [] => []
  | s :: spans =>
    let start := current + (s.start - position)
    ⟨start, start + width⟩ :: copiesFrom width s.stop (start + width) spans

/-- Where copies of a certain width stand in place of spans. -/
def copies (width : Nat) (spans : List Span) : List Span := copiesFrom width 0 0 spans

/-! ## Spans in order -/

theorem inOrder_nil (first last : Nat) : InOrder first last [] := ⟨nofun, .nil⟩

/-- The first span begins from `first` on, and the others where it stops or later. -/
theorem inOrder_cons_iff {first last : Nat} {s : Span} {spans : List Span} :
    InOrder first last (s :: spans) ↔
      first ≤ s.start ∧ s.start ≤ s.stop ∧ s.stop ≤ last ∧ InOrder s.stop last spans := by
  constructor
  · rintro ⟨hwithin, hapart⟩
    obtain ⟨hfirst, hrest⟩ := List.pairwise_cons.mp hapart
    obtain ⟨hstart, hspan, hstop⟩ := hwithin s List.mem_cons_self
    refine ⟨hstart, hspan, hstop, fun s' hs' => ⟨hfirst s' hs', ?_⟩, hrest⟩
    exact (hwithin s' (List.mem_cons_of_mem s hs')).2
  · rintro ⟨hstart, hspan, hstop, hrest⟩
    refine ⟨fun s' hs' => ?_, List.pairwise_cons.mpr ⟨fun s' hs' => (hrest.within s' hs').1, hrest.apart⟩⟩
    rcases List.mem_cons.mp hs' with rfl | hs'
    · exact ⟨hstart, hspan, hstop⟩
    · obtain ⟨h, hspan', hstop'⟩ := hrest.within s' hs'
      exact ⟨by omega, hspan', hstop'⟩

/-! ## The parts outside of spans -/

theorem read_append (x m y : List α) : read ⟨x.length, x.length + m.length⟩ (x ++ m ++ y) = m := by
  simp [read]

theorem extract_append_left {x : List α} {position : Nat} (h : position ≤ x.length) (y : List α) :
    (x ++ y).extract position x.length = x.drop position := by
  have hdrop : (x ++ y).drop position = x.drop position ++ y := List.drop_append_of_le_length h
  show ((x ++ y).drop position).take (x.length - position) = x.drop position
  rw [hdrop, ← List.length_drop, List.take_left]

theorem length_extract (whole : List α) (i j : Nat) : (whole.extract i j).length = min (j - i) (whole.length - i) := by
  show ((whole.drop i).take (j - i)).length = _
  rw [List.length_take, List.length_drop]

theorem outsideFrom_ne_nil (whole : List α) (position : Nat) (spans : List Span) :
    outsideFrom whole position spans ≠ [] := by
  cases spans <;> exact List.cons_ne_nil _ _

theorem length_outsideFrom (whole : List α) (position : Nat) (spans : List Span) :
    (outsideFrom whole position spans).length = spans.length + 1 := by
  induction spans generalizing position with
  | nil => rfl
  | cons s spans ih => rw [outsideFrom, List.length_cons, ih, List.length_cons]

/-- Empty spans leave nothing out. -/
theorem flatten_outsideFrom (whole : List α) {first last : Nat} {spans : List Span} (h : InOrder first last spans)
    (hempty : ∀ s ∈ spans, s.IsEmpty) : (outsideFrom whole first spans).flatten = whole.drop first := by
  induction spans generalizing first with
  | nil => exact List.flatten_singleton
  | cons s spans ih =>
    obtain ⟨hstart, -, -, hrest⟩ := inOrder_cons_iff.mp h
    have hs : s.start = s.stop := hempty s List.mem_cons_self
    have hbehind : whole.drop s.stop = (whole.drop first).drop (s.stop - first) := by
      rw [List.drop_drop, Nat.add_sub_cancel' (hs ▸ hstart)]
    rw [outsideFrom, List.flatten_cons, ih hrest fun s' hs' => hempty s' (List.mem_cons_of_mem s hs'), hs, hbehind]
    exact List.take_append_drop (s.stop - first) (whole.drop first)

/-- The word between the parts around a span: one step. -/
theorem intercalate_outsideFrom_cons (word : List α) {x whole : List α} (hx : x <+: whole) {position : Nat}
    (h : position ≤ x.length) (stop : Nat) (spans : List Span) :
    word.intercalate (outsideFrom whole position (⟨x.length, stop⟩ :: spans)) =
      x.drop position ++ word ++ word.intercalate (outsideFrom whole stop spans) := by
  obtain ⟨y, rfl⟩ := hx
  rw [outsideFrom, List.intercalate_cons_of_ne_nil (outsideFrom_ne_nil _ stop spans), extract_append_left h y]

/-! ## The copies -/

/-- What is spliced in behind a front: the copies lie in order and read the word, and outside of them stands what stood
outside of the spans. -/
theorem copies_spliced (word whole : List α) {position : Nat} {spans : List Span}
    (h : InOrder position whole.length spans) (front : List α) :
    let new := front ++ word.intercalate (outsideFrom whole position spans)
    let copies := copiesFrom word.length position front.length spans
    InOrder front.length new.length copies ∧ (∀ c ∈ copies, c.read new = word) ∧
      outsideFrom new front.length copies = outsideFrom whole position spans := by
  induction spans generalizing position front with
  | nil =>
    refine ⟨inOrder_nil _ _, nofun, ?_⟩
    simp [copiesFrom, outsideFrom]
  | cons s spans ih =>
    obtain ⟨hstart, hspan, hstop, hrest⟩ := inOrder_cons_iff.mp h
    let part := whole.extract position s.start
    have hpart : part.length = s.start - position := by
      rw [length_extract]
      omega
    have hnew : front ++ word.intercalate (outsideFrom whole position (s :: spans)) =
        (front ++ part ++ word) ++ word.intercalate (outsideFrom whole s.stop spans) := by
      rw [outsideFrom, List.intercalate_cons_of_ne_nil (outsideFrom_ne_nil whole s.stop spans)]
      simp [part]
    obtain ⟨horder, hread, hkept⟩ := ih hrest (front ++ part ++ word)
    rw [← hnew] at horder hread hkept
    have hat : (front ++ part).length = front.length + (s.start - position) := by rw [List.length_append, hpart]
    have hbehind : (front ++ part ++ word).length = (front ++ part).length + word.length := List.length_append
    dsimp only
    rw [copiesFrom, ← hat, ← hbehind]
    refine ⟨inOrder_cons_iff.mpr ⟨?_, ?_, ?_, horder⟩, ?_, ?_⟩
    · exact (List.prefix_append front part).length_le
    · exact (List.prefix_append (front ++ part) word).length_le
    · rw [hnew]
      exact (List.prefix_append (front ++ part ++ word) _).length_le
    · intro c hc
      rcases List.mem_cons.mp hc with rfl | hc
      · rw [hnew, hbehind]
        exact read_append (front ++ part) word _
      · exact hread c hc
    · have hle : front.length ≤ (front ++ part).length := (List.prefix_append front part).length_le
      rw [outsideFrom, hkept, hnew, List.append_assoc (front ++ part), extract_append_left hle, List.drop_left]
      rfl

section
variable (word : List α) {whole : List α} {spans : List Span}

/-- The copies lie in the new list one behind the other. -/
theorem inOrder_copies (h : InOrder 0 whole.length spans) :
    InOrder 0 (splice word spans whole).length (copies word.length spans) :=
  (copies_spliced word whole h []).1

/-- **Every copy reads the word.** -/
theorem read_of_mem_copies (h : InOrder 0 whole.length spans) {c : Span} (hc : c ∈ copies word.length spans) :
    c.read (splice word spans whole) = word :=
  (copies_spliced word whole h []).2.1 c hc

/-- **Outside of the copies stands what stood outside of the spans.** -/
theorem outside_splice (h : InOrder 0 whole.length spans) :
    outside (splice word spans whole) (copies word.length spans) = outside whole spans :=
  (copies_spliced word whole h []).2.2

/-- **Without the copies the list is as it was**, if nothing lay in the spans. -/
theorem without_splice (h : InOrder 0 whole.length spans) (hempty : ∀ s ∈ spans, s.IsEmpty) :
    without (splice word spans whole) (copies word.length spans) = whole := by
  rw [without, outside_splice word h]
  exact flatten_outsideFrom whole h hempty

/-- **The list is longer by the copies**, if nothing lay in the spans. -/
theorem length_splice (h : InOrder 0 whole.length spans) (hempty : ∀ s ∈ spans, s.IsEmpty) :
    (splice word spans whole).length = whole.length + spans.length * word.length := by
  have hlength := Occurrence.length_intercalate word (outsideFrom_ne_nil whole 0 spans)
  rw [flatten_outsideFrom whole h hempty, List.drop_zero, length_outsideFrom, Nat.mul_succ, Nat.mul_comm] at hlength
  show (word.intercalate (outsideFrom whole 0 spans)).length = _
  omega

end

example : splice [0] [⟨1, 1⟩, ⟨2, 4⟩] [1, 2, 3, 4, 5] = [1, 0, 2, 0, 5] := by decide

end Span

end FlowTypes
