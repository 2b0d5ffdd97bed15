import FlowTypes.Pattern.Reader
import FlowTypes.Text.Occurrence

/-!
# Anchors

An anchor is what an edit looks for: a text taken literally, or a pattern. It cuts a text at its
matches, taken from the left without overlap: what lies before the first match, and then each match with
what lies between it and the next. `Cuts.whole` puts the pieces together again, and `whole_cutFrom` says
that nothing is lost or made up, whatever the matches are.

Matches may be empty. An empty match may follow right after another match, but not after an empty one at
the same place: there the next best match that holds a character is taken, if there is one.

## Termination

The scan goes character by character and counts down those that belong to the match under way.
-/

namespace FlowTypes

/-! ## Cuts -/

/-- A match, and what follows it up to the next match or the end of the text. -/
structure Segment where
  found : Text
  after : Text
  deriving DecidableEq, Repr

/-- A text cut at matches: what lies before the first one, and the matches with what follows each. -/
structure Cuts where
  head : Text
  segments : List Segment
  deriving DecidableEq, Repr

namespace Cuts

/-- The text that was cut. -/
def whole (cuts : Cuts) : Text := cuts.head ++ cuts.segments.flatMap fun s => s.found ++ s.after

/-- One more character before the first match. -/
def extend (c : Char) (cuts : Cuts) : Cuts := { cuts with head := c :: cuts.head }

/-- One more match before everything. -/
def startWith (found : Text) (cuts : Cuts) : Cuts := ⟨[], ⟨found, cuts.head⟩ :: cuts.segments⟩

/-- The lengths of the best match that starts at a place; with `moving`, of the best that is not
empty. -/
abbrev Probe := (moving : Bool) → Pattern.Place → Option Nat

/-- The cuts of what is left of a text after `skip` characters, which belong to the match under way. -/
def cutFrom (probe : Probe) (skip position : Nat) (previous : Option Char) : Text → Cuts
  | [] =>
    if skip = 0 && (probe false ⟨position, previous, []⟩).isSome then startWith [] ⟨[], []⟩ else ⟨[], []⟩
  | c :: rest =>
    match skip with
    | k + 1 => cutFrom probe k (position + 1) (some c) rest
    | 0 =>
      let further (skip : Nat) : Cuts := cutFrom probe skip (position + 1) (some c) rest
      match probe false ⟨position, previous, c :: rest⟩ with
      | none => (further 0).extend c
      | some 0 =>
        -- an empty match is recorded, and a longer one may follow it at the same place
        match probe true ⟨position, previous, c :: rest⟩ with
        | none | some 0 => ((further 0).extend c).startWith []
        | some (n + 1) => ((further n).startWith ((c :: rest).take (n + 1))).startWith []
      | some (n + 1) => (further n).startWith ((c :: rest).take (n + 1))

theorem whole_extend (c : Char) (cuts : Cuts) : (cuts.extend c).whole = c :: cuts.whole := rfl

theorem whole_startWith (found : Text) (cuts : Cuts) :
    (cuts.startWith found).whole = found ++ cuts.whole := by
  simp [whole, startWith]

/-- Cutting loses nothing: the pieces make up what was left of the text. -/
theorem whole_cutFrom (probe : Probe) :
    ∀ (t : Text) (skip position : Nat) (previous : Option Char),
      (cutFrom probe skip position previous t).whole = t.drop skip
  | [], skip, position, previous => by
    rw [cutFrom]; split <;> simp [whole, startWith]
  | c :: rest, 0, position, previous => by
    have ih := fun k => whole_cutFrom probe rest k (position + 1) (some c)
    rw [cutFrom]
    dsimp only
    split
    · rw [whole_extend, ih]; rfl
    · split <;> simp [whole_extend, whole_startWith, ih]
    · simp [whole_startWith, ih]
  | c :: rest, k + 1, position, previous => by
    rw [cutFrom, whole_cutFrom probe rest]; rfl

end Cuts

/-! ## Anchors -/

/-- What an edit looks for: a text taken literally, or a pattern with the form it was written in. -/
inductive Anchor where
  | literal (text : Text)
  | pattern (source : Text) (regex : Regex)
  deriving DecidableEq, Repr

namespace Anchor

/-- The anchor that a written pattern gives, if it is one. -/
def ofPattern? (source : Text) : Option Anchor :=
  (Pattern.read? source).map (.pattern source)

/-- An empty literal text looks for nothing; a pattern always looks for something. -/
def isVoid : Anchor → Bool
  | literal t => t.isEmpty
  | pattern _ _ => false

/-- How an anchor finds its matches in a text of at most `bound` characters. -/
def probe (bound : Nat) : Anchor → Cuts.Probe
  | literal t => fun moving p =>
    if t.isPrefixOf p.rest && !(moving && t.isEmpty) then some t.length else none
  | pattern _ r => fun moving p => r.matchLength? bound moving p

/-- A text cut at the matches of the anchor. -/
def cuts (a : Anchor) (t : Text) : Cuts := Cuts.cutFrom (a.probe t.length) 0 0 none t

/-- The anchor has a match in the text. -/
def occursIn (a : Anchor) (t : Text) : Bool := !(a.cuts t).segments.isEmpty

/-- The pieces between the matches and the matches themselves make up the text. -/
theorem whole_cuts (a : Anchor) (t : Text) : (a.cuts t).whole = t := Cuts.whole_cutFrom _ t 0 0 none

end Anchor

end FlowTypes
