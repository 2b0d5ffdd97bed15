import FlowTypes.Text.Class

/-!
# Patterns

Patterns over texts: characters, sets of characters, sequences, alternatives and repetitions, the two
ends of the text, and the boundary of a word. `Regex` is their structure, `Regex.run` their meaning.

A run goes from a place in a text to the end of a match. It prefers the first alternative and the
longer repetition and falls back to the others when what comes after fails, so it takes the rest of the
match as a continuation. A repetition does not go on after a round that moved nowhere, which is why the
length of the text bounds the number of rounds.
-/

namespace FlowTypes

namespace Pattern

/-- A member of a set of characters. -/
inductive Member where
  | range (low high : Char)
  | word
  | digit
  | blank
  deriving DecidableEq, Repr

/-- The character is such a member. -/
def Member.holds (c : Char) : Member → Bool
  | .range low high => low.toNat ≤ c.toNat && c.toNat ≤ high.toNat
  | .word => Text.Class.isWord c
  | .digit => Text.Class.isDigit c
  | .blank => Text.Class.isBlank c

end Pattern

/-- A pattern over texts. -/
inductive Regex where
  | empty
  | char (c : Char)
  | set (negated : Bool) (members : List Pattern.Member)
  | seq (first second : Regex)
  | either (first second : Regex)
  | star (body : Regex)
  | plus (body : Regex)
  | optional (body : Regex)
  | textStart
  | textEnd
  | wordBoundary
  deriving DecidableEq, Repr

namespace Pattern

/-- A place in a text: how many characters lie before it, the one right before it, and what follows. -/
structure Place where
  position : Nat
  previous : Option Char
  rest : Text
  deriving DecidableEq, Repr

/-- The place after the next character. -/
def Place.after (p : Place) (c : Char) (rest : Text) : Place := ⟨p.position + 1, some c, rest⟩

/-- A word starts or ends at the place. -/
def Place.atBoundary (p : Place) : Bool :=
  let word (c : Option Char) : Bool := (c.map Text.Class.isWord).getD false
  word p.previous != word p.rest.head?

/-- The place is the end of the text, or right before a line feed that ends it. -/
def Place.atEnd (p : Place) : Bool := p.rest = [] || p.rest = ['\n']

/-- The way from a place to the end of a match, given how the match goes on after it. -/
abbrev Run := Place → (Place → Option Place) → Option Place

/-- At most `rounds` rounds of a body, as many as possible, and then the rest of the match. -/
def rounds (body : Run) : (rounds : Nat) → Run
  | 0, p, k => k p
  | n + 1, p, k =>
    -- a round that moved nowhere is the last one, but what it decided is kept
    match body p (fun q => if q.position = p.position then k q else rounds body n q k) with
    | some r => some r
    | none => k p

end Pattern

/-- The runs of a pattern in a text of at most `bound` characters. -/
def Regex.run (bound : Nat) : Regex → Pattern.Run
  | .empty => fun p k => k p
  | .char d => fun p k =>
    match p.rest with
    | c :: rest => if c = d then k (p.after c rest) else none
    | [] => none
  | .set negated members => fun p k =>
    match p.rest with
    | c :: rest => if members.any (·.holds c) != negated then k (p.after c rest) else none
    | [] => none
  | .seq first second => fun p k => first.run bound p fun q => second.run bound q k
  | .either first second => fun p k =>
    match first.run bound p k with
    | some r => some r
    | none => second.run bound p k
  | .star body => fun p k => Pattern.rounds (body.run bound) bound p k
  | .plus body => fun p k => body.run bound p fun q => Pattern.rounds (body.run bound) bound q k
  | .optional body => fun p k =>
    match body.run bound p k with
    | some r => some r
    | none => k p
  | .textStart => fun p k => if p.previous.isNone then k p else none
  | .textEnd => fun p k => if p.atEnd then k p else none
  | .wordBoundary => fun p k => if p.atBoundary then k p else none

/-- The length of the match that starts at a place. With `moving`, a match has to hold at least one
character, and an empty one makes way for the next best. -/
def Regex.matchLength? (r : Regex) (bound : Nat) (moving : Bool) (p : Pattern.Place) : Option Nat :=
  (r.run bound p fun q => if moving && q.position == p.position then none else some q).map
    fun q => q.position - p.position

end FlowTypes
