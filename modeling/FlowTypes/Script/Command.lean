import FlowTypes.Script.Raw

/-!
# Commands of a script

A script is a list of commands. A command is a call, which may assign values to names and redirect its
channels, or it is put together from other commands.

A word of a call is a list of pieces: text as it stands, and things that are expanded when the word is used,
which are the value of a name, the output of a script, and a sum.
-/

namespace FlowTypes.Script

/-- What an operator behind a name in braces makes of its value: its length, or something else in place of a
value that is missing or present, or a value without what fits a pattern at its start or end. -/
inductive Operator where
  | plain
  | length
  | orElse
  | assign
  | demand
  | instead
  | cutStart (longest : Bool)
  | cutEnd (longest : Bool)
  /-- Something that is no operator. -/
  | bad
  deriving DecidableEq, Repr, Inhabited

/-- Where a redirection leads. -/
inductive Direction where
  | input
  | output
  /-- Over a file that is there, whatever the options say. -/
  | force
  | append
  | both
  | duplicate
  /-- To a text that stands in the script (a here-document). -/
  | document
  deriving DecidableEq, Repr, Inhabited

mutual

/-- A part of a word. Quoted parts are neither split nor taken for patterns. With `colon`, an operator takes
an empty value for a missing one. -/
inductive Piece where
  | text (t : Text) (quoted : Bool)
  | value (name : Text) (operator : Operator) (colon : Bool) (operand : List Piece) (quoted : Bool)
  | output (script : List Command) (quoted : Bool)
  | sum (expression : List Piece) (quoted : Bool)

/-- A redirection of a numbered channel. The words of documents are kept apart, under numbers. -/
inductive Redirect where
  | toWord (channel : Nat) (direction : Direction) (target : List Piece)
  | toDocument (channel number : Nat)

/-- A command. It knows its line where a complaint may name it. -/
inductive Command where
  | call (line : Nat) (assignments : List (Text × List Piece)) (words : List (List Piece))
      (redirects : List Redirect)
  | redirected (line : Nat) (body : Command) (redirects : List Redirect)
  | pipe (stages : List Command)
  | inverted (body : Command)
  | both (first second : Command)
  | either (first second : Command)
  | row (body : List Command)
  | apart (body : List Command)
  | branch (condition body otherwise : List Command)
  | loop (wanted : Bool) (condition body : List Command)
  | each (line : Nat) (name : Text) (words : Option (List (List Piece))) (body : List Command)
  | choose (line : Nat) (subject : List Piece) (arms : List (List (List Piece) × List Command))
  | define (name : Text) (body : Command)
  | aside (body : Command)

end

instance : Inhabited Piece := ⟨.text [] false⟩

instance : Inhabited Command := ⟨.row []⟩

/-- A word. -/
abbrev Word := List Piece

/-! ## Names -/

/-- The first character of a name. -/
def startsName (c : Char) : Bool := c.isAlpha || c == '_'

/-- A further character of a name. -/
def continuesName (c : Char) : Bool := c.isAlphanum || c == '_'

/-- A text that can be the name of a value. -/
def isName (t : Text) : Bool :=
  match t with
  | c :: _ => startsName c && t.all continuesName
  | [] => false

/-- Names of one character that the shell gives a value. -/
def isSpecialName (c : Char) : Bool := c.isDigit || ("@*#?$!-".toList).contains c

/-- The name and the value that a word assigns, if it does. -/
def assignment? (w : Word) : Option (Text × Word) :=
  match w with
  | .text t false :: rest =>
    let name := t.takeWhile (· != '=')
    let value := t.drop (name.length + 1)
    if isName name && name.length < t.length then
      some (name, if value.isEmpty then rest else .text value false :: rest)
    else none
  | _ => none

/-- The text of a word that stands there without quotes and has nothing to expand. -/
def bare? (w : Word) : Option Text :=
  match w with
  | [.text t false] => some t
  | _ => none

/-- The text of a word with its quotes taken away, and whether it had any. -/
def unquoted (w : Word) : Text × Bool :=
  (w.flatMap fun p => match p with
    | .text t _ => t
    | _ => [],
  w.any fun p => match p with
    | .text _ quoted => quoted
    | _ => false)

end FlowTypes.Script
