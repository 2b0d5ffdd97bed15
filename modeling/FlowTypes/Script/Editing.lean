import FlowTypes.Script.Matching

/-!
# Editing commands

A stream editor runs its commands on each line of what it reads. A command has a range of lines and a deed; a block
is a command that leads behind its end where it does not apply. The commands are a list, and labels are places in
it.
-/

namespace FlowTypes.Script.Editing

/-- What is looked for: a pattern, or again the last one that was looked for. -/
inductive Sought where
  | pattern (p : Matching.Pattern)
  | last

/-- An address of lines. -/
inductive Address where
  | line (n : Nat)
  /-- A line and each one so many lines further on. -/
  | steps (first step : Nat)
  | lastLine
  | sought (s : Sought)

/-- Where a range ends. -/
inductive Goal where
  | address (a : Address)
  | further (n : Nat)
  | multiple (n : Nat)

/-- The lines that a command applies to. A range without a first address holds all lines. -/
structure Range where
  first : Option Address
  second : Option Goal
  negated : Bool

/-- How letters are changed in what replaces a match. -/
inductive Casing where
  | upper
  | lower
  | plain
  | nextUpper
  | nextLower
  deriving DecidableEq, Repr

/-- A part of what replaces a match. -/
inductive Piece where
  | text (t : Text)
  | group (number : Nat)
  | casing (c : Casing)
  deriving DecidableEq, Repr

/-- Matches are replaced: all from one on, or only one. -/
structure Substitution where
  sought : Sought
  pieces : List Piece
  everywhere : Bool
  number : Nat
  printed : Bool
  file : Option Text

/-- When a jump is made. -/
inductive Jump where
  | always
  | ifReplaced
  | unlessReplaced
  deriving DecidableEq, Repr

/-- What a command does. -/
inductive Deed where
  /-- A block that ends at a place. -/
  | block (stop : Nat)
  | nothing
  | append (t : Text)
  | insert (t : Text)
  | change (t : Text)
  | jump (when_ : Jump) (label : Text)
  | delete
  | deleteLine
  | get
  | getAdd
  | hold
  | holdAdd
  | exchange
  | next
  | nextAdd
  | print
  | printLine
  | quit (status : Nat) (printing : Bool)
  | number
  | list (width : Option Nat)
  | readFile (name : Text)
  | readLine (name : Text)
  | writeFile (name : Text)
  | writeLine (name : Text)
  | substitute (s : Substitution)
  | exchangeLetters (table : List (Text × Text))
  | fileName
  | clear

/-- A command. -/
structure Command where
  range : Range
  deed : Deed

/-- Commands and the places of labels in them. -/
structure Edit where
  commands : Array Command
  labels : List (Text × Nat)
  /-- The first line asks for no printing. -/
  silent : Bool

/-- The file that a command writes to. -/
def Command.file? (c : Command) : Option Text :=
  match c.deed with
  | .writeFile name | .writeLine name => some name
  | .substitute s => s.file
  | _ => none

/-! ## Replacing -/

/-- A letter in upper or lower case. -/
def withCase (upper : Bool) (t : Text) : Text :=
  match t with
  | [c] => [if upper then c.toUpper else c.toLower]
  | _ => if upper then t else Matching.textOf ((Matching.symbolsOf t).map Matching.lower)

/-- A text in the case that is asked for; `lasting` is for all letters and `once` for the first one. -/
def cased (lasting : Casing) (once : Option Casing) (t : Text) : Text × Option Casing :=
  match Raw.chars t with
  | [] => ([], once)
  | first :: rest =>
    let put (c : Casing) (letter : Text) : Text :=
      match c with
      | .upper | .nextUpper => withCase true letter
      | .lower | .nextLower => withCase false letter
      | .plain => letter
    (put (once.getD lasting) first ++ rest.flatMap (put lasting), none)

/-- What replaces a match. `groups` gives the text of a group. -/
def replacement (groups : Nat → Text) : Casing → Option Casing → List Piece → Text
  | _, _, [] => []
  | lasting, _, .casing c :: rest =>
    match c with
    | .nextUpper | .nextLower => replacement groups lasting (some c) rest
    | _ => replacement groups c none rest
  | lasting, once, .text t :: rest =>
    let (t, once) := cased lasting once t
    t ++ replacement groups lasting once rest
  | lasting, once, .group n :: rest =>
    let (t, once) := cased lasting once (groups n)
    t ++ replacement groups lasting once rest

/-- Symbols with matches replaced, and whether there was one. `count` is the number of the next match; an empty
match right behind another one does not count. -/
def replaced (p : Matching.Pattern) (s : Substitution) (all : List Matching.Symbol) : (fuel : Nat) →
    (count : Nat) → (position : Nat) → (before : Option Matching.Symbol) → (behindMatch : Bool) →
    List Matching.Symbol → Text × Bool
  | 0, _, _, _, _, rest => (Matching.textOf rest, false)
  | fuel + 1, count, position, before, behindMatch, rest =>
    match p.search before position rest with
    | none => (Matching.textOf rest, false)
    | some m =>
      let skipped := rest.take (m.start - position)
      let found := (rest.drop (m.start - position)).take (m.stop - m.start)
      let after := rest.drop (m.stop - position)
      let last := found.getLast?.or (skipped.getLast?.or before)
      let onward (count : Nat) (behindMatch : Bool) (done : Text) : Text × Bool :=
        -- behind an empty match, one symbol is passed over
        if found.isEmpty then
          match after with
          | [] => (done, false)
          | c :: others =>
            let (t, any) := replaced p s all fuel count (m.stop + 1) (some c) false others
            (done ++ Matching.textOf [c] ++ t, any)
        else
          let (t, any) := replaced p s all fuel count m.stop last behindMatch after
          (done ++ t, any)
      let start := Matching.textOf skipped
      if found.isEmpty && behindMatch && skipped.isEmpty then onward count false start
      else if count < s.number then onward (count + 1) true (start ++ Matching.textOf found)
      else
        let group (n : Nat) : Text :=
          match m.group? n with
          | some range => Matching.textOf (Matching.part all range)
          | none => []
        let new := start ++ replacement group .plain none s.pieces
        if s.everywhere then
          let (t, _) := onward (count + 1) true new
          (t, true)
        else (new ++ Matching.textOf after, true)

/-- A text with matches replaced; none if there is no match that counts. -/
def Substitution.apply? (s : Substitution) (p : Matching.Pattern) (t : Text) : Option Text :=
  let symbols := Matching.symbolsOf t
  let (new, any) := replaced p s symbols (symbols.length + 2) 1 0 none false symbols
  if any then some new else none

/-! ## Showing a line -/

/-- A character as it is shown by letters and digits. -/
def visible (c : Char) : Text :=
  match [('\\', '\\'), ('\x07', 'a'), ('\x08', 'b'), ('\x0c', 'f'), ('\n', 'n'), ('\r', 'r'), ('\t', 't'),
      ('\x0b', 'v')].lookup c with
  | some letter => ['\\', letter]
  | none =>
    let n := c.toNat
    if 32 ≤ n && n < 127 then [c]
    else '\\' :: [n / 64, n / 8 % 8, n % 8].map Nat.digitChar

/-- A line as it is shown, folded to a width; a width of zero is none. -/
def shownLine (width : Nat) (t : Text) : Text := go 0 (t.map visible)
where
  go (column : Nat) : List Text → Text
    | [] => ['$', '\n']
    | shown :: rest =>
      if 0 < width && width - 1 < column + shown.length then '\\' :: '\n' :: shown ++ go shown.length rest
      else shown ++ go (column + shown.length) rest

end FlowTypes.Script.Editing
