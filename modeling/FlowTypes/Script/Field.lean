import FlowTypes.FileTree.Wildcard
import FlowTypes.Script.System

/-!
# Fields

What the words of a command become when they are expanded. Expansion gives items, characters mostly; the
separators among those that came from a value and were not quoted cut them into fields (`Field.split`); and a
field with a wildcard that was not quoted becomes the paths that it fits, if there are any (`Field.expand`).

A separator that is a blank only cuts where something stands before it. Any other separator ends a field
even if that is empty, together with the blanks around it.
-/

namespace FlowTypes.Script

/-- How a character of an expanded word is taken: as it stands in the script, as it came from a value, or
quoted. -/
inductive Mode where
  | plain
  | loose
  | firm
  deriving DecidableEq, Repr

/-- A part of an expanded word: a character, something that makes a field even if it is empty, or the end of a
field. -/
inductive Item where
  | char (c : Char) (mode : Mode)
  | mark
  | cut
  deriving DecidableEq, Repr

/-- A field: its characters, and for each of them whether it was quoted. -/
abbrev Field := List (Char × Bool)

namespace Field

/-- The text of a field. -/
def text (f : Field) : Text := f.map (·.1)

/-- The items of a text. A quoted one makes a field even if it is empty. -/
def itemsOf (t : Text) (mode : Mode) : List Item :=
  (if mode = .firm then [.mark] else []) ++ t.map (.char · mode)

/-! ## Cutting -/

/-- The character cuts what came from a value. -/
def isSeparator (separators : Text) (c : Char) (mode : Mode) : Bool := mode = .loose && separators.contains c

/-- A separator that is a blank. -/
def isBlank (c : Char) : Bool := c == ' ' || c == '\t' || c == '\n'

/-- The fields of some items. `under` holds the field under way, last character first; `gap` says what came
right before: a blank separator that ended a field may still be followed by one that is no blank. -/
def split (separators : Text) (under : Option Field) (gap : Bool) : List Item → List Field
  | [] => (under.map List.reverse).toList
  | .mark :: rest => split separators (some (under.getD [])) false rest
  | .cut :: rest => (under.map List.reverse).toList ++ split separators none false rest
  | .char c mode :: rest =>
    if isSeparator separators c mode then
      if isBlank c then
        match under with
        | some f => f.reverse :: split separators none true rest
        | none => split separators none gap rest
      else
        match under, gap with
        | some f, _ => f.reverse :: split separators none false rest
        | none, true => split separators none false rest
        | none, false => [] :: split separators none false rest
    else split separators (some ((c, mode = .firm) :: under.getD [])) false rest

/-- The items as one field that is not cut. -/
def joined (items : List Item) : Field :=
  items.filterMap fun
    | .char c mode => some (c, decide (mode = .firm))
    | _ => none

/-! ## Patterns -/

/-- The members of a class by its name. -/
def classRanges? (name : Text) : Option (List (Char × Char)) :=
  [(("alpha" : Text), [('A', 'Z'), ('a', 'z')]), ("digit", [('0', '9')]),
    ("alnum", [('0', '9'), ('A', 'Z'), ('a', 'z')]), ("upper", [('A', 'Z')]), ("lower", [('a', 'z')]),
    ("space", [('\t', '\x0d'), (' ', ' ')]), ("blank", [('\t', '\t'), (' ', ' ')]),
    ("punct", [('!', '/'), (':', '@'), ('[', '`'), ('\x7b', '~')]),
    ("cntrl", [('\x00', '\x1f'), ('\x7f', '\x7f')]), ("graph", [('!', '~')]), ("print", [(' ', '~')]),
    ("xdigit", [('0', '9'), ('A', 'F'), ('a', 'f')])].lookup name

/-- The class at the start of a set, behind its opening bracket and colon, and what follows it. -/
def takeClass (f : Field) : Option (List (Char × Char) × Field) :=
  let name := text (f.takeWhile (·.1.isAlpha))
  match f.drop name.length with
  | (':', _) :: (']', _) :: rest => (classRanges? name).map (·, rest)
  | _ => none

/-- The next member of a set and what follows it; a backslash gives the next character as it is. -/
def takeMember : Field → Option (Char × Field)
  | [] => none
  | ('\\', false) :: (c, _) :: rest => some (c, rest)
  | (c, _) :: rest => some (c, rest)

/-- The members and ranges of a set up to its closing bracket, and what follows it. With `first`, a bracket
is a member. -/
def takeSet : (fuel : Nat) → (first : Bool) → Field → Option (Text × List (Char × Char) × Field)
  | 0, _, _ => none
  | fuel + 1, first, f =>
    match f with
    | [] => none
    | (']', false) :: rest => if first then member fuel f else some ([], [], rest)
    | ('[', false) :: (':', false) :: rest =>
      match takeClass rest with
      | some (ranges, after) =>
        (takeSet fuel false after).map fun (members, others, left) => (members, ranges ++ others, left)
      | none => member fuel f
    | _ => member fuel f
where
  member (fuel : Nat) (f : Field) : Option (Text × List (Char × Char) × Field) := do
    let (c, rest) ← takeMember f
    match rest with
    | ('-', false) :: (']', false) :: _ =>
      (takeSet fuel false rest).map fun (members, others, left) => (c :: members, others, left)
    | ('-', false) :: after =>
      let (d, after) ← takeMember after
      (takeSet fuel false after).map fun (members, others, left) => (members, (c, d) :: others, left)
    | _ => (takeSet fuel false rest).map fun (members, others, left) => (c :: members, others, left)

/-- The marks of a field as a pattern. -/
def marks : (fuel : Nat) → Field → List Wildcard.Mark
  | 0, _ => []
  | _ + 1, [] => []
  | fuel + 1, (c, true) :: rest => .exact c :: marks fuel rest
  | fuel + 1, ('*', false) :: rest => .many :: marks fuel rest
  | fuel + 1, ('?', false) :: rest => .one :: marks fuel rest
  | fuel + 1, ('\\', false) :: (c, _) :: rest => .exact c :: marks fuel rest
  | fuel + 1, ('[', false) :: rest =>
    let (negated, inner) := match rest with
      | ('!', false) :: after => (true, after)
      | _ => (false, rest)
    match takeSet (inner.length + 1) true inner with
    | some (members, ranges, after) => .set negated members ranges :: marks fuel after
    | none => .exact '[' :: marks fuel rest
  | fuel + 1, (c, false) :: rest => .exact c :: marks fuel rest

/-- The field as a pattern. -/
def pattern (f : Field) : List Wildcard.Mark := marks (f.length + 1) f

/-- The field has a wildcard that was not quoted. -/
def isPattern (f : Field) : Bool := f.any fun (c, quoted) => !quoted && (c == '*' || c == '?' || c == '[')

/-- The text fits the field as a pattern. -/
def fits (f : Field) (t : Text) : Bool := Wildcard.fits f.pattern t

/-- A text without the longest or shortest part at its start that fits a field as a pattern. -/
def cutStart (f : Field) (longest : Bool) (t : Text) : Text :=
  -- a part at the start fits if it fits backwards
  let fitting := (Wildcard.fitsFrom f.pattern.reverse t.reverse).reverse
  let lengths := (List.range fitting.length).filter fun n => fitting.getD n false
  match (if longest then lengths.getLast? else lengths.head?) with
  | some n => t.drop n
  | none => t

/-- A text without the longest or shortest part at its end that fits a field as a pattern. -/
def cutEnd (f : Field) (longest : Bool) (t : Text) : Text :=
  let fitting := Wildcard.fitsFrom f.pattern t
  let starts := (List.range fitting.length).filter fun n => fitting.getD n false
  match (if longest then starts.head? else starts.getLast?) with
  | some n => t.take n
  | none => t

/-! ## Paths -/

/-- A field cut at its slashes. -/
def components : Field → List Field
  | [] => [[]]
  | (c, quoted) :: rest =>
    match components rest with
    | first :: others =>
      if c == '/' then [] :: first :: others else ((c, quoted) :: first) :: others
    | [] => [[(c, quoted)]]

/-- A field as a plain name: backslashes that were not quoted go away. -/
def plain : Field → Text
  | ('\\', false) :: (c, _) :: rest => c :: plain rest
  | (c, _) :: rest => c :: plain rest
  | [] => []

/-- The names in a directory that fit a field, as raw texts. A dot at the start must stand in the field. -/
def namesFitting (tree : FileTree) (loc : Location) (f : Field) : List Text :=
  let dotted := (plain f).head? = some '.'
  let names := (if dotted then [['.'], ['.', '.']] else []) ++ (tree.namesIn loc).map Raw.ofText
  let marks := f.pattern
  (names.filter fun name => Wildcard.fits marks name && (dotted || name.head? != some '.')).mergeSort Text.le

/-- The paths that fit the components below a location, `shown` before each. -/
def pathsFrom (tree : FileTree) (shown : Text) (loc : Location) : List Field → List Text
  | [] => [shown]
  | f :: rest =>
    let ending : Text := if rest.isEmpty then [] else ['/']
    let onward (name : Text) : List Text :=
      match tree.step loc (Raw.toText name) with
      | .error _ => []
      | .ok next =>
        let next := if name = (['.'] : Text) then loc else next
        match tree.get? next with
        | none => []
        | some entry =>
          if !rest.isEmpty && entry != .directory then []
          else pathsFrom tree (shown ++ name ++ ending) next rest
    if f.isEmpty then
      if rest.isEmpty then [shown]
      else pathsFrom tree (shown ++ ['/']) (if shown.isEmpty then [] else loc) rest
    else if isPattern f then (namesFitting tree loc f).flatMap onward
    else onward (plain f)

/-- What a field stands for: the paths that fit it, or its text. -/
def expand (tree : FileTree) (f : Field) : List Text :=
  if isPattern f then
    let paths := pathsFrom tree [] tree.workDir (components f)
    if paths.isEmpty then [text f] else paths
  else [text f]

end Field

end FlowTypes.Script
