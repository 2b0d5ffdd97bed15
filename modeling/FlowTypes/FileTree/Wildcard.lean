import FlowTypes.Text

/-!
# Wildcards in names

A pattern for one name: `*` stands for any characters, `?` for one, and brackets for one of a set. After
an exclamation mark the set is the one of all other characters, `a-c` is a range, and a bracket right at
the start of the set belongs to it. A set that is not closed is an ordinary bracket. Letter case counts,
and a leading dot is nothing special.

A range that runs backwards holds nothing, and its two ends are not in the set either; what stands
around it closes up. If what is left starts with an exclamation mark, that mark negates, and a hyphen right
behind it is a member.
-/

namespace FlowTypes.Wildcard

/-- One place of a pattern. -/
inductive Mark where
  | many
  | one
  | exact (c : Char)
  | set (negated : Bool) (members : Text) (ranges : List (Char × Char))
  deriving DecidableEq, Repr

/-! ## Sets -/

/-- The set that an opening bracket begins, up to but without the bracket that closes it. -/
def setBody? (t : Text) : Option Text :=
  let (bang, t) := match t with
    | '!' :: rest => (['!'], rest)
    | _ => ([], t)
  let (bracket, t) := match t with
    | ']' :: rest => ([']'], rest)
    | _ => ([], t)
  let body := t.takeWhile (· != ']')
  if body.length = t.length then none else some (bang ++ bracket ++ body)

/-- A set cut at the hyphens of its ranges. A hyphen makes a range if at least `least` characters stand
before it since the last one; `seen` holds them, last first. -/
def chunksFrom (least : Nat) (seen : Text) : Text → List Text
  | [] => [seen.reverse]
  | c :: rest =>
    if c == '-' && least ≤ seen.length then seen.reverse :: chunksFrom 2 [] rest
    else chunksFrom least (c :: seen) rest

/-- A hyphen at the very end makes no range. -/
def closeChunks : List Text → List Text
  | [] => []
  | [chunk, []] => [chunk ++ ['-']]
  | chunk :: rest => chunk :: closeChunks rest

/-- The chunks without the ranges that run backwards. -/
def dropBackward : List Text → List Text
  | [] => []
  | chunk :: rest =>
    match dropBackward rest with
    | [] => [chunk]
    | next :: others =>
      match chunk.getLast?, next with
      | some high, low :: after =>
        if low.toNat < high.toNat then (chunk.dropLast ++ after) :: others
        else chunk :: next :: others
      | _, _ => chunk :: next :: others

/-- The ranges between neighbouring chunks. -/
def rangesOf : List Text → List (Char × Char)
  | chunk :: next :: rest =>
    match chunk.getLast?, next with
    | some low, high :: _ => (low, high) :: rangesOf (next :: rest)
    | _, _ => rangesOf (next :: rest)
  | _ => []

/-- The set with this body. -/
def setOf (body : Text) : Mark :=
  let (negated, inner) := match body with
    | '!' :: rest => (true, rest)
    | _ => (false, body)
  let chunks := dropBackward (closeChunks (chunksFrom 1 [] inner))
  match negated, chunks with
  | false, ['!'] :: next :: rest => .set true ('-' :: (next :: rest).flatten) (rangesOf (next :: rest))
  | false, ('!' :: chunk) :: rest => .set true (chunk :: rest).flatten (rangesOf (chunk :: rest))
  | _, _ => .set negated chunks.flatten (rangesOf chunks)

/-! ## Patterns -/

/-- The marks of a pattern after `skip` characters. -/
def marksFrom (skip : Nat) : Text → List Mark
  | [] => []
  | c :: rest =>
    match skip with
    | k + 1 => marksFrom k rest
    | 0 =>
      if c == '*' then .many :: marksFrom 0 rest
      else if c == '?' then .one :: marksFrom 0 rest
      else if c == '[' then
        match setBody? rest with
        | some body => setOf body :: marksFrom (body.length + 1) rest
        | none => .exact c :: marksFrom 0 rest
      else .exact c :: marksFrom 0 rest

/-- The marks of a pattern. -/
def marks (pattern : Text) : List Mark := marksFrom 0 pattern

/-- The character is in the set. -/
def inSet (members : Text) (ranges : List (Char × Char)) (c : Char) : Bool :=
  members.contains c || ranges.any fun r => r.1.toNat ≤ c.toNat && c.toNat ≤ r.2.toNat

/-- A mark for one character admits this one. -/
def Mark.admits (c : Char) : Mark → Bool
  | many => false
  | one => true
  | exact d => c == d
  | set negated members ranges => inSet members ranges c != negated

/-- Each truth of a list together with those behind it: one of them holds. -/
def laterHolds : List Bool → List Bool
  | [] => []
  | b :: rest =>
    match laterHolds rest with
    | [] => [b]
    | later :: others => (b || later) :: later :: others

/-- For each place of a text, whether all that is left of it from there on fits the marks. -/
def fitsFrom : List Mark → Text → List Bool
  | [], t => t.map (fun _ => false) ++ [true]
  | .many :: rest, t => laterHolds (fitsFrom rest t)
  | mark :: rest, t => List.zipWith (fun c fits => mark.admits c && fits) t (fitsFrom rest t).tail ++ [false]

/-- The whole name fits the marks. -/
def fits (marks : List Mark) (t : Text) : Bool := (fitsFrom marks t).headD false

/-- A text with a star, a question mark or an opening bracket is a pattern. -/
def isPattern (t : Text) : Bool := t.any fun c => c == '*' || c == '?' || c == '['

end FlowTypes.Wildcard
