import FlowTypes.Script.Raw
import FlowTypes.Text.Class
import FlowTypes.Text.Lower

/-!
# Matching

Tools look for the longest of the matches that start first. A pattern is a `Shape` over symbols; a symbol is a
character, or a byte that belongs to none (`symbolsOf`).

A shape is laid out as a list of nodes (`layOut`), and a search walks over the symbols with all ways through the
nodes at once. The ways are kept in the order of preference: the first alternative and one more round come first,
and of two ways to the same node only the first is kept, since what follows is the same for both. So the way that
is kept for the longest match is the preferred one, and its marks tell the groups (`Nodes.search`).

A shape that refers back to a group has no such layout, because what follows depends on the way. It is tried way
by way (`Shape.ways`).

## Termination

A step visits each node at most once. Rounds of a repetition that move nowhere are the last ones.
-/

namespace FlowTypes.Script.Matching

/-! ## Symbols -/

/-- The code of a character, or of a byte that belongs to none. -/
abbrev Symbol := Nat

/-- The codes from here on are bytes that belong to no character. -/
def strayStart : Nat := 0x110000

/-- The symbols of a raw text. -/
def symbolsOf (t : Text) : List Symbol :=
  (Utf8.units (Raw.toBytes t)).map fun item =>
    match item with
    | .char c => c.toNat
    | .stray b => strayStart + b.toNat

/-- Symbols as a raw text. -/
def textOf (symbols : List Symbol) : Text :=
  symbols.flatMap fun s =>
    if strayStart ≤ s then [Char.ofNat (s - strayStart)] else Raw.ofText [Char.ofNat s]

/-- The symbols of a raw text each byte of which is a character. -/
def bytesOf (t : Text) : List Symbol := t.map Char.toNat

/-- A symbol in lower case. -/
def lower (s : Symbol) : Symbol :=
  if s < 128 then (Char.ofNat s).toLower.toNat
  else if strayStart ≤ s then s
  else
    match Text.lower [Char.ofNat s] with
    | [c] => c.toNat
    | _ => s

/-- Letters, digits and the low line. -/
def isWord (s : Symbol) : Bool := s < strayStart && Text.Class.isWord (Char.ofNat s)

/-! ## Classes -/

/-- The classes of characters that have names. -/
inductive Class where
  | alpha
  | digit
  | alnum
  | upper
  | lower
  | space
  | blank
  | punct
  | print
  | graph
  | cntrl
  | xdigit
  deriving DecidableEq, Repr

/-- The class with a name. -/
def Class.named? (name : Text) : Option Class :=
  [(("alpha" : Text), Class.alpha), ("digit", .digit), ("alnum", .alnum), ("upper", .upper), ("lower", .lower),
    ("space", .space), ("blank", .blank), ("punct", .punct), ("print", .print), ("graph", .graph),
    ("cntrl", .cntrl), ("xdigit", .xdigit)].lookup name

/-- The symbol is in the class. -/
def Class.holds (s : Symbol) : Class → Bool
  | c =>
    if strayStart ≤ s then false
    else
      let d := Char.ofNat s
      let ascii := s < 128
      let letter := if ascii then d.isAlpha else Text.Class.isWord d
      let space := if ascii then d == ' ' || (9 ≤ s && s ≤ 13) else Text.Class.isBlank d && s != 0x85 && s != 0xa0
      let control := s < 32 || (127 ≤ s && s < 160)
      match c with
      | .alpha => letter
      | .digit => ascii && d.isDigit
      | .alnum => letter || (ascii && d.isDigit)
      | .upper => if ascii then d.isUpper else Matching.lower s != s
      | .lower => if ascii then d.isLower else letter && Matching.lower s = s
      | .space => space
      | .blank => d == ' ' || d == '\t'
      | .punct => 32 < s && !control && !letter && !space && !(ascii && d.isDigit)
      | .print => !control
      | .graph => !control && !space
      | .cntrl => control
      | .xdigit => ascii && (d.isDigit || ('a' ≤ d.toLower && d.toLower ≤ 'f'))

/-- A member of a set of symbols. -/
inductive Member where
  | range (low high : Symbol)
  | cls (c : Class)
  | word
  deriving DecidableEq, Repr

/-- The symbol is such a member. -/
def Member.holds (s : Symbol) : Member → Bool
  | range low high => low ≤ s && s ≤ high
  | cls c => c.holds s
  | word => isWord s

/-- What one symbol has to be. -/
inductive Test where
  | any
  | set (negated : Bool) (members : List Member)
  deriving DecidableEq, Repr

/-- The symbol passes the test. Bytes that belong to no character pass only where they are named. -/
def Test.passes (folded : Bool) (s : Symbol) : Test → Bool
  | any => s < strayStart
  | set negated members =>
    let holds (s : Symbol) : Bool := members.any (·.holds s)
    let held :=
      if folded then
        holds s || holds (lower s) || (s < 128 && holds (Char.ofNat s).toUpper.toNat)
          || (128 ≤ s && members.any fun m => match m with
            | .range a b => a = b && lower a = lower s
            | _ => false)
      else holds s
    if negated then s < strayStart && !held else held

/-! ## Places -/

/-- What is asked of a place between two symbols. -/
inductive Question where
  | lineStart
  | lineEnd
  | wordStart
  | wordEnd
  | boundary
  | inside
  | noWordBefore
  | noWordAfter
  | textStart
  | textEnd
  deriving DecidableEq, Repr

/-- How places answer: whether letters are compared without their case, and whether a line may start and end
inside the text. -/
structure Manner where
  folded : Bool
  byLines : Bool

/-- The answer for the place between two symbols. -/
def Question.holds (manner : Manner) (before after : Option Symbol) : Question → Bool
  | lineStart => before.isNone || (manner.byLines && before = some 10)
  | lineEnd => after.isNone || (manner.byLines && after = some 10)
  | wordStart => !word before && word after
  | wordEnd => word before && !word after
  | boundary => word before != word after
  | inside => word before == word after
  | noWordBefore => !word before
  | noWordAfter => !word after
  | textStart => before.isNone
  | textEnd => after.isNone
where
  word (s : Option Symbol) : Bool := s.any isWord

/-! ## Shapes -/

/-- A pattern over symbols. -/
inductive Shape where
  | empty
  | one (test : Test)
  | seq (first second : Shape)
  | either (first second : Shape)
  | star (body : Shape)
  | group (number : Nat) (body : Shape)
  | place (question : Question)
  | again (number : Nat)
  deriving DecidableEq, Repr

/-- The shape refers back to a group. -/
def Shape.refersBack : Shape → Bool
  | again _ => true
  | seq a b | either a b => a.refersBack || b.refersBack
  | star a | group _ a => a.refersBack
  | empty | one _ | place _ => false

/-- A match: where it starts and ends, and where its groups do, by double their numbers: the start first, and the
latest mark of a group before older ones. -/
structure Match where
  start : Nat
  stop : Nat
  marks : List (Nat × Nat)
  deriving DecidableEq, Repr

/-- The start and the end of a group; that of number zero is the match itself. -/
def Match.group? (m : Match) (number : Nat) : Option (Nat × Nat) :=
  if number = 0 then some (m.start, m.stop)
  else
    match m.marks.lookup (2 * number + 1) with
    | none => none
    | some stop => (m.marks.lookup (2 * number)).map fun start => (min start stop, stop)

/-! ## Layouts -/

/-- A node of a layout, with the numbers of the nodes behind it. -/
inductive Node where
  | symbol (test : Test) (next : Nat)
  | fork (first second : Nat)
  | mark (slot next : Nat)
  | place (question : Question) (next : Nat)
  | goal
  deriving DecidableEq, Repr

/-- The nodes of a shape in front of a node, behind those that there are; and where the shape starts. -/
def layOut : Shape → (nodes : Array Node) → (next : Nat) → Array Node × Nat
  | .empty, nodes, next | .again _, nodes, next => (nodes, next)
  | .one test, nodes, next => (nodes.push (.symbol test next), nodes.size)
  | .place question, nodes, next => (nodes.push (.place question next), nodes.size)
  | .seq a b, nodes, next =>
    let (nodes, middle) := layOut b nodes next
    layOut a nodes middle
  | .either a b, nodes, next =>
    let (nodes, second) := layOut b nodes next
    let (nodes, first) := layOut a nodes next
    (nodes.push (.fork first second), nodes.size)
  | .star a, nodes, next =>
    let turn := nodes.size
    let (nodes, first) := layOut a (nodes.push (.fork turn next)) turn
    (nodes.setIfInBounds turn (.fork first next), turn)
  | .group number a, nodes, next =>
    let closing := nodes.size
    let (nodes, first) := layOut a (nodes.push (.mark (2 * number + 1) next)) closing
    (nodes.push (.mark (2 * number) first), nodes.size)

/-- A way through the nodes: where it is, where its match started, and its marks. -/
structure Way where
  node : Nat
  start : Nat
  marks : List (Nat × Nat)

/-- The better of two matches: the one that starts first, and else the longer one. -/
def better (m : Match) : Option Match → Match
  | none => m
  | some old => if m.start < old.start || (m.start = old.start && old.stop < m.stop) then m else old

/-- The ways that wait for a symbol, last one first, and the best match so far. `seen` holds the nodes that were
visited. -/
structure Front where
  waiting : List (Test × Way)
  seen : Nat
  best : Option Match

/-- Ways followed up to nodes that wait for a symbol. -/
def follow (manner : Manner) (nodes : Array Node) (before after : Option Symbol) (position : Nat) :
    (fuel : Nat) → List Way → Front → Front
  | 0, _, front => front
  | _, [], front => front
  | fuel + 1, way :: ways, front =>
    if front.seen.testBit way.node || front.best.any (·.start < way.start) then
      follow manner nodes before after position fuel ways front
    else
      let front := { front with seen := front.seen ||| (1 <<< way.node) }
      match nodes[way.node]? with
      | some (.symbol test next) =>
        follow manner nodes before after position fuel ways
          { front with waiting := (test, { way with node := next }) :: front.waiting }
      | some (.fork first second) =>
        follow manner nodes before after position fuel
          ({ way with node := first } :: { way with node := second } :: ways) front
      | some (.mark slot next) =>
        follow manner nodes before after position fuel
          (⟨next, way.start, (slot, position) :: way.marks⟩ :: ways) front
      | some (.place question next) =>
        let ways := if question.holds manner before after then { way with node := next } :: ways else ways
        follow manner nodes before after position fuel ways front
      | some .goal | none =>
        follow manner nodes before after position fuel ways
          { front with best := some (better ⟨way.start, position, way.marks⟩ front.best) }

/-- The best match of some nodes, the last of which is where they start, over symbols; `ways` holds the ways under
way and `before` the last symbol. -/
def walk (manner : Manner) (nodes : Array Node) (first : Nat) (before : Option Symbol) (position : Nat)
    (ways : List Way) (best : Option Match) : List Symbol → Option Match
  | [] =>
    let ways := if best.isNone then ways ++ [⟨first, position, []⟩] else ways
    (follow manner nodes before none position (4 * nodes.size + ways.length + 4) ways ⟨[], 0, best⟩).best
  | s :: rest =>
    let ways := if best.isNone then ways ++ [⟨first, position, []⟩] else ways
    let front := follow manner nodes before (some s) position (4 * nodes.size + ways.length + 4) ways ⟨[], 0, best⟩
    if front.waiting.isEmpty && front.best.isSome then front.best
    else
      let next := front.waiting.foldl (fun ways (test, way) =>
        if test.passes manner.folded s then way :: ways else ways) []
      walk manner nodes first (some s) (position + 1) next front.best rest

/-! ## Way by way -/

/-- A place in a text. -/
structure Spot where
  position : Nat
  before : Option Symbol
  rest : List Symbol

/-- The longest match over all ways of a shape from a spot; of those that are as long, the preferred one. `go` says
how a way goes on after the shape. -/
def Shape.ways (manner : Manner) (text : List Symbol) (origin : Nat) : Shape → Spot → List (Nat × Nat) →
    (Spot → List (Nat × Nat) → Option Match) → Option Match
  | .empty, spot, marks, go => go spot marks
  | .one test, spot, marks, go =>
    match spot.rest with
    | s :: rest => if test.passes manner.folded s then go ⟨spot.position + 1, some s, rest⟩ marks else none
    | [] => none
  | .place question, spot, marks, go =>
    if question.holds manner spot.before spot.rest.head? then go spot marks else none
  | .seq a b, spot, marks, go =>
    a.ways manner text origin spot marks fun spot marks => b.ways manner text origin spot marks go
  | .either a b, spot, marks, go =>
    longer (a.ways manner text origin spot marks go) (b.ways manner text origin spot marks go)
  | .group number a, spot, marks, go =>
    a.ways manner text origin spot ((2 * number, spot.position) :: marks) fun after marks =>
      go after ((2 * number + 1, after.position) :: marks)
  | .again number, spot, marks, go =>
    match (Match.mk 0 0 marks).group? number with
    | none => none
    | some (start, stop) =>
      let part := (text.drop (start - origin)).take (stop - start)
      let here := spot.rest.take part.length
      let alike := if manner.folded then here.map lower = part.map lower else here = part
      if alike then go ⟨spot.position + part.length, here.getLast?.or spot.before, spot.rest.drop part.length⟩ marks
      else none
  | .star a, spot, marks, go => rounds (a.ways manner text origin) go (spot.rest.length + 1) spot marks
where
  /-- The longer of two matches, the first one if they are as long. -/
  longer : Option Match → Option Match → Option Match
    | some m, some n => if m.stop < n.stop then some n else some m
    | none, m => m
    | m, none => m
  /-- Rounds of a body, as many as there can be first. -/
  rounds (body : Spot → List (Nat × Nat) → (Spot → List (Nat × Nat) → Option Match) → Option Match)
      (go : Spot → List (Nat × Nat) → Option Match) : Nat → Spot → List (Nat × Nat) → Option Match
    | 0, spot, marks => go spot marks
    | n + 1, spot, marks =>
      longer
        (body spot marks fun after marks =>
          if after.position = spot.position then none else rounds body go n after marks)
        (go spot marks)

/-- The first place of a text where a shape has a match, tried one after the other. -/
def firstWay (manner : Manner) (shape : Shape) (text : List Symbol) (origin : Nat) (before : Option Symbol)
    (position : Nat) : List Symbol → Option Match
  | [] => attempt []
  | s :: rest =>
    match attempt (s :: rest) with
    | some m => some m
    | none => firstWay manner shape text origin (some s) (position + 1) rest
where
  attempt (rest : List Symbol) : Option Match :=
    shape.ways manner text origin ⟨position, before, rest⟩ [] fun spot marks =>
      some ⟨position, spot.position, marks⟩

/-! ## Searching -/

/-- A pattern that is ready to be looked for. -/
structure Pattern where
  shape : Shape
  nodes : Array Node
  first : Nat
  manner : Manner
  /-- The number of its groups. -/
  groups : Nat

/-- A shape made ready. -/
def Pattern.ofShape (shape : Shape) (groups : Nat) (folded : Bool) (byLines : Bool := false) : Pattern :=
  let (nodes, first) := layOut shape #[.goal] 0
  ⟨shape, nodes, first, ⟨folded, byLines⟩, groups⟩

/-- The match of a pattern that starts first, the longest one of these, in the symbols from a position on. The
symbol before them decides where words and lines start. -/
def Pattern.search (p : Pattern) (before : Option Symbol) (position : Nat) (symbols : List Symbol) : Option Match :=
  if p.shape.refersBack then firstWay p.manner p.shape symbols position before position symbols
  else walk p.manner p.nodes p.first before position [] none symbols

/-- The pattern has a match in the symbols. -/
def Pattern.occursIn (p : Pattern) (symbols : List Symbol) : Bool := (p.search none 0 symbols).isSome

/-- Part of the symbols. -/
def part (symbols : List Symbol) (range : Nat × Nat) : List Symbol :=
  (symbols.drop range.1).take (range.2 - range.1)

end FlowTypes.Script.Matching
