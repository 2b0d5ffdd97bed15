import FlowTypes.Script.Matching

/-!
# Written patterns

A written pattern is cut into tokens (`tokens`), and the tokens are put together on a stack of open groups
(`assemble`). There are two ways to write patterns: in the basic one, most operators stand behind a backslash, and
in the extended one a backslash takes their meaning away. Tools differ in what they make of operators that stand
where they have no meaning (`Dialect`).

## Termination

`tokens` counts symbols; every token takes at least one.
-/

namespace FlowTypes.Script.Matching

/-- What is wrong with a written pattern. -/
inductive Fault where
  | openGroup
  | strayClosing
  | openSet
  | loneBracket
  | className
  | classAlone
  | openBrace
  | braceContent
  | tooBig
  | trailingBackslash
  | reference
  | rangeEnd
  | collation
  | nothingRepeated
  deriving DecidableEq, Repr

/-- The fault in words. -/
def Fault.message : Fault → Text
  | openGroup => "Unmatched ( or \\("
  | strayClosing => "Unmatched ) or \\)"
  | openSet => "Unmatched [, [^, [:, [., or [="
  | loneBracket => "Invalid regular expression"
  | className => "Invalid character class name"
  | classAlone => "character class syntax is [[:space:]], not [:space:]"
  | openBrace => "Unmatched \\\x7b"
  | braceContent => "Invalid content of \\\x7b\\\x7d"
  | tooBig => "Regular expression too big"
  | trailingBackslash => "Trailing backslash"
  | reference => "Invalid back reference"
  | rangeEnd => "Invalid range end"
  | collation => "Invalid collation character"
  | nothingRepeated => "Invalid preceding regular expression"

/-- How patterns are written. -/
structure Dialect where
  /-- Operators stand without a backslash. -/
  extended : Bool
  /-- Operators where they have no meaning stand for themselves or are passed over. -/
  lenient : Bool
  /-- Letters behind a backslash may stand for control characters. -/
  controls : Bool
  /-- Braces repeat. -/
  braces : Bool := true
  /-- Groups can be referred to, and there are letters for places and classes behind a backslash. -/
  references : Bool := true
  /-- A backslash keeps its meaning in sets. -/
  escapesInSets : Bool := false

/-- A token of a written pattern. `sign` is how a repetition is shown. -/
inductive Token where
  | atom (shape : Shape)
  | opening
  | closing
  | bar
  | repeated (sign : Text) (low : Nat) (high : Option Nat)

/-! ## Sets -/

/-- The symbol of a character. -/
def code (c : Char) : Symbol := c.toNat

/-- The control character of a letter behind a backslash. -/
def control? (s : Symbol) : Option Symbol :=
  [(code 'n', 10), (code 't', 9), (code 'f', 12), (code 'v', 11), (code 'a', 7), (code 'r', 13)].lookup s

/-- The text up to a closing mark such as `:]`, and what follows. -/
def upToMark (mark : Symbol) : List Symbol → Option (List Symbol × List Symbol)
  | [] => none
  | s :: rest =>
    if s = mark && rest.head? = some (code ']') then some ([], rest.drop 1)
    else (upToMark mark rest).map fun (name, after) => (s :: name, after)

/-- An item of a set: a symbol that may begin a range, or a class. -/
inductive SetItem where
  | symbol (s : Symbol)
  | cls (c : Class)

/-- The first item of the rest of a set, and what follows it. -/
def setItem (d : Dialect) : List Symbol → Except Fault (SetItem × List Symbol)
  | [] => .error .openSet
  | s :: rest =>
    if s = code '[' && rest.head? = some (code ':') then
      match upToMark (code ':') (rest.drop 1) with
      | none => .error .openSet
      | some (name, after) =>
        match Class.named? (textOf name) with
        | some c => .ok (.cls c, after)
        | none => .error .className
    else if s = code '[' && (rest.head? = some (code '.') || rest.head? = some (code '=')) then
      match upToMark (rest.headD 0) (rest.drop 1) with
      | none => .error .openSet
      | some ([only], after) => .ok (.symbol only, after)
      | some _ => .error .collation
    else if s = code '\\' && d.escapesInSets then
      match rest with
      | [] => .error .openSet
      | c :: after => .ok (.symbol ((control? c).getD c), after)
    else if s = code '\\' && d.controls then
      match rest with
      | c :: after =>
        match control? c with
        | some controlled => .ok (.symbol controlled, after)
        | none => .ok (.symbol s, rest)
      | [] => .ok (.symbol s, rest)
    else .ok (.symbol s, rest)

/-- The members of a set up to its closing bracket, and what follows it. -/
def setMembers (d : Dialect) (first : Bool) : (fuel : Nat) → List Symbol →
    Except Fault (List Member × List Symbol)
  | 0, _ => .error .openSet
  | fuel + 1, symbols =>
    if symbols.head? = some (code ']') && !first then .ok ([], symbols.drop 1)
    else do
      let (item, rest) ← setItem d symbols
      match item, rest with
      | .cls c, _ =>
        let (members, after) ← setMembers d false fuel rest
        pure (.cls c :: members, after)
      | .symbol low, dash :: next :: more =>
        if dash = code '-' && next != code ']' then
          let (item, rest) ← setItem d (next :: more)
          match item with
          | .cls _ => throw .rangeEnd
          | .symbol high =>
            if high < low && !d.escapesInSets then throw .rangeEnd
            let (members, after) ← setMembers d false fuel rest
            pure (.range (min low high) (max low high) :: members, after)
        else
          let (members, after) ← setMembers d false fuel rest
          pure (.range low low :: members, after)
      | .symbol s, _ =>
        let (members, after) ← setMembers d false fuel rest
        pure (.range s s :: members, after)

/-- The set behind an opening bracket, and what follows it. -/
def readSet (d : Dialect) (symbols : List Symbol) : Except Fault (Shape × List Symbol) := do
  let negated := symbols.head? = some (code '^')
  let body := if negated then symbols.drop 1 else symbols
  let (members, rest) ← setMembers d true (body.length + 1) body
  let written := textOf (body.take (body.length - rest.length))
  let classAlone := written.head? = some ':' && (":]" : Text).isSuffixOf written && 2 < written.length
  if !negated && classAlone && !d.escapesInSets then throw .classAlone
  pure (.one (.set negated members), rest)

/-! ## Tokens -/

/-- A symbol that stands for itself. -/
def literal (s : Symbol) : Shape := .one (.set false [.range s s])

/-- The number at the start of some symbols, and what follows it. -/
def readCount (symbols : List Symbol) : Option Nat × List Symbol :=
  let digits := symbols.takeWhile fun s => code '0' ≤ s && s ≤ code '9'
  (if digits.isEmpty then none else some (digits.foldl (fun n s => n * 10 + (s - 48)) 0), symbols.drop digits.length)

/-- How often something can be repeated at most. -/
def mostRounds : Nat := 32767

/-- The bounds behind an opening brace, and what follows the closing one. -/
def readBounds (d : Dialect) (symbols : List Symbol) : Except Fault (Nat × Option Nat × List Symbol) := do
  let (low, rest) := readCount symbols
  let (high, rest, comma) := match rest with
    | s :: more => if s = code ',' then let (n, r) := readCount more; (n, r, true) else (low, rest, false)
    | [] => (low, rest, false)
  if low.isNone && !comma then throw .braceContent
  let rest ← match rest with
    | [] => throw .openBrace
    | a :: more =>
      if d.extended then (if a = code '\x7d' then pure more else throw .braceContent)
      else
        match more with
        | b :: after => if a = code '\\' && b = code '\x7d' then pure after else throw .braceContent
        | [] => throw .openBrace
  if high.any (· < low.getD 0) then throw .braceContent
  if mostRounds < low.getD 0 || high.any (mostRounds < ·) then throw .tooBig
  pure (low.getD 0, high, rest)

/-- What a letter behind a backslash stands for, operators aside. -/
def escaped (d : Dialect) (s : Symbol) : Shape :=
  let word (negated : Bool) : Shape := .one (.set negated [.word])
  let space (negated : Bool) : Shape := .one (.set negated [.cls .space])
  let known : List (Symbol × Shape) :=
    [(code 'w', word false), (code 'W', word true), (code 's', space false), (code 'S', space true),
      (code '<', .place .wordStart), (code '>', .place .wordEnd), (code 'b', .place .boundary),
      (code 'B', .place .inside), (96, .place .textStart), (code '\'', .place .textEnd)]
  match if d.references then known.lookup s else none with
  | some shape => shape
  | none =>
    if d.references && code '1' ≤ s && s ≤ code '9' then .again (s - 48)
    else if d.controls then literal ((control? s).getD s)
    else literal s

/-- The tokens of a written pattern. `start` says that nothing stands before it that could be repeated. -/
def tokens (d : Dialect) (start : Bool) : (fuel : Nat) → List Symbol → Except Fault (List Token)
  | 0, _ => .ok []
  | _, [] => .ok []
  | fuel + 1, s :: rest => do
    let put (token : Token) (start : Bool) (rest : List Symbol) : Except Fault (List Token) := do
      pure (token :: (← tokens d start fuel rest))
    let itself (s : Symbol) (rest : List Symbol) : Except Fault (List Token) := put (.atom (literal s)) false rest
    -- bounds that make no sense are an error, or they stand for themselves
    let bounds (rest : List Symbol) : Except Fault (List Token) :=
      if start && !d.extended && d.lenient then itself (code '\x7b') rest
      else
        match readBounds d rest with
        | .ok (low, high, after) => put (.repeated "\x7b...\x7d" low high) false after
        | .error fault =>
          let misread := fault = .openBrace || (fault = .braceContent && !wellWritten rest)
          if d.extended && d.lenient && misread then itself (code '\x7b') rest else .error fault
    if s = code '\\' then
      match rest with
      | [] => .error .trailingBackslash
      | c :: after =>
        if d.extended then put (.atom (escaped d c)) false after
        else if c = code '(' then put .opening true after
        else if c = code ')' then put .closing false after
        else if c = code '|' then put .bar true after
        else if c = code '\x7b' then bounds after
        else if c = code '+' && !start then put (.repeated "+" 1 none) false after
        else if c = code '?' && !start then put (.repeated "?" 0 (some 1)) false after
        else
          let shape := escaped d c
          put (.atom shape) (shape matches .place _) after
    else if s = code '.' then put (.atom (.one .any)) false rest
    else if s = code '[' then
      if rest.isEmpty then throw .loneBracket
      let (shape, after) ← readSet d rest
      put (.atom shape) false after
    else if s = code '*' then
      if start && !d.extended then itself s rest else put (.repeated "*" 0 none) false rest
    else if s = code '^' then
      if d.extended || start then put (.atom (.place .lineStart)) true rest else itself s rest
    else if s = code '$' then
      let atEnd := match rest with
        | [] => true
        | a :: b :: _ => a = code '\\' && (b = code ')' || b = code '|')
        | _ => false
      if d.extended || atEnd then put (.atom (.place .lineEnd)) true rest else itself s rest
    else if d.extended then
      if s = code '(' then put .opening true rest
      else if s = code ')' then put .closing false rest
      else if s = code '|' then put .bar true rest
      else if s = code '+' then put (.repeated "+" 1 none) false rest
      else if s = code '?' then put (.repeated "?" 0 (some 1)) false rest
      else if s = code '\x7b' && d.braces then bounds rest
      else itself s rest
    else itself s rest
where
  /-- The bounds are written as they should be, whatever they are. -/
  wellWritten (rest : List Symbol) : Bool :=
    let (low, after) := readCount rest
    let after := if after.head? = some (code ',') then (readCount (after.drop 1)).2 else after
    low.isSome && after.head? = some (code '\x7d')

/-! ## Putting together -/

/-- A group that is open: its number, the alternatives that are complete, and the parts of the last one, last
first. -/
structure Frame where
  number : Nat
  before : Option Shape
  parts : List Shape

/-- The parts of a frame as one shape. -/
def Frame.shape (f : Frame) : Shape :=
  let last := match f.parts with
    | [] => .empty
    | p :: rest => rest.foldl (fun shape part => .seq part shape) p
  match f.before with
  | none => last
  | some alternatives => .either alternatives last

/-- A shape that is repeated. -/
def repeatShape (shape : Shape) (low : Nat) (high : Option Nat) : Shape :=
  let tail : Shape := match high with
    | none => .star shape
    | some n => Nat.repeat (fun inner => .either (.seq shape inner) .empty) (n - low) .empty
  match low, tail with
  | 0, tail => tail
  | n + 1, .empty => Nat.repeat (fun after => .seq shape after) n shape
  | n, tail => Nat.repeat (fun after => .seq shape after) n tail

/-- What tokens are put together from: the open groups, innermost first, how many groups there are, those that are
closed, and what was passed over. -/
structure Assembly where
  frames : List Frame
  top : Frame
  groups : Nat
  closed : List Nat
  passed : List Text
  /-- The last token was a repetition. -/
  again : Bool

/-- One token more. -/
def Assembly.add (d : Dialect) (assembly : Assembly) (token : Token) : Except Fault Assembly :=
  let a := { assembly with again := token matches .repeated .. }
  match token with
  | .atom (.again n) =>
    if a.closed.contains n then .ok { a with top := { a.top with parts := .again n :: a.top.parts } }
    else .error .reference
  | .atom shape => .ok { a with top := { a.top with parts := shape :: a.top.parts } }
  | .opening =>
    let number := a.groups + 1
    .ok { a with frames := a.top :: a.frames, top := ⟨number, none, []⟩, groups := number }
  | .closing =>
    match a.frames with
    | [] =>
      if d.extended && d.lenient then
        .ok { a with top := { a.top with parts := literal (code ')') :: a.top.parts } }
      else .error .strayClosing
    | f :: frames =>
      let shape := Shape.group a.top.number a.top.shape
      .ok { a with frames := frames, top := { f with parts := shape :: f.parts }, closed := a.top.number :: a.closed }
  | .bar => .ok { a with top := { a.top with before := some a.top.shape, parts := [] } }
  | .repeated sign low high =>
    let twice := assembly.again && !d.extended && !d.lenient && sign != ['+'] && sign != ['?']
    match a.top.parts with
    | [] => nothing a sign
    | .place _ :: _ => nothing a sign
    | shape :: parts => if twice then .error .nothingRepeated else .ok { a with top := { a.top with parts := repeatShape shape low high :: parts } }
where
  /-- There is nothing that could be repeated. -/
  nothing (a : Assembly) (sign : Text) : Except Fault Assembly :=
    if d.lenient then .ok { a with passed := a.passed ++ [sign] } else .error .nothingRepeated

/-- The shape of some tokens, the number of its groups, and the repetitions that were passed over. -/
def assemble (d : Dialect) (tokens : List Token) : Except Fault (Shape × Nat × List Text) := do
  let a ← tokens.foldlM (Assembly.add d) ⟨[], ⟨0, none, []⟩, 0, [], [], false⟩
  if !a.frames.isEmpty then throw .openGroup
  pure (a.top.shape, a.groups, a.passed)

/-- A written pattern. -/
def read (d : Dialect) (symbols : List Symbol) : Except Fault (Shape × Nat × List Text) := do
  assemble d (← tokens d true (symbols.length + 1) symbols)

end FlowTypes.Script.Matching
