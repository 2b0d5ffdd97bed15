import FlowTypes.Pattern

/-!
# Written patterns

The written form of a pattern is cut into tokens, and the tokens are put together on a stack of open
groups. A backslash takes its meaning from the letter after it and makes every character that is no letter
and no digit stand for itself; brackets hold a set, in which a hyphen between two characters makes a range.

What is not written well is refused, and so is what could be read but has no pattern here: other letters
after a backslash, repetitions with counts, repetitions of repetitions (which would be lazy or possessive
ones), and groups with flags, names or conditions.

`escape` writes a text so that it stands for itself: a backslash goes before every character that could
mean something else.
-/

namespace FlowTypes.Pattern

/-! ## Tokens -/

/-- A token of a written pattern. -/
inductive Token where
  | atom (r : Regex)
  | repeated (wrap : Regex → Regex)
  | bar
  | opening
  | closing

/-- What a token may be repeated by the one after it: characters, sets and groups, but no repetitions and
no tests of a place. -/
def Token.repeatable : Token → Bool
  | .atom .textStart | .atom .textEnd | .atom .wordBoundary => false
  | .atom _ | .closing => true
  | .repeated _ | .bar | .opening => false

/-- Every repetition comes after something that can be repeated. -/
def repeatWell : List Token → Bool
  | [] => true
  | token :: rest =>
    match rest with
    | .repeated _ :: _ => token.repeatable && repeatWell rest
    | _ => repeatWell rest

/-- What a backslash and a character stand for outside brackets. -/
def escaped? (c : Char) : Option Regex :=
  if c == 'b' then some .wordBoundary
  else if c == 'w' then some (.set false [.word])
  else if c == 'd' then some (.set false [.digit])
  else if c == 's' then some (.set false [.blank])
  else if c == 'n' then some (.char '\n')
  else if c == 't' then some (.char '\t')
  else if c == 'r' then some (.char '\r')
  else if c.isAlphanum then none
  else some (.char c)

/-- What follows an opening brace makes it a count: digits or two rows of digits with a comma, and the
closing brace. Empty braces are no count. -/
def isCount (t : Text) : Bool :=
  let fewest := t.dropWhile Char.isDigit
  let most :=
    match fewest with
    | ',' :: rest => rest.dropWhile Char.isDigit
    | _ => fewest
  t.head? != some '\x7d' && most.head? == some '\x7d'

/-! ## Sets -/

/-- A token of a written set: a character, which is *bare* without a backslash, or a class. -/
inductive SetToken where
  | char (c : Char) (bare : Bool)
  | cls (m : Member)

/-- What a backslash and a character stand for in brackets. -/
def escapedInSet? (c : Char) : Option SetToken :=
  if c == 'w' then some (.cls .word)
  else if c == 'd' then some (.cls .digit)
  else if c == 's' then some (.cls .blank)
  else if c == 'b' then some (.char (Char.ofNat 8) false)
  else if c == 'n' then some (.char '\n' false)
  else if c == 't' then some (.char '\t' false)
  else if c == 'r' then some (.char '\r' false)
  else if c.isAlphanum then none
  else some (.char c false)

/-- The tokens of a set up to the bracket that closes it, and how many characters they take up with it.
A closing bracket right at the start belongs to the set. -/
def setTokens? (atStart : Bool) : Text → Option (List SetToken × Nat)
  | [] => none
  | '\\' :: c :: rest => do
    let token ← escapedInSet? c
    let (ts, n) ← setTokens? false rest
    return (token :: ts, n + 2)
  | c :: rest =>
    if c == ']' && !atStart then some ([], 1)
    else (setTokens? false rest).map fun (ts, n) => (.char c true :: ts, n + 1)

/-- The members of a set: a bare hyphen between two characters makes a range of them, which must not be in
the wrong order, and between a class and anything else it makes no sense. -/
def members? : List SetToken → Option (List Member)
  | [] => some []
  | .char low _ :: .char '-' true :: .char high _ :: rest =>
    if low ≤ high then (members? rest).map (.range low high :: ·) else none
  | .char _ _ :: .char '-' true :: .cls _ :: _ => none
  | .cls _ :: .char '-' true :: _ :: _ => none
  | .cls m :: rest => (members? rest).map (m :: ·)
  | .char c _ :: rest => (members? rest).map (.range c c :: ·)

/-- The set after an opening bracket, and how many characters it takes up. -/
def set? (t : Text) : Option (Regex × Nat) := do
  let negated := t.head? == some '^'
  let (ts, n) ← setTokens? true (if negated then t.tail else t)
  return (.set negated (← members? ts), if negated then n + 1 else n)

/-! ## Cutting into tokens -/

/-- The tokens of a written pattern after `skip` characters, if all of them can be read. -/
def tokensFrom (skip : Nat) : Text → Option (List Token)
  | [] => some []
  | c :: rest =>
    match skip with
    | k + 1 => tokensFrom k rest
    | 0 =>
      if c == '\\' then
        match rest with
        | d :: _ =>
          match escaped? d with
          | some r => (tokensFrom 1 rest).map (.atom r :: ·)
          | none => none
        | [] => none
      else if c == '[' then
        match set? rest with
        | some (r, n) => (tokensFrom n rest).map (.atom r :: ·)
        | none => none
      else if c == '(' then
        match rest with
        | '?' :: ':' :: _ => (tokensFrom 2 rest).map (.opening :: ·)
        | _ => (tokensFrom 0 rest).map (.opening :: ·)
      else if c == '\x7b' && isCount rest then none
      else
        let token : Token :=
          if c == ')' then .closing
          else if c == '|' then .bar
          else if c == '*' then .repeated .star
          else if c == '+' then .repeated .plus
          else if c == '?' then .repeated .optional
          else if c == '.' then .atom (.set true [.range '\n' '\n'])
          else if c == '^' then .atom .textStart
          else if c == '$' then .atom .textEnd
          else .atom (.char c)
        (tokensFrom 0 rest).map (token :: ·)

/-! ## Putting tokens together -/

/-- A group under way: the alternatives before its last bar, and the items since, last first. -/
structure Group where
  before : Option Regex
  items : List Regex

/-- A group without anything in it. -/
def Group.start : Group := ⟨none, []⟩

/-- The items of a group in sequence. -/
def sequence : List Regex → Regex
  | [] => .empty
  | [r] => r
  | r :: s :: rest => .seq r (sequence (s :: rest))

/-- The pattern of a group when it closes. -/
def Group.close (g : Group) : Regex :=
  match g.before with
  | none => sequence g.items.reverse
  | some r => .either r (sequence g.items.reverse)

/-- Tokens put together in a group, with the groups that are open around it. -/
def assemble (g : Group) (around : List Group) : List Token → Option Regex
  | [] => if around.isEmpty then some g.close else none
  | .atom r :: rest => assemble { g with items := r :: g.items } around rest
  | .repeated wrap :: rest =>
    match g.items with
    | r :: items => assemble { g with items := wrap r :: items } around rest
    | [] => none
  | .bar :: rest => assemble ⟨some g.close, []⟩ around rest
  | .opening :: rest => assemble .start (g :: around) rest
  | .closing :: rest =>
    match around with
    | outer :: around => assemble { outer with items := g.close :: outer.items } around rest
    | [] => none

/-- The pattern that a text writes, if it writes one. -/
def read? (source : Text) : Option Regex := do
  let tokens ← tokensFrom 0 source
  if repeatWell tokens then assemble .start [] tokens else none

/-! ## Texts that stand for themselves -/

/-- The characters that get a backslash. -/
def special : Text := "\t\n\x0b\r\x0c #$&()*+-.?[\\]^\x7b|\x7d~"

/-- A text as a pattern that stands for it. -/
def escape (t : Text) : Text := t.flatMap fun c => if special.contains c then ['\\', c] else [c]

end FlowTypes.Pattern
