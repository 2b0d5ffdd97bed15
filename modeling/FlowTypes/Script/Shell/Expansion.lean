import FlowTypes.Script.Shell

/-!
# Expansion

What the words of a script stand for when they are used. A piece becomes items (`Expansion.piece`), and the
items of a word become fields: several ones where a word of a command is expanded (`Expansion.fields`), or a
single one elsewhere (`Expansion.whole`).

Expanding a word changes the shell where the word assigns something, and it may run a script for its output;
how that is done is a parameter here.
-/

namespace FlowTypes.Script.Expansion

/-- What runs a script and gives its output. -/
abbrev Runner := List Command → Work Text

/-! ## Arguments -/

/-- All arguments put together. The first separator stands between them. -/
def joinedArguments (s : Shell) : Text := Text.join (s.separators.take 1) s.arguments

/-- The items of all arguments. In quotes, `apart` keeps them apart; without quotes they are cut in any
case, unless the word is no list of fields. -/
def argumentItems (s : Shell) (apart quoted full : Bool) : List Item :=
  let between (cut : List Item) (mode : Mode) : List Item :=
    ((s.arguments.map fun a => Field.itemsOf a mode).intersperse cut).flatten
  if quoted then
    if apart && full then between [.cut] .firm else Field.itemsOf (joinedArguments s) .firm
  else
    match s.separators.head? with
    | some c => between [.char c .loose] .loose
    | none => between (if full then [.cut] else []) .loose

/-! ## Home -/

/-- The directory that a tilde with a name behind it stands for. -/
def homeOf (s : Shell) (name : Text) : Option Text :=
  if name.isEmpty then s.value? "HOME" else if name = ("root" : Text) then some "/root" else none

/-- The pieces of a text that may start with a tilde; `ended` says that nothing is behind the text that would
belong to the name. -/
def withHome (s : Shell) (ended : Bool) (t : Text) : Word :=
  match t with
  | '~' :: rest =>
    let name := rest.takeWhile (· != '/')
    match homeOf s name with
    | some home =>
      if ended || name.length < rest.length then [.text home true, .text (rest.drop name.length) false]
      else [.text t false]
    | none => [.text t false]
  | _ => [.text t false]

/-- A word with its tildes replaced: at its start, and with `colons` behind each colon. -/
def homely (s : Shell) (colons first : Bool) : Word → Word
  | [] => []
  | .text t false :: rest =>
    let parts := if colons then Raw.fields ':' t else [t]
    let count := parts.length
    let replaced : List Word := parts.mapIdx fun n part =>
      if n = 0 && !first then [.text part false] else withHome s (n + 1 < count || rest.isEmpty) part
    (replaced.intersperse [.text [':'] false]).flatten ++ homely s colons false rest
  | p :: rest => p :: homely s colons false rest

/-! ## Sums -/

/-- The value of a sum; what it assigns is assigned. -/
def sumOf (t : Text) : Work Int := do
  let s ← get
  let values (name : Text) : Except Sum.Fault Int :=
    match s.value? name with
    | some v => Sum.numberOf v
    | none => if s.options.contains 'u' then .error (.unset name) else .ok 0
  match Sum.value values t with
  | .error fault => Work.fail (fault.message t)
  | .ok (n, assigned) =>
    assigned.reverse.forM fun (name, m) => Work.assign name (Text.ofInt m)
    return n

/-! ## Pieces -/

/-- A name that has no value where it needs one. -/
def missing {α : Type} (name : Text) (empty : Bool) (words : Option Text) : Work α :=
  Work.fail (name ++ ": " ++ match words with
    | some t => t
    | none => if empty then "parameter not set or null" else "parameter not set")

mutual

/-- The items of a piece. With `full`, they belong to a word that becomes a list of fields; with `inner`,
text without quotes is cut like a value. -/
def piece (run : Runner) (full inner : Bool) : Piece → Work (List Item)
  | .text t quoted =>
    return Field.itemsOf t (if quoted then .firm else if inner then .loose else .plain)
  | .output script quoted => do
    return Field.itemsOf (← run script) (if quoted then .firm else .loose)
  | .sum expression quoted => do
    let items ← pieces run false false expression
    let n ← sumOf (Field.joined items).text
    return Field.itemsOf (Text.ofInt n) (if quoted then .firm else .loose)
  | .value name operator colon operand quoted => do
    let s ← get
    let mode : Mode := if quoted then .firm else .loose
    let isRow := name = (['@'] : Text) || name = (['*'] : Text)
    let value := if isRow then (if s.arguments.isEmpty then none else some (joinedArguments s)) else s.value? name
    let t := value.getD []
    let items := if isRow then argumentItems s (name = (['@'] : Text)) quoted full else Field.itemsOf t mode
    let present := value.isSome && !(colon && t.isEmpty)
    let demanded := s.options.contains 'u' && value.isNone && !isRow
    match operator with
    | .bad => Work.fail "Bad substitution"
    | .plain =>
      if demanded then missing name false none
      return items
    | .length =>
      if demanded then missing name false none
      return Field.itemsOf (Text.ofNat t.length) mode
    | .orElse => if present then return items else pieces run full true operand
    | .instead => if present then pieces run full true operand else return []
    | .assign =>
      if present then return items
      let u := (Field.joined (← pieces run false true operand)).text
      if !isName name then Work.fail (name ++ ": bad variable name")
      Work.assign name u
      return Field.itemsOf u mode
    | .demand =>
      if present then return items
      let u := (Field.joined (← pieces run false true operand)).text
      missing name colon (if operand.isEmpty then none else some u)
    | .cutStart longest =>
      if demanded then missing name false none
      let f := Field.joined (← pieces run false false operand)
      return Field.itemsOf (Field.cutStart f longest t) mode
    | .cutEnd longest =>
      if demanded then missing name false none
      let f := Field.joined (← pieces run false false operand)
      return Field.itemsOf (Field.cutEnd f longest t) mode

/-- The items of some pieces. -/
def pieces (run : Runner) (full inner : Bool) : List Piece → Work (List Item)
  | [] => return []
  | p :: rest => do
    let first ← piece run full inner p
    let others ← pieces run full inner rest
    return first ++ others

end

/-! ## Words -/

/-- A word as a single field; tildes are replaced behind colons too, if it is asked for. -/
def whole (run : Runner) (w : Word) (colons : Bool := false) : Work Field := do
  let s ← get
  return Field.joined (← pieces run false false (homely s colons true w))

/-- A word as a text. -/
def text (run : Runner) (w : Word) (colons : Bool := false) : Work Text := do
  return (← whole run w colons).text

/-- A document as a text. -/
def document (run : Runner) (w : Word) : Work Text := do
  return (Field.joined (← pieces run false false w)).text

/-- The texts that a word of a command stands for. -/
def wordTexts (run : Runner) (w : Word) : Work (List Text) := do
  let s ← get
  let items ← pieces run true false (homely s false true w)
  let s ← get
  let fs := Field.split s.separators none false items
  if s.options.contains 'f' || !fs.any Field.isPattern then return fs.map Field.text
  let (tree, _) ← Work.look
  return fs.flatMap (Field.expand tree)

/-- The texts that the words of a command stand for. -/
def fields (run : Runner) : List Word → Work (List Text)
  | [] => return []
  | w :: rest => do
    let first ← wordTexts run w
    let others ← fields run rest
    return first ++ others

/-- The texts of words of which those that assign something become one text each. -/
def assigningFields (run : Runner) : List Word → Work (List Text)
  | [] => return []
  | w :: rest => do
    let first ← match assignment? w with
      | some (name, value) => do pure [name ++ '=' :: (← text run value true)]
      | none => wordTexts run w
    let others ← assigningFields run rest
    return first ++ others

/-- Where redirections lead. -/
def targets (run : Runner) : List Redirect → Work (List Work.Target)
  | [] => return []
  | r :: rest => do
    let first ← match r with
      | .toDocument channel number => do
        let w := ((← get).documents.lookup number).getD []
        pure (Work.Target.document channel (← document run w))
      | .toWord channel direction w => do
        let t ← text run w
        if direction = .duplicate then
          match t with
          | ['-'] => pure (Work.Target.close channel)
          | [d] =>
            if d.isDigit then pure (Work.Target.copy channel (d.toNat - 48)) else misfit
          | _ => misfit
        else pure (Work.Target.path channel direction t)
    let others ← targets run rest
    return first :: others
where
  /-- Something that is no number of a channel. -/
  misfit : Work Work.Target := do
    modify fun s => { s with line := s.ahead }
    Work.fail "Syntax error: Bad fd number"

end FlowTypes.Script.Expansion
