import FlowTypes.Script.Records.Session

/-!
# Running records programs

Expressions have values (`Run.eval`), and statements do something (`Run.exec`). A program runs in three parts: the
rules for the start, the rules for each record of its input, if it has such rules or rules for the end, and the
rules for the end (`Run.whole`).

Places are found before the values that they get.

## Termination

Everything that calls itself hands on less fuel than it got. The fuel bounds how deep calls are nested and how often
a loop goes round. Each round takes time, so that a session with a deadline ends.
-/

namespace FlowTypes.Script.Records.Run

open Work

/-! ## Places -/

/-- A place whose index or key is known. -/
inductive Slot where
  | name (t : Text)
  | field (n : Nat)
  | element (array : ArrayName) (key : Text) (numeric : Bool)

/-- The value at a place. -/
def Slot.value : Slot → Work Value
  | name t => valueOf t
  | field n => fieldOf n
  | element array key numeric => elementOf array key numeric

/-- A place gets a value. -/
def Slot.put (v : Value) : Slot → Work Unit
  | name t => setValue t v
  | field n => setField n v
  | element array key _ => setElement array key v

/-- The number of a field. -/
def fieldNumber (v : Value) : Work Nat := do
  let n := v.toNumber.toInt?.getD 0
  if n < 0 then fault ("negative field index $" ++ Text.ofInt n)
  return n.toNat

/-! ## Functions on texts -/

/-- Part of a text: from a position on, which counts from one, for a length if there is one. Positions before the
text count. -/
def partOf (t : Text) (start : Binary64) (length : Option Binary64) : Text :=
  let rounded (x : Binary64) : Int :=
    match x with
    | .infinite negative => if negative then -Int.pow 2 62 else Int.pow 2 62
    | _ => ((x.add (.ofScaled (x.order .zero == .lt) 1 (-1))).toInt?).getD 0
  let first := max 1 (rounded start)
  let behind : Int := match length with
    | none => t.length + 1
    | some n => min (t.length + 1) (rounded (start.add n))
  (t.drop (first - 1).toNat).take (behind - first).toNat

/-- Where a text occurs in another one first, counted from one; zero if it does not. -/
def placeOf (t part : Text) : Nat :=
  if part.isEmpty then (if t.isEmpty then 0 else 1) else go 1 t
where
  go (n : Nat) : Text → Nat
    | [] => 0
    | c :: rest => if part.isPrefixOf (c :: rest) then n else go (n + 1) rest

/-- What a match is replaced by: an ampersand stands for the match, and backslashes before it take turns in taking
that away. -/
def replacement (found : Text) : (fuel : Nat) → Text → Text
  | 0, _ => []
  | _, [] => []
  | fuel + 1, '&' :: rest => found ++ replacement found fuel rest
  | fuel + 1, '\\' :: rest =>
    let count := 1 + (rest.takeWhile (· == '\\')).length
    let after := rest.drop (count - 1)
    match after with
    | '&' :: further =>
      List.replicate (count / 2) '\\' ++ (if count % 2 = 1 then ['&'] else found) ++ replacement found fuel further
    | _ => List.replicate count '\\' ++ replacement found fuel after
  | fuel + 1, c :: rest => c :: replacement found fuel rest

/-- A text with matches replaced, at most so many, and how many were. An empty match right behind another match
does not count. -/
def replaced (p : Matching.Pattern) (by_ : Text) : (fuel most : Nat) → (before : Option Matching.Symbol) →
    (behind : Bool) → List Matching.Symbol → Text × Nat
  | 0, _, _, _, symbols => (Matching.textOf symbols, 0)
  | _, 0, _, _, symbols => (Matching.textOf symbols, 0)
  | fuel + 1, most + 1, before, behind, symbols =>
    match p.search before 0 symbols with
    | none => (Matching.textOf symbols, 0)
    | some m =>
      let skipped := symbols.take m.start
      let found := (symbols.take m.stop).drop m.start
      let rest := symbols.drop m.stop
      let fresh := m.start < m.stop || 0 < m.start || !behind
      let new : Text := if fresh then replacement (Matching.textOf found) (by_.length + 1) by_ else []
      let most := if fresh then most else most + 1
      let (t, count) :=
        if m.start < m.stop then replaced p by_ fuel most found.getLast? true rest
        else
          match rest with
          | [] => ([], 0)
          | s :: rest =>
            let (t, count) := replaced p by_ fuel most (some s) false rest
            (Matching.textOf [s] ++ t, count)
      (Matching.textOf skipped ++ new ++ t, count + fresh.toNat)

/-! ## Printing -/

/-- The text of a value that is printed. -/
def shown (v : Value) : Work Text := do
  match v with
  | .number _ => return v.toText (← sharedText "OFMT")
  | _ => return v.toText []

/-- A template filled with values, and a fault behind what was filled before. -/
def filled (tool : Text) (template : Text) (values : List Value) : Work (Text × Option Text) := do
  let conversion ← Work.template
  let (t, found) := Template.fill (textOfNumber conversion) (template.length + 1) 1 template values
  let place : Text := " " ++ tool ++ "(\"" ++ template ++ "\")"
  return (t, found.map fun
    | .tooFew => "not enough arguments passed to" ++ place
    | .improper n => "improper conversion(number " ++ Text.ofNat n ++ ") in" ++ place)

/-! ## Numbers at random -/

/-- The next number of a row of numbers below `2 ^ 31 - 1` that looks like no row. -/
def nextSeed (n : Nat) : Nat := n * 16807 % (Nat.pow 2 31 - 1)

/-- A number from zero to one. -/
def random : Work Value := do
  let s ← get
  let seed := nextSeed (max 1 s.seed)
  set { s with seed := seed }
  return .number (.nearest false seed (Nat.pow 2 31 - 1))

/-! ## Running -/

/-- Time that a round takes. -/
def roundTime : Nat := 1

/-- One more round, unless it is the last one: false if the loop is left. -/
def inRound (body : Work Unit) : Work Bool := do
  tell (.pass roundTime)
  try
    body
    return true
  catch stop =>
    match stop with
    | .leaveLoop => return false
    | .nextRound => return true
    | stop => throw stop

/-- A program that is out of fuel does nothing more. -/
def stuck {α : Type} : Work α := do
  tell .hang
  throw .exit

mutual

/-- The value of an expression. -/
def eval : (fuel : Nat) → Expr → Work Value
  | 0, _ => stuck
  | fuel + 1, e => do
    match e with
    | .number x => return .number x
    | .text t => return .text t
    | .pattern p => return .ofBool (p.occursIn (Matching.bytesOf (← get).record))
    | .name t => valueOf t
    | .field e => fieldOf (← fieldNumber (← eval fuel e))
    | .element .. => (← slotOf fuel e).value
    | .group e => eval fuel e
    | .assign place operation value =>
      let slot ← slotOf fuel place
      let v ← eval fuel value
      match operation with
      | none =>
        slot.put v
        return v
      | some operation =>
        let v : Value := .number (operation.apply (← slot.value).toNumber v.toNumber)
        slot.put v
        return v
    | .step place operation before =>
      let slot ← slotOf fuel place
      let x := (← slot.value).toNumber
      let y := operation.apply x .one
      slot.put (.number y)
      return .number (if before then y else x)
    | .choice condition yes no => if (← eval fuel condition).holds then eval fuel yes else eval fuel no
    | .both a b => if (← eval fuel a).holds then return .ofBool (← eval fuel b).holds else return .ofBool false
    | .either a b => if (← eval fuel a).holds then return .ofBool true else return .ofBool (← eval fuel b).holds
    | .negation e => return .ofBool !(← eval fuel e).holds
    | .opposite e => return .number (← eval fuel e).toNumber.neg
    | .worth e => return .number (← eval fuel e).toNumber
    | .compare comparison a b =>
      let a ← eval fuel a
      let b ← eval fuel b
      return .ofBool (comparison.holds (a.order (← template) b))
    | .fits wanted e pattern =>
      let t ← textOf (← eval fuel e)
      let p ← patternFrom fuel pattern
      return .ofBool (p.occursIn (Matching.bytesOf t) == wanted)
    | .member keys array =>
      let (key, _) ← keyOf fuel keys
      return .ofBool ((← tableOf (← arrayOf array)).get? key).isSome
    | .joined a b =>
      let a ← textOf (← eval fuel a)
      let b ← textOf (← eval fuel b)
      return .text (a ++ b)
    | .calculation operation a b =>
      let a ← eval fuel a
      let b ← eval fuel b
      return .number (operation.apply a.toNumber b.toNumber)
    | .builtin f es => builtin fuel f es
    | .call name es => call fuel name es
    | .readNext place source => readNext fuel place source

/-- The place that an expression stands for. -/
def slotOf : (fuel : Nat) → Expr → Work Slot
  | 0, _ => stuck
  | fuel + 1, e => do
    match e with
    | .field e => return .field (← fieldNumber (← eval fuel e))
    | .element array keys =>
      let (key, numeric) ← keyOf fuel keys
      return .element (← arrayOf array) key numeric
    | .name t => return .name t
    | _ => return .name []

/-- A key of an array, and whether it is a number. -/
def keyOf : (fuel : Nat) → List Expr → Work (Text × Bool)
  | 0, _ => stuck
  | fuel + 1, es => do
    match es with
    | [e] =>
      let v ← eval fuel e
      let numeric := match v with
        | .number _ => true
        | _ => false
      return (← textOf v, numeric)
    | _ =>
      let texts ← es.mapM fun e => do textOf (← eval fuel e)
      return (Text.join (← sharedText "SUBSEP") texts, false)

/-- The pattern that an expression stands for. -/
def patternFrom : (fuel : Nat) → Expr → Work Matching.Pattern
  | 0, _ => stuck
  | fuel + 1, e => do
    match e with
    | .pattern p => return p
    | _ => patternOf (← textOf (← eval fuel e))

/-- The next record of something, which goes to a place: one, or zero at the end, or less if there is nothing to
read from. -/
def readNext : (fuel : Nat) → Option Expr → Option (Source × Expr) → Work Value
  | 0, _, _ => stuck
  | fuel + 1, place, source => do
    let found ← match source with
      | none => some <$> nextRecord readings
      | some (source, e) => recordFrom source (← textOf (← eval fuel e))
    match found with
    | none => return .number (.ofInt (-1))
    | some none => return .ofNat 0
    | some (some t) =>
      match place with
      | none => setRecord t
      | some place => (← slotOf fuel place).put (.ofInput t)
      return .ofNat 1

/-- The value of a function that every program has. -/
def builtin : (fuel : Nat) → Builtin → List Expr → Work Value
  | 0, _, _ => stuck
  | fuel + 1, f, es => do
    match f, es with
    | .length, [] => return .ofNat (← get).record.length
    | .length, [.name t] =>
      let s ← get
      let array ← arrayOf t
      let isValue := (s.locals.values.lookup t).isSome
      match if isValue then none else s.arrays.lookup array with
      | some table => return .ofNat table.size
      | none => return .ofNat (← textOf (← valueOf t)).length
    | .split, e :: .name t :: rest =>
      let text ← textOf (← eval fuel e)
      let separator : Separator ← match rest with
        | [] => separatorOf (← sharedText "FS")
        | .pattern p :: _ => pure (.pattern p)
        | e :: _ => do separatorOf (← textOf (← eval fuel e))
      let parts := separator.cut text
      setAll (← arrayOf t) parts
      return .ofNat parts.length
    | .sub, pattern :: e :: rest | .gsub, pattern :: e :: rest =>
      let p ← patternFrom fuel pattern
      let new ← textOf (← eval fuel e)
      let slot ← match rest with
        | [] => pure (Slot.field 0)
        | place :: _ => if place.isPlace then slotOf fuel place else do
            let _ ← eval fuel place
            pure (.name [])
      let old ← textOf (← slot.value)
      let (t, count) := replaced p new (old.length + 2) (if f = .sub then 1 else old.length + 2) none false
        (Matching.bytesOf old)
      if 0 < count then slot.put (.text t)
      return .ofNat count
    | .matching, [e, pattern] =>
      let t ← textOf (← eval fuel e)
      let p ← patternFrom fuel pattern
      let (start, length) : Int × Int := match p.search none 0 (Matching.bytesOf t) with
        | some m => (m.start + 1, m.stop - m.start)
        | none => (0, -1)
      setShared "RSTART" (.number (.ofInt start))
      setShared "RLENGTH" (.number (.ofInt length))
      return .number (.ofInt start)
    | _, _ =>
      let vs ← es.mapM (eval fuel)
      let x := (vs.head?.getD .nothing).toNumber
      let text (i : Nat) : Work Text := textOf (vs[i]?.getD .nothing)
      match f, vs with
      | .length, _ => return .ofNat (← text 0).length
      | .substr, [_, start] => return .text (partOf (← text 0) start.toNumber none)
      | .substr, [_, start, length] => return .text (partOf (← text 0) start.toNumber (some length.toNumber))
      | .index, _ => return .ofNat (placeOf (← text 0) (← text 1))
      | .sprintf, _ =>
        match ← filled "sprintf" (← text 0) (vs.drop 1) with
        | (t, none) => return .text t
        | (_, some words) => fault words
      | .sin, _ => return .number (x.through Float.sin)
      | .cos, _ => return .number (x.through Float.cos)
      | .exp, _ => return .number (x.through Float.exp)
      | .log, _ => return .number (x.through Float.log)
      | .sqrt, _ => return .number (x.through Float.sqrt)
      | .atan2, [_, y] => return .number (x.through₂ Float.atan2 y.toNumber)
      | .int, _ => return .number x.truncated
      | .rand, _ => random
      | .srand, _ =>
        let s ← get
        set { s with seed := if vs.isEmpty then s.seed + 1 else (x.toInt?.getD 0).natAbs }
        return .ofNat s.seed
      | .tolower, _ => return .text ((← text 0).map Char.toLower)
      | .toupper, _ => return .text ((← text 0).map Char.toUpper)
      | .system, _ =>
        flush
        let line ← text 0
        return .ofNat (← await (← start (← shell "sh" line [])))
      | .close, _ =>
        match ← close (← text 0) with
        | some status => return .ofNat status
        | none => return .number (.ofInt (-1))
      | .fflush, _ =>
        flush
        return .ofNat 0
      | _, _ => return .nothing

/-- The value of a function of the program. Arrays are handed over as they are, values are copied. -/
def call : (fuel : Nat) → Text → List Expr → Work Value
  | 0, _, _ => stuck
  | fuel + 1, name, es => do
    tell (.pass roundTime)
    let s ← get
    match s.functions.find? (·.name = name) with
    | none => return .nothing
    | some f =>
      let locals ← bind fuel f 0 f.parameters es ⟨[], []⟩
      let before := (← get).locals
      modify fun s => { s with locals := locals }
      let answer ← try
          exec fuel f.body
          pure (Except.ok Value.nothing)
        catch stop =>
          match stop with
          | .answer v => pure (.ok v)
          | stop => pure (.error stop)
      -- arrays that the call made are gone, those of the one that called it are older
      let isOlder (a : ArrayName) : Bool :=
        match a with
        | .shared _ => true
        | .made n => n < s.freshArray
      modify fun s => { s with locals := before, arrays := s.arrays.filter fun e => isOlder e.1 }
      match answer with
      | .ok v => return v
      | .error stop => throw stop

/-- What a call knows at its start: its parameters, from the one with a number on. -/
def bind (fuel : Nat) (f : Function) (n : Nat) (parameters : List Text) (es : List Expr) (l : Locals) :
    Work Locals :=
  match fuel with
  | 0 => stuck
  | fuel + 1 => do
    match parameters with
    | [] => return l
    | p :: rest =>
      if (← get).arrayParameters.contains (f.name, n) then
        let array ← match es.head? with
          | some (.name t) => arrayOf t
          | _ => do
            let s ← get
            set { s with freshArray := s.freshArray + 1 }
            pure (.made s.freshArray)
        bind fuel f (n + 1) rest (es.drop 1) { l with arrays := (p, array) :: l.arrays }
      else
        let v ← match es.head? with
          | some e => eval fuel e
          | none => pure .nothing
        bind fuel f (n + 1) rest (es.drop 1) { l with values := (p, v) :: l.values }

/-- Does a statement. -/
def exec : (fuel : Nat) → Statement → Work Unit
  | 0, _ => stuck
  | fuel + 1, s => do
    match s with
    | .nothing => return
    | .value e =>
      let _ ← eval fuel e
    | .print items sink =>
      let texts ← match items with
        | [] => pure [(← get).record]
        | _ => items.mapM fun e => do shown (← eval fuel e)
      let target ← targetOf fuel sink
      print target (Text.join (← sharedText "OFS") texts ++ (← sharedText "ORS"))
    | .printf items sink =>
      let vs ← items.mapM (eval fuel)
      let target ← targetOf fuel sink
      let (t, words) ← filled "printf" (← textOf (vs.headD .nothing)) (vs.drop 1)
      print target t
      match words with
      | some words => fault words
      | none => return
    | .block ss => ss.forM (exec fuel)
    | .choice condition yes no => if (← eval fuel condition).holds then exec fuel yes else exec fuel no
    | .whileLoop condition body =>
      if (← eval fuel condition).holds then
        if ← inRound (exec fuel body) then exec fuel (.whileLoop condition body)
    | .doLoop body condition =>
      if ← inRound (exec fuel body) then
        if (← eval fuel condition).holds then exec fuel (.doLoop body condition)
    | .forLoop start condition step body =>
      match start with
      | some e =>
        let _ ← eval fuel e
      | none => pure ()
      let goesOn ← match condition with
        | some e => do pure (← eval fuel e).holds
        | none => pure true
      if goesOn then
        if ← inRound (exec fuel body) then
          match step with
          | some e =>
            let _ ← eval fuel e
          | none => pure ()
          exec fuel (.forLoop none condition step body)
    | .eachKey name array body =>
      let keys := (← tableOf (← arrayOf array)).keys
      each fuel name body keys
    | .leaveLoop => throw .leaveLoop
    | .nextRound => throw .nextRound
    | .nextRecord => throw .nextRecord
    | .nextFile => throw .nextFile
    | .exit status =>
      match status with
      | some e =>
        let n := (← eval fuel e).toNumber.toInt?.getD 0
        modify fun s => { s with status := (n % 256).toNat }
      | none => pure ()
      throw .exit
    | .answer e =>
      match e with
      | some e => throw (.answer (← eval fuel e))
      | none => throw (.answer .nothing)
    | .delete array keys =>
      let array ← arrayOf array
      if keys.isEmpty then setTable array .empty
      else
        let (key, _) ← keyOf fuel keys
        setTable array ((← tableOf array).erase key)

/-- Does a statement for each key. -/
def each (fuel : Nat) (name : Text) (body : Statement) (keys : List Text) : Work Unit :=
  match fuel with
  | 0 => stuck
  | fuel + 1 => do
    match keys with
    | [] => return
    | key :: rest =>
      setValue name (.text key)
      if ← inRound (exec fuel body) then each fuel name body rest

/-- Where is printed to. -/
def targetOf : (fuel : Nat) → Option (Sink × Expr) → Work (Option (Sink × Text))
  | 0, _ => stuck
  | fuel + 1, sink => do
    match sink with
    | some (sink, e) => return some (sink, ← textOf (← eval fuel e))
    | none => return none

end

/-! ## Programs -/

/-- The fuel of a program. -/
def fuel : Nat := Nat.pow 2 50

/-- What a rule does. -/
def act (r : Rule) : Work Unit := exec fuel (r.action.getD (.print [] none))

/-- The rule with a number is to be applied to the record. -/
def applies (n : Nat) (r : Rule) : Work Bool := do
  match r.trigger with
  | .start | .finish => return false
  | .always => return true
  | .holds e => return (← eval fuel e).holds
  | .between a b =>
    let begun := (← get).active.contains n
    if begun || (← eval fuel a).holds then
      let ended := (← eval fuel b).holds
      modify fun s => { s with active := if ended then s.active.filter (· != n) else n :: s.active.filter (· != n) }
      return true
    else return false

/-- All rules are applied to the record that fit. -/
def forRecord (code : Code) : Work Unit :=
  code.rules.zipIdx.forM fun (r, n) => do
    if ← applies n r then act r

/-- The records of the input in turn. -/
def records (code : Code) : (rounds : Nat) → Work Unit
  | 0 => return
  | rounds + 1 => do
    tell (.pass roundTime)
    match ← nextRecord readings with
    | none => return
    | some t =>
      setRecord t
      try forRecord code
      catch stop =>
        match stop with
        | .nextRecord => pure ()
        | .nextFile => dropInput
        | stop => throw stop
      records code rounds

/-- Rules for the start or the end. -/
def apart (code : Code) (finish : Bool) : Work Unit :=
  code.rules.forM fun r =>
    match r.trigger, finish with
    | .start, false | .finish, true => act r
    | _, _ => return

/-- Work that may leave the program: true if it did. -/
def leaving (work : Work Unit) : Work Bool := do
  try
    work
    return false
  catch stop =>
    match stop with
    | .exit => return true
    | stop => throw stop

/-- The rules for the start are the only ones. -/
def onlyStarts (code : Code) : Bool := code.rules.all fun r => r.trigger matches .start

/-- The whole program. -/
def whole (code : Code) : Work Unit := do
  let left ← leaving (apart code false)
  if onlyStarts code then return
  unless left do
    let _ ← leaving (records code readings)
  let _ ← leaving (apart code true)

end FlowTypes.Script.Records.Run
