import FlowTypes.Script.Launch
import FlowTypes.Script.Records.Pattern
import FlowTypes.Script.Records.Table
import FlowTypes.Script.Records.Token
import FlowTypes.Script.Records.Value

/-!
# Sessions of records programs

While a records program runs, it has variables and arrays, the record and its fields, files and programs to read
from and to print to (`Session`). Its work changes the session and may stop early (`Work`).

Fields are cut from the record when one is asked for, and the record is put together again when a field changes.
What is printed is held back and flushed when much has come together, before another program runs, and at the end.

## Termination

Reading a record asks for more bytes until a separator or the end is there; the fuel bounds how often.
-/

namespace FlowTypes.Script.Records

/-- The name of an array: of one that the whole program shares, or of one that a call of a function made. -/
inductive ArrayName where
  | shared (t : Text)
  | made (n : Nat)
  deriving DecidableEq, Repr

/-- Why work stops early. -/
inductive Stop where
  /-- Something is wrong that nothing helps against. -/
  | fault (words : Text)
  | exit
  | nextRecord
  | nextFile
  | leaveLoop
  | nextRound
  | answer (v : Value)

/-- Where records come from: a channel, the bytes that were read from it and not used, whether it is at its end, and
the program that writes to it. -/
structure Inflow where
  channel : Nat
  left : Text
  ended : Bool
  worker : Option Nat

/-- Where is printed to: a channel, what is held back, last first, how much that is, and the program that reads. -/
structure Outflow where
  channel : Nat
  pending : List Text
  size : Nat
  worker : Option Nat

/-- What only one call of a function knows. -/
structure Locals where
  values : List (Text × Value)
  arrays : List (Text × ArrayName)

/-- A records program that runs. -/
structure Session where
  tool : Text
  launch : Launch
  environment : Environment
  functions : List Function
  /-- The parameters of functions that are arrays. -/
  arrayParameters : List (Text × Nat)
  values : List (Text × Value)
  arrays : List (ArrayName × Table Value)
  locals : Locals
  record : Text
  /-- The fields, if they have been cut. -/
  fields : Option (Array Value)
  /-- The number of the next word of the call that may name a file. -/
  argument : Nat
  /-- A file was named by a word of the call. -/
  named : Bool
  inputEnded : Bool
  input : Option Inflow
  inflows : List ((Source × Text) × Inflow)
  outflows : List ((Sink × Text) × Outflow)
  output : Outflow
  patterns : List (Text × Matching.Pattern)
  /-- The rules that apply from one record to another and have begun to. -/
  active : List Nat
  freshChannel : Nat
  freshArray : Nat
  seed : Nat
  status : Nat

/-- The work of a records program. -/
abbrev Work := ExceptT Stop (StateT Session Errand)

namespace Work

/-! ## Calls of the system -/

/-- The reply to a call. -/
def ask (c : Call) : Work Reply := (liftM (Errand.ask c) : StateT Session Errand Reply)

/-- A call whose reply does not matter. -/
def tell (c : Call) : Work Unit := (liftM (Errand.tell c) : StateT Session Errand Unit)

/-- Bytes are written to a channel. -/
def send (channel : Nat) (t : Text) : Work Unit := (liftM (Errand.write channel t) : StateT Session Errand Unit)

/-- Another program is started, which has a number. -/
def start (child : Program) : Work Nat :=
  (liftM (Errand.fork child) : StateT Session Errand Nat)

/-! ## Names -/

/-- A table with a value for a key, which comes first. -/
def alter {κ α : Type} [BEq κ] (table : List (κ × α)) (key : κ) (value : α) : List (κ × α) :=
  (key, value) :: table.filter fun e => !(e.1 == key)

/-- The value of a name that the whole program shares. -/
def sharedValue (name : Text) : Work Value := do return ((← get).values.lookup name).getD .nothing

/-- A name that the whole program shares gets a value. -/
def setShared (name : Text) (v : Value) : Work Unit :=
  modify fun s => { s with values := alter s.values name v }

/-- The template by which numbers become texts. -/
def template : Work Text := do
  match ← sharedValue "CONVFMT" with
  | .text t | .numeral t _ => return t
  | _ => return "%.6g"

/-- The text of a value. -/
def textOf (v : Value) : Work Text := do
  match v with
  | .number _ => return v.toText (← template)
  | _ => return v.toText []

/-- The text of a name that the whole program shares. -/
def sharedText (name : Text) : Work Text := do textOf (← sharedValue name)

/-- A count that the whole program shares goes up. -/
def countUp (name : Text) : Work Unit := do
  setShared name (.number ((← sharedValue name).toNumber.add .one))

/-- Something is wrong while the program runs. -/
def fault {α : Type} (words : Text) : Work α := do
  let file ← sharedText "FILENAME"
  let numbers := (← sharedText "FNR", ← sharedText "NR")
  throw (.fault ("run time error: " ++ words ++ "\n\tFILENAME=\"" ++ file ++ "\" FNR=" ++ numbers.1 ++ " NR="
    ++ numbers.2))

/-- A pattern that a text tells. -/
def patternOf (source : Text) : Work Matching.Pattern := do
  match (← get).patterns.lookup source with
  | some p => return p
  | none =>
    match compile source with
    | .ok p =>
      modify fun s => { s with patterns := (source, p) :: s.patterns.take 50 }
      return p
    | .error words => fault ("regular expression compile failed (" ++ words ++ ")\n" ++ source)

/-! ## Arrays -/

/-- The array that a name stands for. -/
def arrayOf (name : Text) : Work ArrayName := do
  return ((← get).locals.arrays.lookup name).getD (.shared name)

/-- The table of an array. -/
def tableOf (array : ArrayName) : Work (Table Value) := do
  return ((← get).arrays.lookup array).getD .empty

/-- An array gets another table. -/
def setTable (array : ArrayName) (t : Table Value) : Work Unit :=
  modify fun s => { s with arrays := alter s.arrays array t }

/-- The value of a key, which is in the array from now on. A key that is a number keeps its place. -/
def elementOf (array : ArrayName) (key : Text) (numeric : Bool) : Work Value := do
  let t ← tableOf array
  match t.get? key with
  | some v =>
    unless numeric do setTable array (t.put key v)
    return v
  | none =>
    setTable array (t.put key .nothing)
    return .nothing

/-- A key of an array gets a value. -/
def setElement (array : ArrayName) (key : Text) (v : Value) : Work Unit := do
  let t ← tableOf array
  setTable array (if (t.get? key).isSome then t.replace key v else t.put key v)

/-- An array gets elements with the keys one, two, and so on. -/
def setAll (array : ArrayName) (items : List Text) : Work Unit :=
  setTable array (items.zipIdx.foldl (fun t (item, i) => t.put (Text.ofNat (i + 1)) (.ofInput item)) .empty)

/-! ## Fields -/

/-- What fields are cut at: blanks, nothing at all, a character, or a pattern. -/
inductive Separator where
  | blanks
  | everywhere
  | char (c : Char)
  | pattern (p : Matching.Pattern)

/-- The separator that a text tells. -/
def separatorOf (t : Text) : Work Separator :=
  match t with
  | [] => return .everywhere
  | [' '] => return .blanks
  | [c] => return .char c
  | _ => do return .pattern (← patternOf t)

/-- Symbols cut at the matches of a pattern that are not empty. `before` is the last symbol that was passed, and
`part` is what belongs to the next part, last first. -/
def cutAtMatches (p : Matching.Pattern) : (fuel : Nat) → (before : Option Matching.Symbol) → (part : Text) →
    List Matching.Symbol → List Text
  | 0, _, part, _ => [part.reverse]
  | fuel + 1, before, part, symbols =>
    match p.search before 0 symbols with
    | none => [part.reverse ++ Matching.textOf symbols]
    | some m =>
      let skipped := symbols.take (if m.stop = m.start then m.start + 1 else m.start)
      let part := (Matching.textOf skipped).reverse ++ part
      if m.stop = m.start then
        if skipped.length = m.start then [part.reverse]
        else cutAtMatches p fuel (skipped.getLast?.or before) part (symbols.drop skipped.length)
      else
        part.reverse :: cutAtMatches p fuel ((symbols.take m.stop).getLast?.or before) [] (symbols.drop m.stop)

/-- A text cut at blanks. -/
def words : (fuel : Nat) → Text → List Text
  | 0, _ => []
  | fuel + 1, t =>
    let isBlank (c : Char) : Bool := c == ' ' || c == '\t' || c == '\n'
    let t := t.dropWhile isBlank
    if t.isEmpty then []
    else
      let word := t.takeWhile fun c => !isBlank c
      word :: words fuel (t.drop word.length)

/-- The parts of a text. -/
def Separator.cut (t : Text) : Separator → List Text
  | blanks => words (t.length + 1) t
  | everywhere => t.map ([·])
  | char c => if t.isEmpty then [] else Raw.fields c t
  | pattern p => if t.isEmpty then [] else cutAtMatches p (t.length + 1) none [] (Matching.bytesOf t)

/-- The fields. In records that are paragraphs, line ends separate them too. -/
def fields : Work (Array Value) := do
  let s ← get
  match s.fields with
  | some found => return found
  | none =>
    let separator ← separatorOf (← sharedText "FS")
    let paragraphs := (← sharedText "RS").isEmpty
    let parts := match paragraphs, separator with
      | true, .blanks | false, _ => separator.cut s.record
      | true, _ => (Raw.fields '\n' s.record).flatMap fun line => separator.cut line
    let found := (parts.map Value.ofInput).toArray
    set { s with fields := some found }
    return found

/-- Another record. -/
def setRecord (t : Text) : Work Unit := modify fun s => { s with record := t, fields := none }

/-- Other fields, from which the record is put together. -/
def setFields (found : Array Value) : Work Unit := do
  let separator ← sharedText "OFS"
  let texts ← found.toList.mapM textOf
  modify fun s => { s with record := Text.join separator texts, fields := some found }

/-- The value of a field. -/
def fieldOf (n : Nat) : Work Value := do
  if n = 0 then return .ofInput (← get).record
  else return ((← fields)[n - 1]?).getD (.text [])

/-- Fields with so many places at least. -/
def atLeast (found : Array Value) (n : Nat) : Array Value :=
  found ++ Array.replicate (n - found.size) (Value.text [])

/-- A field gets a value. -/
def setField (n : Nat) (v : Value) : Work Unit := do
  if n = 0 then setRecord (← textOf v)
  else
    let found := atLeast (← fields) n
    setFields (found.setIfInBounds (n - 1) v)

/-! ## Variables -/

/-- The value of a name. -/
def valueOf (name : Text) : Work Value := do
  match (← get).locals.values.lookup name with
  | some v => return v
  | none => if name = ("NF" : Text) then return .ofNat (← fields).size else sharedValue name

/-- A name gets a value. The number of fields changes the fields, and the separator counts only for further
records. -/
def setValue (name : Text) (v : Value) : Work Unit := do
  let s ← get
  if (s.locals.values.lookup name).isSome then
    set { s with locals := { s.locals with values := alter s.locals.values name v } }
  else if name = ("NF" : Text) then
    let n := (v.toNumber.toInt?.getD 0).toNat
    let found ← fields
    setFields ((atLeast found n).extract 0 n)
  else
    if name = ("FS" : Text) then
      let _ ← fields
    setShared name v

/-! ## Printing -/

/-- The bytes that are held back at most. -/
def most : Nat := 4096

/-- What is held back goes out. -/
def Outflow.flush (o : Outflow) : Work Outflow := do
  send o.channel o.pending.reverse.flatten
  return { o with pending := [], size := 0 }

/-- Bytes more, which may be held back. -/
def Outflow.add (o : Outflow) (t : Text) : Work Outflow := do
  let o : Outflow := { o with pending := t :: o.pending, size := o.size + t.length }
  if most ≤ o.size then Outflow.flush o else return o

/-- All that is held back goes out. -/
def flush : Work Unit := do
  let s ← get
  let output ← Outflow.flush s.output
  let outflows ← s.outflows.mapM fun (key, o) => do return (key, ← Outflow.flush o)
  modify fun s => { s with output := output, outflows := outflows }

/-- Channels that nobody has. -/
def fresh : Work Nat := do
  let s ← get
  set { s with freshChannel := s.freshChannel + 1 }
  return s.freshChannel

/-- The program that a shell makes of a text. Of all channels it has but the usual ones, after `first`. -/
def shell (name line : Text) (first : List Call) : Work Program := do
  let s ← get
  let closing := (List.range s.freshChannel).drop 3 |>.map Call.close
  let program := s.launch.calling s.environment [name, ['-', 'c'], line] fun _ => .finish (.status 127)
  return (first ++ closing).foldr (fun c next => .call c fun _ => next) program

/-- The end of a program as a number. -/
def statusOf : Ending → Nat
  | .status n => n
  | .signal n => 256 + n

/-- A program is waited for. -/
def await (number : Nat) : Work Nat := do
  match ← ask (.wait (some number)) with
  | .ended _ ending => return statusOf ending
  | _ => return 0

/-- Something is opened to print to. -/
def openSink (sink : Sink) (name : Text) : Work Outflow := do
  match sink with
  | .input =>
    flush
    let (r, w) := (← fresh, ← fresh)
    tell (.pipe r w)
    let number ← start (← shell "/bin/sh" name [.copy r 0])
    tell (.close r)
    return ⟨w, [], 0, some number⟩
  | _ =>
    let channel ← fresh
    match ← ask (.openFile channel name (if sink = .file then .writing else .adding)) with
    | .refused cause => throw (.fault ("cannot open \"" ++ name ++ "\" for output (" ++ cause.words ++ ")"))
    | _ => return ⟨channel, [], 0, none⟩

/-- Bytes are printed, to the output or to something else. -/
def print (target : Option (Sink × Text)) (t : Text) : Work Unit := do
  let onOutput : Work Unit := do
    let output ← Outflow.add (← get).output t
    modify fun s => { s with output := output }
  match target with
  | none => onOutput
  | some (sink, name) =>
    if sink != .input && (name = ("/dev/stdout" : Text) || name = ("-" : Text)) then onOutput
    else if sink != .input && name = ("/dev/stderr" : Text) then send 2 t
    else
      -- a file that is open is not opened again to print to its end
      let key := (if sink = .addition then Sink.file else sink, name)
      let o ← match (← get).outflows.lookup key with
        | some o => pure o
        | none => openSink sink name
      let o ← Outflow.add o t
      modify fun s => { s with outflows := alter s.outflows key o }

/-- Nothing more is printed there, and the program that reads it is waited for. -/
def Outflow.finish (o : Outflow) : Work Nat := do
  let o ← Outflow.flush o
  tell (.close o.channel)
  match o.worker with
  | some number => await number
  | none => return 0

/-! ## Records -/

/-- What ends a record: a character, an empty line, or a pattern. -/
inductive RecordEnd where
  | char (c : Char)
  | emptyLine
  | pattern (p : Matching.Pattern)

/-- What ends records. -/
def recordEnd : Work RecordEnd := do
  match ← sharedText "RS" with
  | [] => return .emptyLine
  | [c] => return .char c
  | t => return .pattern (← patternOf t)

/-- A text up to an empty line, and what follows it; none if there is no empty line. -/
def upToEmptyLine : Text → Option (Text × Text)
  | [] => none
  | '\n' :: '\n' :: rest => some ([], rest)
  | c :: rest => (upToEmptyLine rest).map fun (t, after) => (c :: t, after)

/-- The first record of some bytes and what follows it; none if more bytes are needed. -/
def RecordEnd.first? (ended : Bool) (t : Text) : RecordEnd → Option (Text × Text)
  | char c =>
    let record := t.takeWhile (· != c)
    match t.drop record.length with
    | _ :: rest => some (record, rest)
    | [] => if ended && !t.isEmpty then some (t, []) else none
  | emptyLine =>
    let t := t.dropWhile (· == '\n')
    match upToEmptyLine t with
    | some (record, rest) => some (record, rest.dropWhile (· == '\n'))
    | none =>
      if ended && !t.isEmpty then some (if t.getLast? = some '\n' then t.dropLast else t, []) else none
  | pattern p =>
    match p.search none 0 (Matching.bytesOf t) with
    | some m =>
      if m.start < m.stop && (ended || m.stop < t.length) then some (t.take m.start, t.drop m.stop)
      else if ended && !t.isEmpty then some (t, [])
      else none
    | none => if ended && !t.isEmpty then some (t, []) else none

/-- The next record, and what is left. -/
def nextOf (e : RecordEnd) : (fuel : Nat) → Inflow → Work (Option Text × Inflow)
  | 0, i => return (none, i)
  | fuel + 1, i => do
    match e.first? i.ended i.left with
    | some (record, rest) => return (some record, { i with left := rest })
    | none =>
      if i.ended then return (none, i)
      else
        match ← ask (.read i.channel most) with
        | .bytes [] => nextOf e fuel { i with ended := true }
        | .bytes t => nextOf e fuel { i with left := i.left ++ t }
        | .refused cause => throw (.fault ("read error (" ++ cause.words ++ ")"))
        | _ => nextOf e fuel { i with ended := true }

/-- How often something is read at most. -/
def readings : Nat := Nat.pow 2 40

/-- A name and a value that a word of the call gives to it. -/
def assignment? (t : Text) : Option (Text × Text) :=
  let name := t.takeWhile fun c => c.isAlphanum || c == '_'
  match t.drop name.length with
  | '=' :: value => if name.isEmpty || name.head?.any Char.isDigit then none else some (name, value)
  | _ => none

/-- The next file that a word of the call names is opened; false if there is none. -/
def openNext : (fuel : Nat) → Work Bool
  | 0 => return false
  | fuel + 1 => do
    let s ← get
    let count := (s.values.lookup ("ARGC" : Text)).getD .nothing
    let opened (channel : Nat) (name : Text) : Work Bool := do
      modify fun s => { s with input := some ⟨channel, [], false, none⟩, named := true }
      setShared "FILENAME" (.ofInput name)
      setShared "FNR" (.ofNat 0)
      return true
    if (count.toNumber.toInt?.getD 0) ≤ s.argument then
      if s.named then
        set { s with inputEnded := true }
        return false
      else opened 0 ['-']
    else
      let word ← match (← tableOf (.shared "ARGV")).get? (Text.ofNat s.argument) with
        | some v => textOf v
        | none => pure []
      set { s with argument := s.argument + 1 }
      if word.isEmpty then openNext fuel
      else
        match assignment? word with
        | some (name, value) =>
          setValue name (.ofInput (Token.unescaped (value.length + 1) value))
          openNext fuel
        | none =>
          if word = (['-'] : Text) then opened 0 word
          else
            let channel ← fresh
            match ← ask (.openFile channel word .reading) with
            | .refused cause => throw (.fault ("cannot open \"" ++ word ++ "\" (" ++ cause.words ++ ")"))
            | _ => opened channel word

/-- The rest of the file that is read does not count. -/
def dropInput : Work Unit := do
  match (← get).input with
  | some i =>
    if i.channel != 0 then tell (.close i.channel)
    modify fun s => { s with input := none }
  | none => pure ()

/-- The next record of the input, which counts. -/
def nextRecord : (fuel : Nat) → Work (Option Text)
  | 0 => return none
  | fuel + 1 => do
    let s ← get
    if s.inputEnded then return none
    match s.input with
    | none => if ← openNext readings then nextRecord fuel else return none
    | some i =>
      let (record, i) ← nextOf (← recordEnd) readings i
      modify fun s => { s with input := some i }
      match record with
      | some t =>
        countUp "NR"
        countUp "FNR"
        return some t
      | none =>
        dropInput
        nextRecord fuel

/-- Something is opened to read from; none if it cannot be. -/
def openSource (source : Source) (name : Text) : Work (Option Inflow) := do
  match source with
  | .output =>
    flush
    let (r, w) := (← fresh, ← fresh)
    tell (.pipe r w)
    let number ← start (← shell "/bin/sh" name [.copy w 1])
    tell (.close w)
    return some ⟨r, [], false, some number⟩
  | .file =>
    if name = (['-'] : Text) then return some ⟨0, [], false, none⟩
    else
      let channel ← fresh
      match ← ask (.openFile channel name .reading) with
      | .refused _ => return none
      | _ => return some ⟨channel, [], false, none⟩

/-- The next record of something else than the input: none if it cannot be opened, and none inside of that if it is
at its end. -/
def recordFrom (source : Source) (name : Text) : Work (Option (Option Text)) := do
  let i? ← match (← get).inflows.lookup (source, name) with
    | some i => pure (some i)
    | none => openSource source name
  match i? with
  | none => return none
  | some i =>
    let (record, i) ← nextOf (← recordEnd) readings i
    modify fun s => { s with inflows := alter s.inflows (source, name) i }
    return some record

/-- All that is open with a name is closed: the status of the last program, or none if nothing was open. -/
def close (name : Text) : Work (Option Nat) := do
  let s ← get
  let sinks := s.outflows.filter (·.1.2 = name)
  let sources := s.inflows.filter (·.1.2 = name)
  set { s with
    outflows := s.outflows.filter (·.1.2 != name)
    inflows := s.inflows.filter (·.1.2 != name) }
  let first ← sinks.mapM fun (_, o) => Outflow.finish o
  let second ← sources.mapM fun (_, i) => do
    tell (.close i.channel)
    match i.worker with
    | some number => await number
    | none => return 0
  return (first ++ second).getLast?

/-- All sinks are closed at the end. -/
def finishAll : Work Unit := do
  let s ← get
  set { s with outflows := [] }
  let _ ← s.outflows.mapM fun (_, o) => Outflow.finish o
  let output ← Outflow.flush (← get).output
  modify fun s => { s with output := output }

end Work

end FlowTypes.Script.Records
