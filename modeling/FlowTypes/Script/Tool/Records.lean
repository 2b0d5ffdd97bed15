import FlowTypes.Script.Records.Reader
import FlowTypes.Script.Records.Run
import FlowTypes.Script.Tool

/-!
# The tool for records

Reads a records program from its words or from files and runs it. Other words name files, or give values to names
when their turn comes.
-/

namespace FlowTypes.Script.Tool

open Errand

/-- How a records program is called: its separator and values for names, in their order, the files that hold the
program, and the other words. -/
structure RecordsCall where
  values : List (Text × Text)
  files : List Text
  words : List Text

/-- The options of a call, which stand before all other words; or what is wrong with them. -/
def readRecordsCall : (fuel : Nat) → List Text → Except Text RecordsCall
  | 0, words => .ok ⟨[], [], words⟩
  | _, [] => .ok ⟨[], [], []⟩
  | _, ['-', '-'] :: rest => .ok ⟨[], [], rest⟩
  | fuel + 1, ('-' :: c :: value) :: rest => do
    let word := '-' :: c :: value
    if !(("FvfW".toList).contains c) then throw ("not an option: " ++ word)
    let (value, rest) ← match value, rest with
      | [], [] => throw ("option -" ++ [c] ++ " lacks argument")
      | [], next :: further => pure (next, further)
      | _, _ => pure (value, rest)
    let others ← readRecordsCall fuel rest
    match c with
    | 'F' => pure { others with values := ("FS", value) :: others.values }
    | 'v' =>
      match Records.Work.assignment? value with
      | some (name, t) => pure { others with values := (name, t) :: others.values }
      | none => throw ("improper assignment: -v " ++ value)
    | 'f' => pure { others with files := value :: others.files }
    | _ => pure others
  | _, words => .ok ⟨[], [], words⟩

/-- The file that holds a line of a program from several files, and the number of the line there. -/
def lineIn (files : List (Text × Nat)) (line : Nat) : Option Text × Nat :=
  match files with
  | [] => (none, line)
  | [(name, _)] => (some name, line)
  | (name, count) :: rest => if line ≤ count then (some name, line) else lineIn rest (line - count)

/-- A session at its start. -/
def startSession (launch : Launch) (environment : Environment) (tool : Text) (code : Records.Code)
    (values : List (Text × Text)) (words : List Text) : Records.Session :=
  let ofText (t : Text) : Records.Value := .text t
  let table (items : List (Text × Text)) : Records.Table Records.Value :=
    items.foldl (fun t (key, value) => t.put key (.ofInput value)) .empty
  let arguments := (tool :: words).zipIdx.map fun (word, i) => (Text.ofNat i, word)
  let usual : List (Text × Records.Value) :=
    [("FS", ofText " "), ("OFS", ofText " "), ("RS", ofText "\n"), ("ORS", ofText "\n"), ("SUBSEP", ofText "\x1c"),
      ("CONVFMT", ofText "%.6g"), ("OFMT", ofText "%.6g"), ("NR", .ofNat 0), ("FNR", .ofNat 0), ("RSTART", .ofNat 0),
      ("RLENGTH", .number (.ofInt (-1))), ("ARGC", .ofNat arguments.length)]
  let given := values.map fun (name, t) => (name, Records.Value.ofInput (Records.Token.unescaped (t.length + 1) t))
  let rounds := (code.functions.map (·.parameters.length)).foldl (· + ·) 0 + 1
  { tool := tool
    launch := launch
    environment := environment
    functions := code.functions
    arrayParameters := Records.arrayParameters code.functions rounds []
    values := given.foldl (fun values (name, v) => Records.Work.alter values name v) usual
    arrays := [(.shared "ARGV", table arguments), (.shared "ENVIRON", table environment)]
    locals := ⟨[], []⟩
    record := []
    fields := none
    argument := 1
    named := false
    inputEnded := false
    input := none
    inflows := []
    outflows := []
    output := ⟨1, [], 0, none⟩
    patterns := []
    active := []
    freshChannel := fileChannel
    freshArray := 0
    seed := 1
    status := 0 }

/-- Runs a records program. -/
def records : Tool := fun launch environment words => do
  let tool := words.headD []
  let fail {α : Type} (complaints : List Text) : Errand α := do
    complaints.forM fun c => complain (tool ++ ": " ++ c)
    finish 2
  let call ← match readRecordsCall words.length (words.drop 1) with
    | .ok call => pure call
    | .error complaint => fail [complaint]
  let parts ← call.files.mapM fun name => do
    match ← contentOf name with
    | .ok t => return (name, if t.getLast?.any (· != '\n') then t ++ ['\n'] else t)
    | .error trouble => fail [("cannot open \"" : Text) ++ name ++ "\" (" ++ trouble.cause.words ++ ")"]
  let (text, operands) ← match call.files, call.words with
    | [], [] =>
      complain "Usage: mawk [Options] [Program] [file ...]"
      finish 0
    | [], text :: rest => pure (text ++ ['\n'], rest)
    | _, operands => pure (parts.flatMap (·.2), operands)
  if text.all (fun c => c == '\n' || c == ' ' || c == '\t') then return 0
  match Records.readCode text with
  | .error complaints =>
    let lines := parts.map fun (name, t) => (name, Records.Token.lineEndsIn t)
    fail (complaints.map fun c =>
      let (file, line) := lineIn lines c.line
      { c with line := line }.message file)
  | .ok code =>
    let session := startSession launch environment tool code call.values operands
    let (outcome, session) ← ((Records.Run.whole code).run).run session
    let words := match outcome with
      | .error (.fault words) => some words
      | _ => none
    match words with
    | some words => complain (tool ++ ": " ++ words)
    | none => pure ()
    let _ ← (Records.Work.finishAll.run).run session
    return if words.isSome then 2 else session.status

end FlowTypes.Script.Tool
