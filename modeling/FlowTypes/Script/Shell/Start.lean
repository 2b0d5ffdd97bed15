import FlowTypes.Script.Shell.Run

/-!
# Starting shells

A shell is a program (`Shell.program`). Its words say where its script is: in a file, in a word, or in what it
reads. Options may stand before that.
-/

namespace FlowTypes.Script.Shell

open Work

/-- How deep the commands of a script may be nested and how often its loops may go round. -/
def fuel : Nat := Nat.pow 2 50

/-- A shell before it has done anything. -/
def initial (name : Text) (environment : Environment) : Shell where
  script := name
  arguments := []
  holdings := [(("IFS" : Text), ⟨some " \t\n", false, false⟩), ("OPTIND", ⟨some "1", false, false⟩),
      ("PS1", ⟨some "# ", false, false⟩), ("PS2", ⟨some "> ", false, false⟩),
      ("PS4", ⟨some "+ ", false, false⟩), ("PPID", ⟨some "4241", false, false⟩)]
    ++ (if (environment.lookup ("PATH" : Text)).isSome then []
      else [(("PATH" : Text), ⟨some Launch.standardPath, false, false⟩)])
    ++ ((environment.filter fun e => isName e.1 && e.1 != ("IFS" : Text) && e.1 != ("OPTIND" : Text)).map
      fun (name, value) => (name, ⟨some value, true, false⟩))
  functions := []
  traps := []
  caught := []
  options := []
  number := 0
  line := 0
  ahead := 0
  within := none
  status := 0
  answer := 0
  aside := none
  jobs := []
  loops := 0
  calls := 0
  scopes := []
  documents := []
  fresh := 0
  nicknames := []
  met := []
  mask := 18
  index := 1
  offset := 0

/-- What the words of a shell ask for: options, whether the script is in a word, and the words behind them. -/
structure Request where
  options : Text
  fromWord : Bool
  words : List Text

/-- The options at the start of the words; or the one that does not exist. -/
def readOptions (request : Request) : List Text → Except Text Request
  | [] => .ok { request with words := [] }
  | ['-', '-'] :: rest | ['-'] :: rest => .ok { request with words := rest }
  | [sign, 'o'] :: name :: rest =>
    if sign == '-' || sign == '+' then
      match Builtin.optionNames.lookup name with
      | some letter => readOptions (switched request (sign == '-') letter) rest
      | none => .error ("-o " ++ name)
    else .ok { request with words := [sign, 'o'] :: name :: rest }
  | (sign :: letter :: letters) :: rest =>
    if sign == '-' || sign == '+' then
      match (letter :: letters).find? fun l => !("cefIimnsxvVECabupl".toList).contains l with
      | some bad => .error ['-', bad]
      | none =>
        let request := (letter :: letters).foldl (fun request l =>
          if l == 'c' then { request with fromWord := true }
          else if l == 'l' then request
          else switched request (sign == '-') l) request
        readOptions request rest
    else .ok { request with words := (sign :: letter :: letters) :: rest }
  | words => .ok { request with words := words }
where
  switched (request : Request) (on : Bool) (letter : Char) : Request :=
    let others := request.options.filter (· != letter)
    { request with options := if on then letter :: others else others }

/-- A shell that cannot start. -/
def refuse (name complaint : Text) : Work Unit := do
  let _ ← send 2 (name ++ ": 0: " ++ complaint ++ ['\n'])
  setStatus 2

/-- The work of a shell with some words, the first of which is its name. -/
def work (launch : Launch) (words : List Text) : Work Unit := do
  let name := words.headD "sh"
  match readOptions ⟨[], false, []⟩ (words.drop 1) with
  | .error bad => refuse name ("Illegal option " ++ bad)
  | .ok request =>
    let number ← match ← ask .number with
      | .number n => pure n
      | _ => pure 0
    modify fun s => { s with options := request.options, number := number }
    assign "PWD" (← Builtin.directory) true
    let source (script : Text) : Reader.Source := Reader.source script [] 0 []
    if request.fromWord then
      match request.words with
      | [] => refuse name "-c requires an argument"
      | script :: rest =>
        modify fun s => { s with script := rest.headD name, arguments := rest.drop 1 }
        Run.toEnd launch fuel (Run.rows launch fuel false true false false (source script))
    else if request.words.isEmpty || request.options.contains 's' then
      modify fun s => { s with arguments := request.words }
      let script ← Run.readAll 0 patience []
      Run.toEnd launch fuel (Run.rows launch fuel false false true false (source script))
    else
      let path := request.words.headD []
      modify fun s => { s with script := path, arguments := request.words.drop 1 }
      let (tree, _) ← look
      match System.locate tree path with
      | .ok (_, some (.file bytes)) =>
        Run.toEnd launch fuel (Run.rows launch fuel false false true false (source (Raw.ofBytes bytes)))
      | .ok (_, some .directory) => pure ()
      | .ok (_, none) => refuse name ("cannot open " ++ path ++ ": No such file")
      | .error cause => refuse name ("cannot open " ++ path ++ ": " ++ refusalWords cause "No such file")

/-- A shell as a program. -/
def program (launch : Launch) (environment : Environment) (words : List Text) : Program :=
  work launch words (initial (words.headD "sh") environment) fun s _ => .finish (.status (s.status % 256))

end FlowTypes.Script.Shell
