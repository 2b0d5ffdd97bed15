import FlowTypes.Script.Condition
import FlowTypes.Script.Field
import FlowTypes.Script.Launch
import FlowTypes.Script.Reader
import FlowTypes.Script.Sum

/-!
# Shells

A shell runs a script. What it knows is its state (`Shell`): names with their values, arguments, functions,
what it does when signals come, options, and where it is in its script.

`Work` is the work of a shell: it changes the state, makes calls to the system, and gives a value or stops.
Whoever runs a loop, a function or the whole script minds how work stops (`Stop`).
-/

namespace FlowTypes.Script

/-- What a shell knows about a name: its value if it has one, whether programs get to see it, and whether it is
kept from being changed. -/
structure Holding where
  value : Option Text
  shared : Bool := false
  fixed : Bool := false
  deriving Repr, Inhabited

/-- What a function changes that comes back at its end: names that are its own, as they were. -/
abbrev Scope := List (Text × Option Holding)

/-- Programs that were started aside: the number under which the shell knows them, their numbers in the system,
how those of them ended that did, and whether somebody has waited for them. -/
structure Job where
  slot : Nat
  processes : List Nat
  endings : List (Nat × Ending)
  waited : Bool
  deriving Repr

/-- How a job ended, once all its programs are at their end: as the last one did. -/
def Job.ending? (j : Job) : Option Ending :=
  if j.processes.all fun n => (j.endings.lookup n).isSome then
    (j.processes.getLast?).bind fun n => j.endings.lookup n
  else none

/-- The state of a shell. -/
structure Shell where
  /-- What the shell calls itself. -/
  script : Text
  arguments : List Text
  holdings : List (Text × Holding)
  functions : List (Text × Command)
  /-- What is done when signals come; zero is the end of the shell. Nothing to be done means that the signal
  is ignored. -/
  traps : List (Nat × Text)
  /-- Signals that came and for which something has to be done. -/
  caught : List Nat
  /-- The letters of the options that are on. -/
  options : Text
  /-- The number of the shell that the script started in. -/
  number : Nat
  /-- The line of the command under way, and the line up to which the script has been read. -/
  line : Nat
  ahead : Nat
  /-- What complaints name before they say what is wrong. -/
  within : Option Text
  status : Nat
  /-- The status of the last script whose output was put into a word. -/
  answer : Nat
  /-- The program that was last started aside, and those that are still known. -/
  aside : Option Nat
  jobs : List Job
  loops : Nat
  calls : Nat
  /-- The names of the functions under way that are their own. -/
  scopes : List Scope
  /-- Documents of the script, with their numbers, and the next number. -/
  documents : List (Nat × Word)
  fresh : Nat
  nicknames : List (Text × Text)
  /-- Names of programs that have been looked for and found. -/
  met : List Text
  /-- Who may not do what with new files. -/
  mask : Nat
  /-- Which argument is looked at next for options, and how much of the one before has been looked at. -/
  index : Nat
  offset : Nat

namespace Shell

/-- All letters of options, in the order in which they are shown. -/
def optionLetters : Text := "ubaCEVvxsnmiIfe"

/-- The value of a name. -/
def value? (s : Shell) (name : Text) : Option Text :=
  match name with
  | ['#'] => some (Text.ofNat s.arguments.length)
  | ['?'] => some (Text.ofNat s.status)
  | ['$'] => some (Text.ofNat s.number)
  | ['!'] => s.aside.map Text.ofNat
  | ['-'] => some (optionLetters.filter (s.options.contains ·))
  | ['0'] => some s.script
  | _ =>
    match Raw.nat? name with
    | some 0 => some s.script
    | some n => s.arguments[n - 1]?
    | none => (s.holdings.lookup name).bind (·.value)

/-- The characters that cut values into fields. -/
def separators (s : Shell) : Text := (s.value? "IFS").getD " \t\n"

/-- What is known about a name becomes this. -/
def hold (s : Shell) (name : Text) (h : Holding) : Shell :=
  if (s.holdings.lookup name).isSome then
    { s with holdings := s.holdings.map fun e => if e.1 = name then (name, h) else e }
  else { s with holdings := (name, h) :: s.holdings }

/-- A name is forgotten. -/
def forget (s : Shell) (name : Text) : Shell := { s with holdings := s.holdings.filter (·.1 != name) }

/-- The names that programs get to see, with their values. -/
def environment (s : Shell) : Environment :=
  s.holdings.filterMap fun (name, h) => if h.shared then h.value.map (name, ·) else none

/-- Where programs are looked for. -/
def places (s : Shell) : Text := (s.value? "PATH").getD Launch.standardPath

/-- The number that the next job gets. A job that has been waited for makes room for it. -/
def freeSlot (s : Shell) : Nat × List Job :=
  let slots := List.range (s.jobs.length + 1)
  let slot := (slots.find? fun n => s.jobs.all fun j => j.slot != n + 1 || (j.waited && j.ending?.isSome)).getD 0 + 1
  (slot, s.jobs.filter (·.slot != slot))

/-- Some signal is caught, or something is done at the end of the shell. -/
def hasTraps (s : Shell) : Bool := s.traps.any fun t => !t.2.isEmpty

end Shell

/-- Why work stops: loops are left or go on with the next round, a function is left, something went wrong, or
the shell is at its end. -/
inductive Stop where
  | breaks (loops : Nat)
  | continues (loops : Nat)
  | returns
  | fails
  | exits
  deriving DecidableEq, Repr

/-- The work of a shell. -/
def Work (α : Type) : Type := Shell → (Shell → Except Stop α → Program) → Program

instance : Monad Work where
  pure a := fun s next => next s (.ok a)
  bind work further := fun s next => work s fun s result =>
    match result with
    | .ok a => further a s next
    | .error stop => next s (.error stop)

instance : MonadStateOf Shell Work where
  get := fun s next => next s (.ok s)
  set s := fun _ next => next s (.ok ())
  modifyGet f := fun s next =>
    let (a, s) := f s
    next s (.ok a)

instance : MonadExceptOf Stop Work where
  throw stop := fun s next => next s (.error stop)
  tryCatch work handle := fun s next => work s fun s result =>
    match result with
    | .ok a => next s (.ok a)
    | .error stop => handle stop s next

namespace Work

instance {α : Type} : Inhabited (Work α) := ⟨throw .fails⟩

/-! ## Calls -/

/-- The reply to a call. -/
def ask (c : Call) : Work Reply := fun s next => .call c fun reply => next s (.ok reply)

/-- A call whose reply does not matter. -/
def tell (c : Call) : Work Unit := fun s next => .call c fun _ => next s (.ok ())

/-- The files, and which of them may be run. -/
def look : Work (FileTree × List Location) := fun s next => .look fun tree permitted => next s (.ok (tree, permitted))

/-- The program goes on as another one. -/
def become {α : Type} (program : Program) : Work α := fun _ _ =>
  .call .replace fun _ => .call (.pass Errand.startTime) fun _ => program

/-- The number of a program that is started, which is a shell that does this work. -/
def fork (work : Work Unit) : Work Nat := fun s next =>
  let s := { s with jobs := s.freeSlot.2 }
  .fork (work s fun s _ => .finish (.status (s.status % 256))) fun number => next s (.ok number)

/-- The number of a program that is started. -/
def start (program : Program) : Work Nat := fun s next =>
  let s := { s with jobs := s.freeSlot.2 }
  .fork program fun number => next s (.ok number)

/-- How work ends: with a value, or stopped. -/
def result {α : Type} (work : Work α) : Work (Except Stop α) := fun s next =>
  work s fun s result => next s (.ok result)

/-- Something is done after work, however that ends. -/
def andThen {α : Type} (work : Work α) (last : Work Unit) : Work α := do
  let r ← result work
  last
  match r with
  | .ok a => pure a
  | .error stop => throw stop

/-! ## Printing -/

/-- Bytes go to a channel. It is false if they cannot go there. -/
def send (channel : Nat) (bytes : Text) : Work Bool := do
  if bytes.isEmpty then return true
  match ← ask (.write channel bytes) with
  | .done => return true
  | _ => return false

/-- A complaint with the name of the script and the line. -/
def complain (t : Text) : Work Unit := do
  let s ← get
  let within : Text := match s.within with
    | some name => name ++ ": "
    | none => []
  let _ ← send 2 (s.script ++ ": " ++ Text.ofNat s.line ++ ": " ++ within ++ t ++ "\n")

/-- The shell has another status. -/
def setStatus (status : Nat) : Work Unit := modify fun s => { s with status := status }

/-- Something went wrong. -/
def fail {α : Type} (t : Text) (status : Nat := 2) : Work α := do
  complain t
  setStatus status
  throw .fails

/-! ## Names -/

/-- The option with this letter is on. -/
def hasOption (letter : Char) : Work Bool := do return (← get).options.contains letter

/-- A name gets a value; with `shared`, programs get to see it from now on. -/
def assign (name value : Text) (shared : Bool := false) : Work Unit := do
  let s ← get
  let h := (s.holdings.lookup name).getD ⟨none, false, false⟩
  if h.fixed then fail (name ++ ": is read only")
  let shared := shared || h.shared || s.options.contains 'a'
  set (s.hold name { h with value := some value, shared := shared })
  if name = ("OPTIND" : Text) then
    modify fun s => { s with index := max 1 ((Raw.nat? value).getD 1), offset := 0 }

/-! ## Redirections -/

/-- A redirection whose target is known. -/
inductive Target where
  | path (channel : Nat) (direction : Direction) (path : Text)
  | copy (channel source : Nat)
  | close (channel : Nat)
  | document (channel : Nat) (t : Text)

/-- The words of a refusal to open a file, where nothing is there. -/
def refusalWords (cause : Refusal) (absent : Text) : Text :=
  match cause with
  | .noSuchEntry | .notDirectory => absent
  | other => other.words

/-- A channel on which documents are written. -/
def documentChannel : Nat := 90

/-- A redirection. It is false if the system refuses it. -/
def redirect (target : Target) : Work Bool := do
  match target with
  | .close channel =>
    tell (.close channel)
    return true
  | .copy channel source =>
    match ← ask (.copy source channel) with
    | .done => return true
    | _ =>
      complain (Text.ofNat source ++ ": Bad file descriptor")
      return false
  | .document channel t =>
    tell (.pipe channel documentChannel)
    let _ ← send documentChannel t
    tell (.close documentChannel)
    return true
  | .path channel direction path =>
    let careful := direction = .output && (← hasOption 'C')
    let mode : OpenMode := match direction with
      | .input => .reading
      | .append => .adding
      | .both => .both
      | _ => if careful then .creating else .writing
    match ← ask (.openFile channel path mode) with
    | .refused cause =>
      if direction = .input then
        complain ("cannot open " ++ path ++ ": " ++ refusalWords cause "No such file")
      else complain ("cannot create " ++ path ++ ": " ++ refusalWords cause "Directory nonexistent")
      return false
    | _ => return true

/-- Redirections in turn, up to the first one that the system refuses. -/
def redirectAll : List Target → Work Bool
  | [] => return true
  | target :: rest => do
    if ← redirect target then redirectAll rest
    else
      setStatus 2
      return false

/-! ## Programs that were started -/

/-- What is said of a program that a signal killed. Nothing is said where that is the usual end. -/
def epitaph (signal : Nat) : Text :=
  match [(1, ("Hangup" : Text)), (3, "Quit"), (4, "Illegal instruction"), (5, "Trace/breakpoint trap"),
      (6, "Aborted"), (7, "Bus error"), (8, "Floating point exception"), (9, "Killed"),
      (10, "User defined signal 1"), (11, "Segmentation fault"), (12, "User defined signal 2"),
      (14, "Alarm clock"), (15, "Terminated"), (16, "Stack fault"), (24, "CPU time limit exceeded"),
      (25, "File size limit exceeded"), (26, "Virtual timer expired"), (27, "Profiling timer expired"),
      (29, "I/O possible"), (30, "Power failure"), (31, "Bad system call")].lookup signal with
  | some words => words ++ ['\n']
  | none => []

/-- Signals that came since they were last looked at are noted. -/
def noteSignals : Work Unit := do
  match ← ask .signals with
  | .numbers signals => modify fun s => { s with caught := s.caught ++ signals }
  | _ => pure ()

/-- The end of a program that was started, whatever signals come. -/
def await (number : Nat) : (fuel : Nat) → Work Ending
  | 0 => pure (.status 0)
  | fuel + 1 => do
    match ← ask (.wait (some number)) with
    | .ended _ ending =>
      if let .signal signal := ending then
        let _ ← send 2 (epitaph signal)
      return ending
    | .interrupted =>
      noteSignals
      await number fuel
    | _ => return .status 127

/-- How often a signal may come while a program is awaited. -/
def patience : Nat := Nat.pow 2 40

/-- The status of the last one of some programs, once all of them are at their end. -/
def statusOf (numbers : List Nat) : Work Nat := do
  let rec wait (status : Nat) : List Nat → Work Nat
    | [] => return status
    | number :: rest => do wait (← await number patience).code rest
  wait 0 numbers

/-- A shell that was started by another one: what the other one caught is not caught, and what it started is
not waited for. -/
def asChild : Work Unit := modify fun s =>
  { s with traps := s.traps.filter (·.2.isEmpty), caught := [], jobs := [] }

end Work

end FlowTypes.Script
