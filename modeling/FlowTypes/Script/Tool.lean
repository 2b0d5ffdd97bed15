import FlowTypes.Script.Launch

/-!
# Tools

A tool is a program of the system that scripts call. It gets an environment and its words, the first of which is
the name it is called by, and its work gives a status.

Options stand anywhere among the words of most tools; a double hyphen ends them (`Tool.options`). A tool that is
called in a way it does not know complains and points to its help.
-/

namespace FlowTypes.Script

/-- A program of the system. -/
abbrev Tool := Launch → Environment → (words : List Text) → Errand Nat

namespace Tool

open Errand

/-! ## Complaints -/

/-- Something goes to the screen for complaints. -/
def complain (t : Text) : Errand Unit := do
  let _ ← ask (.write 2 (t ++ ['\n']))

/-- A text in the quotes of complaints. -/
def quoted (t : Text) : Text := Raw.ofText ['‘'] ++ t ++ Raw.ofText ['’']

/-- A text in plain quotes. -/
def inQuotes (t : Text) : Text := '\'' :: t ++ ['\'']

/-- A tool that is called in a way it does not know is at its end. -/
def misused {α : Type} (name : Text) (status : Nat) (complaint : Text) : Errand α := do
  complain (name ++ ": " ++ complaint)
  complain ("Try '" ++ name ++ " --help' for more information.")
  finish status

/-! ## Options -/

/-- The options that a tool knows: their letters, each with a colon behind it if it takes an argument and with
two if that may be missing; and long names for letters. -/
structure Known where
  letters : Text
  long : List (Text × Char)

/-- Whether a letter takes an argument: none, one that must be there, or one that may be. -/
inductive Need where
  | nothing
  | something
  | maybe
  deriving DecidableEq

/-- What an option takes; none if it is not known. -/
def Known.need? (known : Known) (letter : Char) : Option Need :=
  if letter == ':' then none
  else
    match known.letters.dropWhile (· != letter) with
    | [] => none
    | _ :: ':' :: ':' :: _ => some .maybe
    | _ :: ':' :: _ => some .something
    | _ => some .nothing

/-- The long option that a name stands for, which may be cut short, and its letter; `word` is how it is
written. -/
def Known.longOption (known : Known) (word name : Text) : Except Text (Text × Char) :=
  let fitting := known.long.filter fun e => name.isPrefixOf e.1
  match fitting.find? (·.1 = name), fitting with
  | some e, _ => .ok e
  | none, [] => .error ("unrecognized option '--" ++ word ++ "'")
  | none, e :: others =>
    if others.all (·.2 == e.2) then .ok e
    else
      let names := fitting.flatMap fun e => (" '--" : Text) ++ e.1 ++ ['\'']
      .error ("option '--" ++ word ++ "' is ambiguous; possibilities:" ++ names)

/-- What an option is given: its letter, and the argument if there is one. -/
abbrev Given := Char × Option Text

/-- The options of a tool and its other words, or what is wrong. With `mixed`, options may stand behind other
words. -/
def readOptions (known : Known) (mixed : Bool) : List Text → Except Text (List Given × List Text)
  | [] => .ok ([], [])
  | ['-', '-'] :: rest => .ok ([], rest)
  | ('-' :: '-' :: word) :: rest => do
    let name := word.takeWhile (· != '=')
    let value : Option Text := if name.length < word.length then some (word.drop (name.length + 1)) else none
    let (long, letter) ← known.longOption word name
    match known.need? letter, value with
    | some .nothing, some _ => throw ("option '--" ++ long ++ "' doesn't allow an argument")
    | some .something, none =>
      match rest with
      | argument :: further =>
        let (given, words) ← readOptions known mixed further
        pure ((letter, some argument) :: given, words)
      | [] => throw ("option '--" ++ long ++ "' requires an argument")
    | _, _ =>
      let (given, words) ← readOptions known mixed rest
      pure ((letter, value) :: given, words)
  | ('-' :: c :: letters) :: rest =>
    match group (c :: letters) with
    | .error complaint => .error complaint
    | .ok (given, none) => do
      let (others, words) ← readOptions known mixed rest
      .ok (given ++ others, words)
    | .ok (given, some letter) =>
      match rest with
      | argument :: further => do
        let (others, words) ← readOptions known mixed further
        .ok (given ++ (letter, some argument) :: others, words)
      | [] => .error ("option requires an argument -- " ++ inQuotes [letter])
  | word :: rest =>
    if mixed then do
      let (given, words) ← readOptions known mixed rest
      .ok (given, word :: words)
    else .ok ([], word :: rest)
where
  /-- The letters of a group; the last one may be still without its argument. -/
  group : Text → Except Text (List Given × Option Char)
    | [] => .ok ([], none)
    | c :: rest =>
      match known.need? c with
      | none => .error ("invalid option -- " ++ inQuotes [c])
      | some .nothing => do
        let (given, open_) ← group rest
        .ok ((c, none) :: given, open_)
      | some .maybe => .ok ([(c, if rest.isEmpty then none else some rest)], none)
      | some .something => if rest.isEmpty then .ok ([], some c) else .ok ([(c, some rest)], none)

/-- The options of a tool and its other words. -/
def options (known : Known) (status : Nat) (words : List Text) (mixed : Bool := true) :
    Errand (List Given × List Text) :=
  match readOptions known mixed (words.drop 1) with
  | .ok found => pure found
  | .error complaint => misused (words.headD []) status complaint

/-- An option is given. -/
def has (given : List Given) (letter : Char) : Bool := given.any (·.1 == letter)

/-- The argument of an option, of the last one if it is given several times. -/
def argument? (given : List Given) (letter : Char) : Option Text :=
  (given.reverse.find? (·.1 == letter)).bind (·.2)

/-- All arguments of an option. -/
def argumentsOf (given : List Given) (letter : Char) : List Text :=
  given.filterMap fun g => if g.1 == letter then g.2 else none

/-! ## Input -/

/-- A channel for files that a tool reads. -/
def fileChannel : Nat := 3

/-- What a refusal to read says, as far as tools tell it. -/
inductive Trouble where
  | opening (cause : Refusal)
  | reading (cause : Refusal)
  deriving DecidableEq

/-- The cause of trouble. -/
def Trouble.cause : Trouble → Refusal
  | opening cause | reading cause => cause

/-- How often something is read at most. -/
def readings : Nat := Nat.pow 2 40

/-- What is in a file, or in the input if the name is a hyphen. -/
def contentOf (name : Text) : Errand (Except Trouble Text) := do
  if name = (['-'] : Text) then
    match ← readAll 0 readings [] with
    | .ok t => return .ok t
    | .error cause => return .error (.reading cause)
  else
    match ← ask (.openFile fileChannel name .reading) with
    | .refused cause => return .error (.opening cause)
    | _ =>
      let r ← readAll fileChannel readings []
      tell (.close fileChannel)
      match r with
      | .ok t => return .ok t
      | .error cause => return .error (.reading cause)

/-- The names that a tool reads: the input if there are none. -/
def orInput (names : List Text) : List Text := if names.isEmpty then [['-']] else names

/-- What is in all of the files that can be read, with their names; `complaint` says what is wrong with one that
cannot. The status is bad if there is one. -/
def contents (names : List Text) (complaint : Text → Trouble → Text) (bad : Nat := 1) :
    Errand (List (Text × Text) × Nat) :=
  match names with
  | [] => return ([], 0)
  | name :: rest => do
    match ← contentOf name with
    | .ok t =>
      let (others, status) ← contents rest complaint bad
      return ((name, t) :: others, status)
    | .error trouble =>
      complain (complaint name trouble)
      let (others, _) ← contents rest complaint bad
      return (others, bad)

/-- The usual complaint: the tool, the file and the cause. -/
def plainly (tool : Text) (name : Text) (trouble : Trouble) : Text :=
  tool ++ ": " ++ name ++ ": " ++ trouble.cause.words

/-- A tool that works on what is in all its files put together. -/
def onAll (tool : Text) (names : List Text) (work : Text → Text) : Errand Nat := do
  let (found, status) ← contents (orInput names) (plainly tool)
  write 1 (work (found.flatMap (·.2)))
  return status

/-! ## Work on files -/

/-- The files change, and messages say how that went. -/
def changing (work : FileTree → FileTree × List Step × Nat) : Errand Nat := do
  match ← ask (.change work) with
  | .steps list status =>
    list.forM fun step =>
      match step with
      | .write channel bytes => do
        let _ ← ask (.write channel bytes)
      | .run _ _ => pure ()
    return status
  | _ => return 1

/-! ## Numbers -/

/-- What the letter behind a number multiplies it by. -/
def unitOf (t : Text) : Option Nat :=
  match String.ofList t with
  | "" => some 1
  | "b" => some 512
  | "kB" | "KB" => some 1000
  | "k" | "K" | "KiB" => some 1024
  | "MB" => some (Nat.pow 1000 2)
  | "m" | "M" | "MiB" => some (Nat.pow 1024 2)
  | "GB" => some (Nat.pow 1000 3)
  | "g" | "G" | "GiB" => some (Nat.pow 1024 3)
  | "T" | "TiB" => some (Nat.pow 1024 4)
  | "TB" => some (Nat.pow 1000 4)
  | _ => none

/-- A number with a letter that multiplies it. -/
def sizeOf? (t : Text) : Option Nat :=
  let digits := t.takeWhile Char.isDigit
  if digits.isEmpty then none else (unitOf (t.drop digits.length)).map (Raw.natOf digits * ·)

end Tool

end FlowTypes.Script
