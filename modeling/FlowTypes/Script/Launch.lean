import FlowTypes.Script.System

/-!
# Launching programs

A program is found by its path or by its name (`Launch.find`). A path with a slash leads to a program of the
system or to a file that may be run; a name is looked for in the directories of the path variable, in turn.
A file that may be run is a script: its first line may say which program reads it, and otherwise a shell
does.

What finds and runs programs is a `Launch`, so that tools which run others can be written before the table
of all programs.
-/

namespace FlowTypes.Script

/-- The names that a program gets from the one that starts it, with their values. -/
abbrev Environment := List (Text × Text)

/-- How programs are found and run: the names of the programs of the system, and what each of them is for an
environment and its words, the first of which is the name it is called by. -/
structure Launch where
  knows : Text → Bool
  program : (name : Text) → Environment → (words : List Text) → Program

/-- A program that was found: its name in the system, and the words that stand for the first word. -/
structure Found where
  name : Text
  words : List Text
  deriving DecidableEq, Repr

namespace Launch

/-- Where the programs of the system are. -/
def directories : List Location := [["bin"], ["usr", "bin"]]

/-- Where programs are looked for if nobody says so. -/
def standardPath : Text := "/usr/local/sbin:/usr/local/bin:/usr/sbin:/usr/bin:/sbin:/bin"

/-- The program of the system that a path leads to. -/
def systemProgram? (launch : Launch) (path : Text) : Option Text :=
  let p := Path.ofText path
  if p.slashes != 0 && directories.contains p.parts.dropLast && launch.knows p.name then some p.name else none

/-- The program and its argument that the first line of a script names. -/
def reader? (bytes : Text) : Option (Text × List Text) :=
  match bytes with
  | '#' :: '!' :: rest =>
    let line := Raw.trimStart (rest.takeWhile (· != '\n'))
    let isBlank (c : Char) : Bool := c == ' ' || c == '\t'
    let name := line.takeWhile (!isBlank ·)
    let argument := ((Raw.trimStart (line.drop name.length)).reverse.dropWhile isBlank).reverse
    some (name, if argument.isEmpty then [] else [argument])
  | _ => none

/-- What a path leads to that has a slash in it. -/
def findPath (launch : Launch) (tree : FileTree) (permitted : List Location) (path : Text) :
    Except Refusal Found := do
  match launch.systemProgram? path with
  | some name => pure ⟨name, [path]⟩
  | none =>
    let (loc, entry) ← System.locate tree path
    match entry with
    | none => throw .noSuchEntry
    | some .directory => throw .permissionDenied
    | some (.file bytes) =>
      if !permitted.contains loc then throw .permissionDenied
      match reader? (Raw.ofBytes bytes) with
      | none => pure ⟨"sh", [("sh" : Text), path]⟩
      | some (name, arguments) =>
        match launch.systemProgram? name with
        | some program => pure ⟨program, name :: arguments ++ [path]⟩
        | none => throw .noSuchEntry

/-- What a name leads to. A directory of the path variable that does not hold the name is passed over. -/
def find (launch : Launch) (tree : FileTree) (permitted : List Location) (places : Text) (name : Text) :
    Except Refusal Found :=
  if name.contains '/' then launch.findPath tree permitted name
  else if name.isEmpty then .error .noSuchEntry
  else look .noSuchEntry (Raw.fields ':' places)
where
  look (cause : Refusal) : List Text → Except Refusal Found
    | [] => .error cause
    | directory :: rest =>
      let path := if directory.isEmpty then name else directory ++ '/' :: name
      match launch.findPath tree permitted path with
      | .ok found => .ok { found with words := if found.words = [path] then [name] else found.words }
      | .error .permissionDenied => look .permissionDenied rest
      | .error _ => look cause rest

/-- The path that a name leads to, as it is shown. -/
def pathOf (launch : Launch) (tree : FileTree) (permitted : List Location) (places name : Text) :
    Option Text :=
  if name.contains '/' then
    if (launch.findPath tree permitted name).isOk then some name else none
  else
    ((Raw.fields ':' places).map fun directory =>
      if directory.isEmpty then name else directory ++ '/' :: name).find? fun path =>
        (launch.findPath tree permitted path).isOk

/-- The value of the path variable in an environment. -/
def placesOf (environment : Environment) : Text := (environment.lookup ("PATH" : Text)).getD standardPath

/-- The program that some words call, or why there is none. -/
def called (launch : Launch) (environment : Environment) (tree : FileTree) (permitted : List Location)
    (words : List Text) : Except Refusal Program := do
  let found ← launch.find tree permitted (placesOf environment) (words.headD [])
  pure (launch.program found.name environment (found.words ++ words.drop 1))

/-- The program that some words call; `otherwise` says what goes on if there is none. -/
def calling (launch : Launch) (environment : Environment) (words : List Text)
    (otherwise : Refusal → Program) : Program :=
  .look fun tree permitted =>
    match launch.called environment tree permitted words with
    | .ok program => .call (.pass Errand.startTime) fun _ => program
    | .error cause => otherwise cause

end Launch

end FlowTypes.Script
