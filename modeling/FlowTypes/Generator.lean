import FlowTypes.Arguments
import FlowTypes.FileTree
import FlowTypes.Problem

/-!
# Generators

A generator turns sanitized definitions into declarations, one file for each interface. It is told where
they are and gets a fixed set of options (`Options.arguments`), and it answers with an exit code and what
it printed, or it breaks down.

Its exit code is not enough: on definitions that it only half understands it prints warnings and succeeds.
A clean run prints next to nothing, so `Result.check` takes much output for a failure too.
-/

namespace FlowTypes.Generator

/-! ## Options -/

/-- How names of operations are changed: the functions that stand for operations lose their marks, and
all clones have one name. -/
def renames : List Text := ["s/WRAPPED_//", "s/MAP_//", "s/FREE_//", "s/CLONE_.*/clone/"]

/-- What a generator is told, the definitions aside. -/
structure Options where
  /-- The directory that gets the declarations. -/
  outputDir : Path
  /-- The class of the free functions. -/
  moduleName : Text := "libGDevelop"
  /-- What the names of all classes start with. -/
  classStem : Text := "gd"
  addDelete : Bool := true
  addPointer : Bool := true
  uncapitalize : Bool := true
  /-- What the names of static operations start with in the definitions. -/
  staticStem : Text := "STATIC_"
  renames : List Text := Generator.renames
  deriving DecidableEq, Repr

/-- An argument that is there or not. -/
def onlyIf (condition : Bool) (arguments : List Text) : List Text := if condition then arguments else []

/-- The arguments that tell a generator its options and where the definitions are. -/
def Options.arguments (o : Options) (idl : Path) : List Text :=
  ([("--out" : Text), o.outputDir.text, "--module-name", o.moduleName, "--prefix-interfaces",
      o.classStem] : List Text)
    ++ onlyIf o.addDelete ["--add-delete-operation"]
    ++ onlyIf o.addPointer ["--add-emscripten-ptr-attribute"]
    ++ onlyIf o.uncapitalize ["--uncapitalize-operations"]
    ++ onlyIf (!o.staticStem.isEmpty) [("--static-operation-prefix" : Text), o.staticStem]
    ++ o.renames.flatMap (fun rename => [("--rename" : Text), rename])
    ++ [idl.text]

/-! ## Results -/

/-- What a generator answers. -/
structure Result where
  exitCode : Int
  output : Text
  errors : Text
  timedOut : Bool
  deriving DecidableEq, Repr

/-- Where to look first if a generator fails. -/
def hint : Text :=
  "Is Bindings.idl improperly formatted, or using a syntax not understood by \"webidl-tools flow\"?"

/-- A result is good if the generator finished in time, succeeded, and printed no more characters than the
limit. The first of these that fails is the problem. -/
def Result.check (r : Result) (limit : Int) : Except PipelineProblem Unit :=
  if r.timedOut then
    .error
      { code := .generatorTimedOut
        message := "\"webidl-tools flow\" did not finish in time and was killed."
        suggestion := some "Raise --timeout if the machine is slow, otherwise check for a hang." }
  else if r.exitCode ≠ 0 then
    .error
      { code := .generatorErrored
        message := "\"webidl-tools flow\" errored (exit code " ++ Text.ofInt r.exitCode ++ ")."
        suggestion := some hint }
  else if limit < r.output.length then
    .error
      { code := .generatorOutputSuspicious
        message := "The output of \"webidl-tools flow\" is suspiciously long ("
          ++ Text.ofNat r.output.length ++ " characters, limit " ++ Text.ofInt limit
          ++ "). Considering as an error."
        suggestion := some hint }
  else .ok ()

/-! ## Generators -/

/-- How a generator breaks down: it touches a file it cannot have, there is no program to run it, the system
refuses something, a value makes no sense or is out of range, or something is wrong with the generator
itself. -/
inductive Breakdown where
  | file (fault : FileFault)
  | unset (option : Unset)
  | system (message : Text)
  | value (message : Text)
  | range (message : Text)
  | internal (message : Text)
  deriving DecidableEq, Repr

/-- The breakdown in words. -/
def Breakdown.message : Breakdown → Text
  | file fault => fault.message
  | unset option => option.message
  | system message | value message | range message | internal message => message

/-- Whose doing the breakdown is. -/
def Breakdown.nature : Breakdown → Nature
  | file fault => fault.nature
  | system _ => .system
  | value _ => .value
  | unset _ | range _ | internal _ => .other

/-- A generator takes the files as they are, the path of the definitions and its options. It gives the
files as it leaves them, and its result or how it broke down. -/
abbrev Program := FileTree → Path → Options → FileTree × Except Breakdown Result

end FlowTypes.Generator
