import FlowTypes.Decimal.Binary64
import FlowTypes.Path

/-!
# Arguments

What is asked for on the command line, once it is read and before anyone looked whether it makes sense.
Everything has a default; the default paths lie below the root of the project.

An option that needs a value may still be given nothing (`Given.nothing`). Whoever needs its value later
finds out, and then the run ends there (`Unset`).
-/

namespace FlowTypes

/-- What an option was given: a value, or nothing. -/
inductive Given (α : Type) where
  | nothing
  | value (a : α)
  deriving DecidableEq, Repr

/-- The value, if there is one. -/
def Given.value? {α : Type} : Given α → Option α
  | nothing => none
  | value a => some a

/-- An option that was given nothing where its value is needed. -/
inductive Unset where
  | idl
  | outputDir
  | generator
  | node
  | timeout
  | maxOutput
  deriving DecidableEq, Repr

/-- What is said of an option that was given nothing: what could not be done without its value. -/
def Unset.message : Unset → Text
  | idl | generator => "'list' object has no attribute 'exists'"
  | outputDir => "'list' object has no attribute 'mkdir'"
  | node => "expected str, bytes or os.PathLike object, not list"
  | timeout => "'<=' not supported between instances of 'list' and 'int'"
  | maxOutput => "'<' not supported between instances of 'list' and 'int'"

/-- What is asked for. -/
structure Arguments where
  /-- The interface definitions. -/
  idl : Given Path
  /-- The directory that gets the declarations. -/
  outputDir : Given Path
  /-- The script of the generator. -/
  generator : Given Path
  /-- The program that runs the script. -/
  node : Given Text
  /-- Seconds that the generator may take. -/
  timeout : Given Binary64
  /-- Characters that the generator may print. -/
  maxOutput : Given Int
  /-- Whether a rule that found nothing to work on is a problem. -/
  strictAnchors : Bool
  /-- Whether the rules are only listed. -/
  listRules : Bool
  /-- What is listed must hold this text. -/
  filter : Option (Given Text)
  deriving DecidableEq, Repr

namespace Arguments

/-- The default of the program that runs the script. -/
def defaultNode : Text := "node"

/-- The default of the seconds that the generator may take. -/
def defaultTimeout : Binary64 := .nearest false 300 1

/-- The default of the characters that the generator may print. -/
def defaultMaxOutput : Int := 1000

/-- What is asked for if nothing is said, in a project with this root. -/
def standard (root : Path) : Arguments where
  idl := .value (root.join (.ofText "Bindings/Bindings.idl"))
  outputDir := .value (root.join (.ofText "types"))
  generator := .value (root.join (.ofText "node_modules/webidl-tools/bin/webidl-tools-flow"))
  node := .value defaultNode
  timeout := .value defaultTimeout
  maxOutput := .value defaultMaxOutput
  strictAnchors := false
  listRules := false
  filter := none

end Arguments

end FlowTypes
