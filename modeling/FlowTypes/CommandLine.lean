import FlowTypes.Arguments.Reader
import FlowTypes.Catalog.Listing
import FlowTypes.Pipeline

/-!
# The command line

A command reads its words, and then lists the rules or generates declarations. Whatever goes wrong and can
be told to the user is printed and ends the command with status one; a wrong command line ends it with
status two, and the request for help with zero. Failures of another kind escape: they are not the user's
doing, and neither is a path of the configuration that the system refuses to look up, or an option that was
given nothing.
-/

namespace FlowTypes

/-- How a command ends: with a status, or by a failure that escapes. -/
inductive CommandEnd where
  | status (code : Nat)
  | escaped (failure : Failure)
  deriving DecidableEq, Repr

/-- What a command leaves: the files, what it printed, what it printed as complaints, and its end. -/
structure Command where
  tree : FileTree
  printed : Text
  complaints : Text
  ending : CommandEnd

namespace Command

/-- What is printed about a failure, if it is one that can be told. -/
def told? (failure : Failure) : Option Text :=
  match failure with
  | .problem problem => some (problem.shown "Pipeline" PipelineCode.text)
  | other =>
    match other.nature with
    | .system => some ("Error: " ++ other.message ++ "\n")
    | .value => some ("Internal error: " ++ other.message ++ "\n")
    | .other => none

/-- What is left of a run: its failure is told, if it can be. -/
def ofRun (run : Run) : Command :=
  match run.answer with
  | .ok _ => ⟨run.tree, run.printed, [], .status 0⟩
  | .error failure =>
    match told? failure with
    | some told => ⟨run.tree, run.printed ++ told, [], .status 1⟩
    | none => ⟨run.tree, run.printed, [], .escaped failure⟩

/-- What is left of words that give no arguments. -/
def ofEnding (tree : FileTree) : Arguments.Ending → Command
  | .help => ⟨tree, Arguments.help, [], .status 0⟩
  | .usage fault => ⟨tree, [], fault.shown, .status 2⟩

/-- What is left of arguments that give no configuration. -/
def ofRefused (tree : FileTree) : Config.Refused → Command
  | .problem problem => ⟨tree, problem.shown "Config" ConfigCode.text, [], .status 1⟩
  | .fault fault => ⟨tree, [], [], .escaped (.file fault)⟩
  | .unset option => ⟨tree, [], [], .escaped (.unset option)⟩

/-- A command with these words. `launch` makes the generator of a configuration. -/
def execute (defaults : Arguments) (launch : GenerateConfig → Generator.Program) (rules : List Rule)
    (tree : FileTree) (words : List Text) : Command :=
  match Arguments.read defaults words with
  | .error ending => ofEnding tree ending
  | .ok given =>
    match Config.ofArguments tree given with
    | .error refused => ofRefused tree refused
    | .ok (.listRules filter) =>
      ⟨tree, Catalog.table (Catalog.filterByText rules (filter.bind Given.value?)), [], .status 0⟩
    | .ok (.generate config) => ofRun (Pipeline.run config (launch config) rules tree)

end Command

end FlowTypes
