import FlowTypes.Catalog
import FlowTypes.Config
import FlowTypes.Generator
import FlowTypes.Idl

/-!
# The pipeline

A run sanitizes the definitions, lets the generator work on the copy, checks what it answers, and patches
the declarations. The copy goes away as soon as the generator returns, and no rule is applied unless the
answer is good.

A run that stops has stopped for one reason, and the files stay as they are by then. So a run gives the
files it leaves, the lines it printed, the calls of the generator, and its outcome or the reason.
-/

namespace FlowTypes

/-- Why a run stops: a file cannot be had, an option was given nothing, a generator broke down, or there is
a problem. -/
inductive Failure where
  | file (fault : FileFault)
  | unset (option : Unset)
  | marker (fault : Idl.MarkerFault)
  | breakdown (breakdown : Generator.Breakdown)
  | problem (problem : PipelineProblem)
  deriving DecidableEq, Repr

/-- Whose doing a failure is that is no problem of the pipeline. -/
def Failure.nature : Failure → Nature
  | file fault => fault.nature
  | marker _ => .value
  | breakdown b => b.nature
  | unset _ | problem _ => .other

/-- The failure in words. -/
def Failure.message : Failure → Text
  | file fault => fault.message
  | marker fault => fault.message
  | breakdown b => b.message
  | unset option => option.message
  | problem p => p.message

/-- A call of a generator: the files as they were, the path of the definitions, and the options. -/
structure GeneratorCall where
  tree : FileTree
  idl : Path
  options : Generator.Options

/-- What a run that came to its end answers. -/
structure PipelineResult where
  generator : Generator.Result
  report : Report
  deriving DecidableEq, Repr

/-- What a run leaves: the files, the printed text, the calls of the generator, and the answer. -/
structure Run where
  tree : FileTree
  printed : Text
  calls : List GeneratorCall
  answer : Except Failure PipelineResult

namespace Pipeline

/-! ## Lines -/

/-- The line at the start. -/
def startLine (config : GenerateConfig) : Text := "Sanitizing: " ++ config.idl.text ++ "\n"

/-- The line before the generator is called. -/
def callLine (outputDir : Path) : Text :=
  "  Generating: webidl-tools flow -> " ++ outputDir.text ++ "\n"

/-- The line about what the generator answered. -/
def resultLine (result : Generator.Result) : Text :=
  "  Generator: exit code " ++ Text.ofInt result.exitCode ++ ", "
    ++ Text.ofNat result.output.length ++ " characters of output\n"

/-- One line for each outcome that missed. -/
def warnings (report : Report) : Text :=
  report.misses.flatMap fun o => "  Warning: " ++ o.miss ++ "\n"

/-! ## Stages -/

/-- The rules are applied and the policy is enforced. -/
def patch (config : GenerateConfig) (outputDir : Path) (rules : List Rule) (tree : FileTree)
    (printed : Text) (calls : List GeneratorCall) (result : Generator.Result) : Run :=
  match Catalog.apply rules tree outputDir with
  | (tree, .error fault) => ⟨tree, printed, calls, .error (.file fault)⟩
  | (tree, .ok report) =>
    let warned := printed ++ warnings report
    match report.enforce config.strictAnchors with
    | .error problem => ⟨tree, warned, calls, .error (.problem problem)⟩
    | .ok () => ⟨tree, warned ++ report.summary, calls, .ok ⟨result, report⟩⟩

/-- The answer of the generator is checked before any rule is applied. -/
def gate (config : GenerateConfig) (outputDir : Path) (rules : List Rule) (tree : FileTree)
    (printed : Text) (calls : List GeneratorCall) (result : Generator.Result) : Run :=
  match result.check config.maxOutput with
  | .error problem => ⟨tree, printed, calls, .error (.problem problem)⟩
  | .ok () => patch config outputDir rules tree printed calls result

/-- What the use of a sanitized copy gives: the call, and what the generator made of it. -/
def callGenerator (generator : Generator.Program) (options : Generator.Options) (tree : FileTree)
    (copy : Path) : FileTree × GeneratorCall × Except Generator.Breakdown Generator.Result :=
  let after := generator tree copy options
  (after.1, ⟨tree, copy, options⟩, after.2)

/-- A run into a directory from the files as they are. -/
def runInto (config : GenerateConfig) (outputDir : Path) (generator : Generator.Program)
    (rules : List Rule) (tree : FileTree) : Run :=
  let started := startLine config
  match tree.ensureDirectory outputDir with
  | (tree, .error fault) => ⟨tree, started, [], .error (.file fault)⟩
  | (tree, .ok ()) =>
    let options : Generator.Options := { outputDir := outputDir }
    match Idl.withCopy Idl.elidedAttributes tree config.idl (callGenerator generator options) with
    | (tree, .error (.file fault)) => ⟨tree, started, [], .error (.file fault)⟩
    | (tree, .error (.marker fault)) => ⟨tree, started, [], .error (.marker fault)⟩
    | (tree, .ok (call, answer)) =>
      -- the copy is gone by now, whatever the generator did
      let called := started ++ callLine outputDir
      match answer with
      | .error breakdown => ⟨tree, called, [call], .error (.breakdown breakdown)⟩
      | .ok result => gate config outputDir rules tree (called ++ resultLine result) [call] result

/-- A run from the files as they are. -/
def run (config : GenerateConfig) (generator : Generator.Program) (rules : List Rule)
    (tree : FileTree) : Run :=
  match config.outputDir with
  | .value outputDir => runInto config outputDir generator rules tree
  | .nothing => ⟨tree, startLine config, [], .error (.unset .outputDir)⟩

end Pipeline

end FlowTypes
