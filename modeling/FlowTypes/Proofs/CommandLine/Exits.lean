import FlowTypes.CommandLine
import FlowTypes.Proofs.CommandLine.Unguarded
import FlowTypes.Proofs.Idl.Copy
import FlowTypes.Proofs.Patching.Faults

/-!
# How a command ends

A command that goes wrong prints what went wrong and ends with a status, whatever the stage is in which it goes wrong:
that is what `Command.Controlled` says. It holds of a command unless its arguments are unguarded
(`Command.execute_controlled_iff`): an option that needs a value was given nothing, or the system refuses to look up the
path of the definitions or of the generator. These failures come up where the configuration is made, or are of a kind
that is never told, and escape.

The words of a command are texts here, every directory may be searched, and there is no bound on the number of
directories that are made one below the other. What goes wrong with words that are no texts, over a directory that is
closed to the user, or for want of memory or stack, is not told by this.
-/

namespace FlowTypes

/-! ## Runs -/

namespace Command

/-- The failure is one that is told to the user. -/
def IsTold (failure : Failure) : Prop := ∃ told, told? failure = some told

theorem isTold_of_nature {failure : Failure} (h : failure.nature ≠ .other) : IsTold failure := by
  unfold IsTold
  cases failure with
  | problem problem => exact ⟨_, rfl⟩
  | unset option => exact absurd rfl h
  | file fault =>
    simp only [told?]
    cases hnature : (Failure.file fault).nature with
    | other => exact absurd hnature h
    | _ => exact ⟨_, rfl⟩
  | marker fault => exact ⟨_, rfl⟩
  | breakdown breakdown =>
    simp only [told?]
    cases hnature : (Failure.breakdown breakdown).nature with
    | other => exact absurd hnature h
    | _ => exact ⟨_, rfl⟩

theorem isTold_problem (problem : PipelineProblem) : IsTold (.problem problem) := ⟨_, rfl⟩

theorem isTold_file {fault : FileFault} (h : fault.nature ≠ .other) : IsTold (.file fault) := isTold_of_nature h

end Command

namespace Pipeline

open Command (IsTold)

variable {config : GenerateConfig} {outputDir : Path} {rules : List Rule} {failure : Failure}

/-- The rules fail only for reasons that can be told. -/
def Tellable (rules : List Rule) (outputDir : Path) : Prop :=
  ∀ tree left fault, Catalog.apply rules tree outputDir = (left, .error fault) → fault.nature ≠ .other

theorem isTold_of_patch (hrules : Tellable rules outputDir) {tree : FileTree} {printed : Text}
    {calls : List GeneratorCall} {result : Generator.Result}
    (h : (patch config outputDir rules tree printed calls result).answer = .error failure) : IsTold failure := by
  unfold patch at h
  split at h
  · rename_i left fault happly
    cases h
    exact Command.isTold_file (hrules _ _ _ happly)
  · dsimp only at h
    split at h
    · cases h
      exact Command.isTold_problem _
    · cases h

theorem isTold_of_gate (hrules : Tellable rules outputDir) {tree : FileTree} {printed : Text}
    {calls : List GeneratorCall} {result : Generator.Result}
    (h : (gate config outputDir rules tree printed calls result).answer = .error failure) : IsTold failure := by
  unfold gate at h
  split at h
  · cases h
    exact Command.isTold_problem _
  · exact isTold_of_patch hrules h

/-- A generator that answers, or breaks down for a reason that can be told. -/
def Answers (generator : Generator.Program) : Prop :=
  ∀ tree idl options breakdown, (generator tree idl options).2 = .error breakdown → breakdown.nature ≠ .other

/-- **A run that fails says why**, unless no directory was given. -/
theorem isTold_of_run {generator : Generator.Program} (hgenerator : Answers generator)
    (hrules : ∀ out, Tellable rules out) {tree : FileTree}
    (h : (run config generator rules tree).answer = .error failure) :
    IsTold failure ∨ config.outputDir = .nothing ∧ failure = .unset .outputDir := by
  unfold run at h
  split at h
  · rename_i out hout
    refine .inl ?_
    unfold runInto at h
    dsimp only at h
    split at h
    · rename_i left fault hmake
      cases h
      exact Command.isTold_file (FileTree.ensureDirectory_error hmake).nature_ne
    · rename_i made hmake
      split at h
      · rename_i left fault hcopy
        cases h
        exact Command.isTold_file (FileTree.nature_of_readBytes_error (Idl.readBytes_of_withCopy hcopy))
      · cases h
        exact Command.isTold_of_nature nofun
      · rename_i left call answer hcopy
        cases answer with
        | error breakdown =>
          cases h
          obtain ⟨tree', copy, hanswer⟩ := Idl.exists_use_of_withCopy hcopy
          exact Command.isTold_of_nature (hgenerator _ _ _ _ (congrArg Prod.snd hanswer))
        | ok result => exact isTold_of_gate (hrules out) h
  · rename_i hout
    cases h
    exact .inr ⟨hout, rfl⟩

end Pipeline

/-! ## Commands -/

namespace Command

/-- The ways in which a command is meant to end. -/
inductive Controlled (defaults : Arguments) (launch : GenerateConfig → Generator.Program) (rules : List Rule)
    (tree : FileTree) (words : List Text) (command : Command) : Prop
  /-- Help is asked for and printed. -/
  | help (read : Arguments.read defaults words = .error .help) (printed : command.printed = Arguments.help)
      (ending : command.ending = .status 0)
  /-- The command line is wrong, and what is wrong with it is said. -/
  | usage {fault : Arguments.UsageFault} (read : Arguments.read defaults words = .error (.usage fault))
      (complaints : command.complaints = fault.shown) (ending : command.ending = .status 2)
  /-- The arguments make no sense, and the problem is printed. -/
  | config {given : Arguments} {problem : ConfigProblem} (read : Arguments.read defaults words = .ok given)
      (refused : Config.ofArguments tree given = .error (.problem problem))
      (printed : command.printed = problem.shown "Config" ConfigCode.text) (ending : command.ending = .status 1)
  /-- The rules are listed. -/
  | listed {given : Arguments} {filter : Option (Given Text)} (read : Arguments.read defaults words = .ok given)
      (lists : Config.ofArguments tree given = .ok (.listRules filter)) (ending : command.ending = .status 0)
  /-- A run fails, and its failure is printed after all that the run has printed. -/
  | failed {given : Arguments} {config : GenerateConfig} {failure : Failure} {told : Text}
      (read : Arguments.read defaults words = .ok given)
      (generates : Config.ofArguments tree given = .ok (.generate config))
      (fails : (Pipeline.run config (launch config) rules tree).answer = .error failure)
      (told_eq : told? failure = some told)
      (printed : command.printed = (Pipeline.run config (launch config) rules tree).printed ++ told)
      (ending : command.ending = .status 1)
  /-- A run succeeds. -/
  | generated {given : Arguments} {config : GenerateConfig} {result : PipelineResult}
      (read : Arguments.read defaults words = .ok given)
      (generates : Config.ofArguments tree given = .ok (.generate config))
      (succeeds : (Pipeline.run config (launch config) rules tree).answer = .ok result)
      (ending : command.ending = .status 0)

section
variable {defaults : Arguments} {launch : GenerateConfig → Generator.Program} {rules : List Rule} {tree : FileTree}
  {words : List Text}

/-- A command that is controlled ends with a status. -/
theorem Controlled.exists_status {command : Command} (h : Controlled defaults launch rules tree words command) :
    ∃ code, command.ending = .status code := by
  cases h with
  | help _ _ ending | usage _ _ ending | config _ _ _ ending | listed _ _ ending | failed _ _ _ _ _ ending
  | generated _ _ _ ending => exact ⟨_, ending⟩

theorem not_controlled_of_escaped {command : Command} {failure : Failure} (h : command.ending = .escaped failure) :
    ¬ Controlled defaults launch rules tree words command := by
  intro hcontrolled
  obtain ⟨code, hcode⟩ := hcontrolled.exists_status
  rw [h] at hcode
  cases hcode

/-- Unguarded arguments end in a failure that escapes. -/
theorem exists_escaped_of_unguarded {given : Arguments} (hread : Arguments.read defaults words = .ok given)
    (h : given.Unguarded tree) : ∃ failure, (execute defaults launch rules tree words).ending = .escaped failure := by
  have hstops := Config.stops_ofArguments_iff.mpr h
  unfold execute
  rw [hread]
  dsimp only
  cases hconfig : Config.ofArguments tree given with
  | error refused =>
    rw [hconfig] at hstops
    cases refused with
    | problem problem => exact hstops.elim
    | fault fault => exact ⟨_, rfl⟩
    | unset option => exact ⟨_, rfl⟩
  | ok config =>
    rw [hconfig] at hstops
    cases config with
    | listRules filter => exact hstops.elim
    | generate config =>
      have hmissing : config.outputDir = .nothing := hstops
      refine ⟨.unset .outputDir, ?_⟩
      simp [Pipeline.run, hmissing, ofRun, told?, Failure.nature]

end

section
variable {launch : GenerateConfig → Generator.Program}

/-- **A command is controlled exactly if its arguments are not unguarded**, with any generator that answers or breaks
down for a reason that can be told. -/
theorem execute_controlled_iff (hlaunch : ∀ config, Pipeline.Answers (launch config)) (defaults : Arguments)
    (tree : FileTree) (words : List Text) :
    Controlled defaults launch Catalog.standard tree words (execute defaults launch Catalog.standard tree words) ↔
      ∀ given, Arguments.read defaults words = .ok given → ¬ given.Unguarded tree := by
  constructor
  · intro hcontrolled given hread hunguarded
    obtain ⟨failure, hescaped⟩ := exists_escaped_of_unguarded hread hunguarded
    exact not_controlled_of_escaped hescaped hcontrolled
  · intro hguarded
    unfold execute
    cases hread : Arguments.read defaults words with
    | error ending =>
      cases ending with
      | help => exact .help hread rfl rfl
      | usage fault => exact .usage hread rfl rfl
    | ok given =>
      have hstops : ¬ Config.Stops (Config.ofArguments tree given) :=
        fun h => hguarded given hread (Config.stops_ofArguments_iff.mp h)
      dsimp only
      cases hconfig : Config.ofArguments tree given with
      | error refused =>
        rw [hconfig] at hstops
        cases refused with
        | problem problem => exact .config hread hconfig rfl rfl
        | unset option => exact absurd trivial hstops
        | fault fault => exact absurd trivial hstops
      | ok config =>
        cases config with
        | listRules filter => exact .listed hread hconfig rfl
        | generate config =>
          dsimp only
          cases hanswer : (Pipeline.run config (launch config) Catalog.standard tree).answer with
          | ok result => exact .generated hread hconfig hanswer (by simp [ofRun, hanswer])
          | error failure =>
            rcases Pipeline.isTold_of_run (hlaunch config)
              (fun out tree left fault => Catalog.nature_of_apply_standard_error) hanswer with ⟨told, htold⟩ | ⟨hnone, -⟩
            · exact .failed hread hconfig hanswer htold (by simp [ofRun, hanswer, htold])
                (by simp [ofRun, hanswer, htold])
            · rw [hconfig] at hstops
              exact absurd hnone hstops

end

/-- Definitions and a generator that is there. -/
def smallProject : FileTree := ⟨[(["b.idl"], .file (Utf8.encode "x")), (["flow.sh"], .file (Utf8.encode ":"))], [], [], []⟩

/-- A generator that the system does not let run. -/
def deniedGenerator : Generator.Program := fun tree _ _ => (tree, .error (.system "denied"))

theorem answers_deniedGenerator : Pipeline.Answers deniedGenerator := by
  intro tree idl options breakdown h
  obtain rfl := Except.error.inj h
  nofun

/-- Words that name the definitions of the small project and a generator. -/
def wordsFor (generator : Text) : List Text := ["--idl", "b.idl", "--generator", generator]

/-- A name of one byte more than the system takes. -/
def longName : Text := List.replicate 256 'n'

/-- A generator that does not run is a failure that is told. -/
theorem execute_controlled_iff_smallProject :
    Controlled (.standard ⟨0, []⟩) (fun _ => deniedGenerator) Catalog.standard smallProject (wordsFor "flow.sh")
      (execute (.standard ⟨0, []⟩) (fun _ => deniedGenerator) Catalog.standard smallProject (wordsFor "flow.sh")) := by
  refine (execute_controlled_iff (fun _ => answers_deniedGenerator) _ _ _).mpr fun given hread hunguarded => ?_
  obtain rfl := Except.ok.inj hread
  have hstops := Config.stops_ofArguments_iff.mpr hunguarded
  cases hstops

/-- **The name of a generator that is too long is not told**: the refusal of the system escapes. -/
theorem execute_longName_escaped :
    (execute (.standard ⟨0, []⟩) (fun _ => deniedGenerator) Catalog.standard smallProject (wordsFor longName)).ending =
        .escaped (.file (.refused .nameTooLong longName)) ∧
      ¬ Controlled (.standard ⟨0, []⟩) (fun _ => deniedGenerator) Catalog.standard smallProject (wordsFor longName)
        (execute (.standard ⟨0, []⟩) (fun _ => deniedGenerator) Catalog.standard smallProject (wordsFor longName)) := by
  have hescaped : (execute (.standard ⟨0, []⟩) (fun _ => deniedGenerator) Catalog.standard smallProject
      (wordsFor longName)).ending = .escaped (.file (.refused .nameTooLong longName)) := by
    decide +kernel
  exact ⟨hescaped, not_controlled_of_escaped hescaped⟩

end Command

end FlowTypes
