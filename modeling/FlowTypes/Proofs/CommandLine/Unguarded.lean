import FlowTypes.Config
import FlowTypes.Proofs.Fallible
import FlowTypes.Proofs.FileTree.Child

/-!
# Unguarded arguments

The configuration is made before anything is caught but problems with it. So a look-up that the system refuses escapes,
and so does the failure of a check that needs the value of an option that was given nothing. `Arguments.Unguarded` says
of the arguments when this happens, check by check, in terms of what was given and of what is in the tree; it also
takes in the directory of the declarations, which no check looks at. `Config.stops_ofArguments_iff` says that there is
nothing else.

What is refused here is what this system refuses whoever asks, over a path or a name that is too long. Directories that
may not be searched are left out.
-/

namespace FlowTypes

/-! ## Options -/

/-- The option names something that is there. -/
def Given.Present (tree : FileTree) (option : Given Path) : Prop :=
  ∃ path, option = .value path ∧ tree.pathExists path = .ok true

/-- The option was given nothing, or a path that the system refuses to look up. -/
def Given.Unusable (tree : FileTree) (option : Given Path) : Prop :=
  option = .nothing ∨ ∃ path, option = .value path ∧ tree.Refuses path

namespace Arguments

/-- Declarations are asked for: the rules are not to be listed, nor is it said which of them. -/
structure Generates (given : Arguments) : Prop where
  listRules : given.listRules = false
  filter : given.filter = none ∨ given.filter = some .nothing ∨ given.filter = some (.value [])

/-- There is a time limit, and it is not zero or less. -/
def Timed (given : Arguments) : Prop := ∃ timeout, given.timeout = .value timeout ∧ timeout.atMostZero = false

/-- There is a limit of output, and it is not negative. -/
def Bounded (given : Arguments) : Prop := ∃ maxOutput, given.maxOutput = .value maxOutput ∧ 0 ≤ maxOutput

/-- Arguments over which a command fails in a way that nothing catches. All that is checked before has to make sense,
or else the problem with it is told first. -/
inductive Unguarded (tree : FileTree) (given : Arguments) : Prop
  | timeout (generates : given.Generates) (unset : given.timeout = .nothing)
  | maxOutput (generates : given.Generates) (timed : given.Timed) (unset : given.maxOutput = .nothing)
  | idl (generates : given.Generates) (timed : given.Timed) (bounded : given.Bounded)
      (unusable : given.idl.Unusable tree)
  | generator (generates : given.Generates) (timed : given.Timed) (bounded : given.Bounded)
      (idl : given.idl.Present tree) (unusable : given.generator.Unusable tree)
  | outputDir (generates : given.Generates) (timed : given.Timed) (bounded : given.Bounded)
      (idl : given.idl.Present tree) (generator : given.generator.Present tree)
      (unset : given.outputDir = .nothing)

theorem Unguarded.generates {tree : FileTree} {given : Arguments} (h : given.Unguarded tree) : given.Generates := by
  cases h <;> assumption

end Arguments

/-! ## Checks -/

namespace Config

variable {tree : FileTree} {given : Arguments}

/-- What comes of the arguments is told to nobody: a refusal, an option without a value, or a run without a directory
for its declarations. -/
def Stops : Except Refused Config → Prop
  | .error (.problem _) => False
  | .error (.fault _) => True
  | .error (.unset _) => True
  | .ok (.listRules _) => False
  | .ok (.generate config) => config.outputDir = .nothing

section
variable {α : Type} {f : α → Except Refused Config}

/-- A check that fails has a problem to tell. -/
theorem stops_check_iff {check : Except ConfigProblem α} :
    Stops (check.mapError .problem >>= f) ↔ ∃ a, check = .ok a ∧ Stops (f a) := by
  cases check with
  | error problem =>
    refine ⟨False.elim, ?_⟩
    rintro ⟨a, ha, -⟩
    cases ha
  | ok a =>
    refine ⟨fun h => ⟨a, rfl, h⟩, ?_⟩
    rintro ⟨_, ha, h⟩
    cases ha
    exact h

theorem stops_demand_iff {value : Given α} {option : Unset} :
    Stops (demand value option >>= f) ↔ value = .nothing ∨ ∃ a, value = .value a ∧ Stops (f a) := by
  cases value with
  | nothing => exact ⟨fun _ => .inl rfl, fun _ => trivial⟩
  | value a =>
    refine ⟨fun h => .inr ⟨a, rfl, h⟩, ?_⟩
    rintro (h | ⟨_, ha, h⟩)
    · cases h
    · cases ha
      exact h

end

theorem stops_requirePath_iff {path : Path} {flag : Text} {suggestion : Option Text}
    {f : Path → Except Refused Config} :
    Stops (requirePath tree (some path) flag suggestion >>= f) ↔
      tree.Refuses path ∨ tree.pathExists path = .ok true ∧ Stops (f path) := by
  have hrefuses : (∃ fault, tree.pathExists path = .error fault) ↔ tree.Refuses path :=
    ⟨fun ⟨_, h⟩ => (FileTree.pathExists_eq_error_iff.mp h).1,
      fun h => ⟨_, FileTree.pathExists_eq_error_iff.mpr ⟨h, rfl⟩⟩⟩
  rw [← hrefuses]
  unfold requirePath
  dsimp only
  cases hlookup : tree.pathExists path with
  | error fault => exact ⟨fun _ => .inl ⟨fault, rfl⟩, fun _ => trivial⟩
  | ok found =>
    cases found with
    | false =>
      refine ⟨False.elim, ?_⟩
      rintro (⟨_, h⟩ | ⟨h, -⟩) <;> cases h
    | true =>
      refine ⟨fun h => .inr ⟨rfl, h⟩, ?_⟩
      rintro (⟨_, h⟩ | ⟨-, h⟩)
      · cases h
      · exact h

theorem checkTimeout_eq_ok_iff {timeout : Binary64} {u : Unit} :
    checkTimeout timeout = .ok u ↔ timeout.atMostZero = false := by
  unfold checkTimeout
  split <;> simp_all

theorem checkMaxOutput_eq_ok_iff {maxOutput : Int} {u : Unit} : checkMaxOutput maxOutput = .ok u ↔ 0 ≤ maxOutput := by
  unfold checkMaxOutput
  split
  · rename_i hneg
    simp [hneg]
  · rename_i hnonneg
    simpa using hnonneg

theorem checkFilter_eq_ok_iff {u : Unit} : checkFilter given = .ok u ↔
    given.listRules = true ∨
      given.filter = none ∨ given.filter = some .nothing ∨ given.filter = some (.value []) := by
  unfold checkFilter
  split
  · rename_i hfilter
    simp [hfilter]
  · rename_i hfilter
    simp [hfilter]
  · rename_i hfilter
    simp [hfilter]
  · rename_i filter hsays hfilter
    split
    · rename_i hlists
      simp [hlists]
    · rename_i hlists
      simpa [hlists, hfilter] using hsays

/-! ## Configurations -/

/-- The checks stop over the first option that cannot be used, in the order in which they are made. -/
theorem stops_generating_iff (hgenerates : given.Generates) :
    Stops (generating tree given >>= fun config => pure (.generate config)) ↔ given.Unguarded tree := by
  simp only [generating, bind_assoc, stops_demand_iff, stops_check_iff, stops_requirePath_iff, checkTimeout_eq_ok_iff,
    checkMaxOutput_eq_ok_iff]
  constructor
  · rintro (hunset | ⟨timeout, htimeout, -, hpositive, hrest⟩)
    · exact .timeout hgenerates hunset
    have htimed : given.Timed := ⟨timeout, htimeout, hpositive⟩
    obtain hunset | ⟨maxOutput, hmaxOutput, -, hnonneg, hrest⟩ := hrest
    · exact .maxOutput hgenerates htimed hunset
    have hbounded : given.Bounded := ⟨maxOutput, hmaxOutput, hnonneg⟩
    obtain hunset | ⟨idl, hidl, hrefuses | ⟨hthere, hrest⟩⟩ := hrest
    · exact .idl hgenerates htimed hbounded (.inl hunset)
    · exact .idl hgenerates htimed hbounded (.inr ⟨idl, hidl, hrefuses⟩)
    have hpresent : given.idl.Present tree := ⟨idl, hidl, hthere⟩
    obtain hunset | ⟨generator, hgenerator, hrefuses | ⟨hthere', hunset⟩⟩ := hrest
    · exact .generator hgenerates htimed hbounded hpresent (.inl hunset)
    · exact .generator hgenerates htimed hbounded hpresent (.inr ⟨generator, hgenerator, hrefuses⟩)
    · exact .outputDir hgenerates htimed hbounded hpresent ⟨generator, hgenerator, hthere'⟩ hunset
  · intro h
    cases h with
    | timeout _ unset => exact .inl unset
    | maxOutput _ timed unset =>
      obtain ⟨timeout, htimeout, hpositive⟩ := timed
      exact .inr ⟨timeout, htimeout, (), hpositive, .inl unset⟩
    | idl _ timed bounded unusable =>
      obtain ⟨timeout, htimeout, hpositive⟩ := timed
      obtain ⟨maxOutput, hmaxOutput, hnonneg⟩ := bounded
      refine .inr ⟨timeout, htimeout, (), hpositive, .inr ⟨maxOutput, hmaxOutput, (), hnonneg, ?_⟩⟩
      exact unusable.imp_right fun ⟨idl, hidl, hrefuses⟩ => ⟨idl, hidl, .inl hrefuses⟩
    | generator _ timed bounded idl unusable =>
      obtain ⟨timeout, htimeout, hpositive⟩ := timed
      obtain ⟨maxOutput, hmaxOutput, hnonneg⟩ := bounded
      obtain ⟨idl, hidl, hthere⟩ := idl
      refine .inr ⟨timeout, htimeout, (), hpositive, .inr ⟨maxOutput, hmaxOutput, (), hnonneg, ?_⟩⟩
      refine .inr ⟨idl, hidl, .inr ⟨hthere, ?_⟩⟩
      exact unusable.imp_right fun ⟨generator, hgenerator, hrefuses⟩ => ⟨generator, hgenerator, .inl hrefuses⟩
    | outputDir _ timed bounded idl generator unset =>
      obtain ⟨timeout, htimeout, hpositive⟩ := timed
      obtain ⟨maxOutput, hmaxOutput, hnonneg⟩ := bounded
      obtain ⟨idl, hidl, hthere⟩ := idl
      obtain ⟨generator, hgenerator, hthere'⟩ := generator
      refine .inr ⟨timeout, htimeout, (), hpositive, .inr ⟨maxOutput, hmaxOutput, (), hnonneg, ?_⟩⟩
      exact .inr ⟨idl, hidl, .inr ⟨hthere, .inr ⟨generator, hgenerator, .inr ⟨hthere', unset⟩⟩⟩⟩

/-- **Arguments stop a command exactly if they are unguarded.** -/
theorem stops_ofArguments_iff : Stops (ofArguments tree given) ↔ given.Unguarded tree := by
  by_cases hgenerates : given.Generates
  · rw [← stops_generating_iff hgenerates]
    have hfilter : checkFilter given = .ok () := checkFilter_eq_ok_iff.mpr (.inr hgenerates.filter)
    have hconfig : ofArguments tree given = generating tree given >>= fun config => pure (.generate config) := by
      simp only [ofArguments, hfilter, hgenerates.listRules]
      rfl
    rw [hconfig]
  · refine ⟨fun h => ?_, fun h => absurd h.generates hgenerates⟩
    obtain ⟨u, hfilter, h⟩ := stops_check_iff.mp h
    split at h
    · exact h.elim
    · rename_i hlists
      refine absurd ⟨by simpa using hlists, ?_⟩ hgenerates
      exact (checkFilter_eq_ok_iff.mp hfilter).resolve_left hlists

end Config

end FlowTypes
