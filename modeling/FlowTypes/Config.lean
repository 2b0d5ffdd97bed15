import FlowTypes.Arguments
import FlowTypes.Decimal.Shortest
import FlowTypes.FileTree
import FlowTypes.Problem

/-!
# Configuration

Arguments that make sense are a configuration: either the rules are listed, or declarations are generated.
Generating needs a time limit, a limit of output that is not negative, and the paths of the definitions
and of the generator, which must be there.

The first thing that is wrong is reported. A path that the system refuses to look up is no problem with
the configuration but a fault, and an option that was given nothing leaves its check undone. What the checks
do not need, the directory of the declarations and the program that runs the generator, may still be
missing in a configuration.
-/

namespace FlowTypes

/-- What a run needs that generates declarations. -/
structure GenerateConfig where
  idl : Path
  outputDir : Given Path
  generator : Path
  node : Given Text
  timeout : Binary64
  maxOutput : Int
  strictAnchors : Bool
  deriving DecidableEq, Repr

/-- What is to be done. -/
inductive Config where
  | generate (config : GenerateConfig)
  | listRules (filter : Option (Given Text))
  deriving DecidableEq, Repr

namespace Config

/-- Why there is no configuration: something makes no sense, the system refused a path, or an option was
given nothing. -/
inductive Refused where
  | problem (problem : ConfigProblem)
  | fault (fault : FileFault)
  | unset (option : Unset)
  deriving DecidableEq, Repr

/-- A path that must be given and must be there. `flag` is how it is asked for; without a suggestion
there is one that fits every flag. -/
def requirePath (tree : FileTree) (path : Option Path) (flag : Text) (suggestion : Option Text) :
    Except Refused Path :=
  let orElse (fallback : Text) : Option Text :=
    match suggestion with
    | none | some [] => some fallback
    | some hint => some hint
  match path with
  | none =>
    .error (.problem
      { code := .pathNotFound
        message := flag ++ " is required: no path provided."
        suggestion := orElse ("Pass the path explicitly: " ++ flag ++ " /path/to/resource") })
  | some path =>
    match tree.pathExists path with
    | .error fault => .error (.fault fault)
    | .ok true => .ok path
    | .ok false =>
      .error (.problem
        { code := .pathNotFound
          message := "Path for " ++ flag ++ " does not exist: " ++ path.text
          suggestion := orElse "Provide an existing path for this flag." })

/-- What to do if the definitions are missing. -/
def idlHint : Text :=
  "Run from a GDevelop.js checkout, or pass a custom path: --idl /path/to/Bindings.idl"

/-- What to do if the generator is missing. -/
def generatorHint : Text :=
  "Install the dev dependencies of GDevelop.js:\n  npm install\n"
    ++ "Or pass a custom path: --generator /path/to/webidl-tools-flow"

/-- A filter that says something is only for listing. -/
def checkFilter (a : Arguments) : Except ConfigProblem Unit :=
  match a.filter with
  | none | some .nothing | some (.value []) => .ok ()
  | some (.value _) =>
    if a.listRules then .ok ()
    else
      .error
        { code := .filterWithoutList
          message := "--filter requires --list-rules."
          suggestion := some "Add --list-rules or remove --filter." }

/-- The time limit must not be zero or less. -/
def checkTimeout (timeout : Binary64) : Except ConfigProblem Unit :=
  if timeout.atMostZero then
    .error
      { code := .invalidTimeout
        message := "--timeout must be positive, got " ++ timeout.text ++ "."
        suggestion := some "Pass a number of seconds, for example --timeout 300." }
  else .ok ()

/-- The limit of output must not be negative. -/
def checkMaxOutput (maxOutput : Int) : Except ConfigProblem Unit :=
  if maxOutput < 0 then
    .error
      { code := .invalidThreshold
        message := "--max-stdout must not be negative, got " ++ Text.ofInt maxOutput ++ "."
        suggestion := some ("Use the default (" ++ Text.ofInt Arguments.defaultMaxOutput
          ++ ") unless the generator got chattier.") }
  else .ok ()

/-- The value of an option that must have one. -/
def demand {α : Type} (given : Given α) (option : Unset) : Except Refused α :=
  match given with
  | .value a => .ok a
  | .nothing => .error (.unset option)

/-- The configuration of a run that generates declarations. -/
def generating (tree : FileTree) (a : Arguments) : Except Refused GenerateConfig := do
  let timeout ← demand a.timeout .timeout
  (checkTimeout timeout).mapError .problem
  let maxOutput ← demand a.maxOutput .maxOutput
  (checkMaxOutput maxOutput).mapError .problem
  let idl ← requirePath tree (some (← demand a.idl .idl)) "--idl" (some idlHint)
  let generator ← requirePath tree (some (← demand a.generator .generator)) "--generator"
    (some generatorHint)
  pure
    { idl := idl
      outputDir := a.outputDir
      generator := generator
      node := a.node
      timeout := timeout
      maxOutput := maxOutput
      strictAnchors := a.strictAnchors }

/-- The configuration that some arguments ask for. -/
def ofArguments (tree : FileTree) (a : Arguments) : Except Refused Config := do
  (checkFilter a).mapError .problem
  -- listing needs nothing else, so nothing else is looked at
  if a.listRules then pure (.listRules a.filter)
  else return .generate (← generating tree a)

/-- A path that was required is the one that was given, and is there. -/
theorem requirePath_eq_ok_iff (tree : FileTree) (given : Option Path) (flag : Text)
    (suggestion : Option Text) (path : Path) :
    requirePath tree given flag suggestion = .ok path ↔
      given = some path ∧ tree.pathExists path = .ok true := by
  unfold requirePath
  cases given with
  | none => simp
  | some p =>
    dsimp only
    cases h : tree.pathExists p with
    | error fault =>
      simp only [reduceCtorEq, Option.some.injEq, false_iff, not_and]
      rintro rfl
      simp [h]
    | ok found =>
      cases found with
      | false =>
        simp only [reduceCtorEq, Option.some.injEq, false_iff, not_and]
        rintro rfl
        simp [h]
      | true =>
        simp only [Except.ok.injEq, Option.some.injEq]
        constructor
        · rintro rfl; exact ⟨rfl, h⟩
        · exact fun hp => hp.1

end Config

end FlowTypes
