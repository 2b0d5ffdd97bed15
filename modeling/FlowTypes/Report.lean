import FlowTypes.Patch
import FlowTypes.Path
import FlowTypes.Problem

/-!
# Reports

What a whole catalog did: one outcome after the other, in the order of application. A report counts the
outcomes, names the artifacts that changed and the rules that missed, and may be held to a policy under
which a missed rule is a problem.
-/

namespace FlowTypes

/-- What one rule did to one artifact: the status, and the number of matches that were edited. The
artifact is the target of the rule where no file matched it. -/
structure Outcome where
  rule : Rule
  artifact : Text
  status : Status
  edits : Nat
  deriving DecidableEq, Repr

/-- The rule found nothing to work on. -/
def Outcome.missed (o : Outcome) : Bool := o.status.missed

/-- What is said of an outcome that missed. -/
def Outcome.miss (o : Outcome) : Text :=
  if o.status = .artifactMissing then o.rule.name ++ ": no artifact matches " ++ o.rule.target
  else o.rule.name ++ ": anchor not found in " ++ o.artifact

/-- The outcomes of one application of a catalog to a directory. -/
structure Report where
  outputDir : Path
  outcomes : List Outcome
  deriving DecidableEq, Repr

namespace Report

/-- The outcomes that missed. -/
def misses (r : Report) : List Outcome := r.outcomes.filter (·.missed)

/-- The names of the artifacts that were written, in ascending order, each one once. -/
def changedArtifacts (r : Report) : List Text :=
  Text.sortedDistinct ((r.outcomes.filter (·.status.changed)).map (·.artifact))

/-- The number of outcomes with a status. -/
def count (r : Report) (status : Status) : Nat := r.outcomes.countP (·.status = status)

/-- The number of rules that have an outcome. -/
def ruleCount (r : Report) : Nat := ((r.outcomes.map (·.rule.name)).eraseDups).length

/-- A number in a column of four. -/
def column (n : Nat) : Text := Text.padLeft 4 (Text.ofNat n)

/-- The report as it is printed at the end of a run. -/
def summary (r : Report) : Text :=
  "libGDevelop types generated:\n\n  Output:     " ++ r.outputDir.text
    ++ "\n  Rules:      " ++ Text.ofNat r.ruleCount
    ++ "\n    Created:          " ++ column (r.count .created)
    ++ "\n    Applied:          " ++ column (r.count .applied)
    ++ "\n    Already applied:  " ++ column (r.count .alreadyApplied)
    ++ "\n    Not applicable:   " ++ column (r.count .notApplicable)
    ++ "\n    Missed:           " ++ column r.misses.length
    ++ "\n  Artifacts changed: " ++ Text.ofNat r.changedArtifacts.length ++ "\n"

/-- Under a strict policy a report with misses is a problem that names their rules. -/
def enforce (r : Report) (strict : Bool) : Except PipelineProblem Unit :=
  if !strict || r.misses.isEmpty then .ok ()
  else
    .error
      { code := .anchorMissed
        message := Text.ofNat r.misses.length ++ " patch rule(s) found nothing to patch: "
          ++ Text.join ", " (r.misses.map (·.rule.name))
        suggestion := some ("The output format of webidl-tools flow probably changed; "
          ++ "update the anchors of these rules.") }

end Report

end FlowTypes
