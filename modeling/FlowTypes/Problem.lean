import FlowTypes.Text

/-!
# Problems

A problem is what a run reports and stops at: a code, a message, and a suggestion what to do about it.
There are two families. Problems with the configuration come before anything is done, problems of the
pipeline while it runs. A code belongs to one family only.
-/

namespace FlowTypes

/-- The codes of problems with the configuration. -/
inductive ConfigCode where
  | pathNotFound
  | invalidTimeout
  | invalidThreshold
  | filterWithoutList
  deriving DecidableEq, Repr

/-- The codes of problems of the pipeline. -/
inductive PipelineCode where
  | generatorErrored
  | generatorTimedOut
  | generatorOutputSuspicious
  | anchorMissed
  deriving DecidableEq, Repr

/-- The name of a code. -/
def ConfigCode.text : ConfigCode → Text
  | pathNotFound => "PATH_NOT_FOUND"
  | invalidTimeout => "INVALID_TIMEOUT"
  | invalidThreshold => "INVALID_THRESHOLD"
  | filterWithoutList => "FILTER_WITHOUT_LIST"

/-- The name of a code. -/
def PipelineCode.text : PipelineCode → Text
  | generatorErrored => "GENERATOR_ERRORED"
  | generatorTimedOut => "GENERATOR_TIMED_OUT"
  | generatorOutputSuspicious => "GENERATOR_OUTPUT_SUSPICIOUS"
  | anchorMissed => "ANCHOR_MISSED"

/-- The code of a name. -/
def ConfigCode.ofText? (t : Text) : Option ConfigCode :=
  [pathNotFound, invalidTimeout, invalidThreshold, filterWithoutList].find? (·.text = t)

/-- The code of a name. -/
def PipelineCode.ofText? (t : Text) : Option PipelineCode :=
  [generatorErrored, generatorTimedOut, generatorOutputSuspicious, anchorMissed].find? (·.text = t)

/-- A code with a message and, maybe, a suggestion. -/
structure Problem (Code : Type) where
  code : Code
  message : Text
  suggestion : Option Text
  deriving DecidableEq, Repr

/-- A problem with the configuration. -/
abbrev ConfigProblem := Problem ConfigCode

/-- A problem of the pipeline. -/
abbrev PipelineProblem := Problem PipelineCode

/-- A code that is in no family, with the name of the family it was looked for in. -/
structure UnknownCode where
  family : Text
  code : Text
  deriving DecidableEq, Repr

/-- The unknown code in words. -/
def UnknownCode.message (u : UnknownCode) : Text :=
  "Unknown " ++ u.family ++ " error code: " ++ u.code

/-- The problem with the configuration that has a code of this name. -/
def ConfigProblem.ofCode (code message : Text) (suggestion : Option Text) :
    Except UnknownCode ConfigProblem :=
  match ConfigCode.ofText? code with
  | some c => .ok ⟨c, message, suggestion⟩
  | none => .error ⟨"config", code⟩

/-- The problem of the pipeline that has a code of this name. -/
def PipelineProblem.ofCode (code message : Text) (suggestion : Option Text) :
    Except UnknownCode PipelineProblem :=
  match PipelineCode.ofText? code with
  | some c => .ok ⟨c, message, suggestion⟩
  | none => .error ⟨"pipeline", code⟩

/-- What is shown of a problem of some family: its code and message, and its suggestion if it has one
that says something. -/
def Problem.shown {Code : Type} (family : Text) (codeText : Code → Text) (p : Problem Code) : Text :=
  family ++ " error [" ++ codeText p.code ++ "]: " ++ p.message ++ "\n" ++
    match p.suggestion with
    | none | some [] => []
    | some hint => "Hint: " ++ hint ++ "\n"

theorem ConfigCode.ofText?_text (c : ConfigCode) : ofText? c.text = some c := by
  cases c <;> decide

theorem PipelineCode.ofText?_text (c : PipelineCode) : ofText? c.text = some c := by
  cases c <;> decide

end FlowTypes
