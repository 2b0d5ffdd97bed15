import FlowTypes.Pipeline

/-!
# Two runs under different policies

A policy has its say at the very end: all rules have been applied by then, and all warnings are printed. So a strict
run and a lenient one from the same files do the same up to there (`PolicyAside.of_apply`), and whatever stops the one
before stops the other (`PolicyAside.of_stopped`). `PolicyAside` says what the two runs have in common and what sets
them apart, and every pair of runs is of this kind (`run_policyAside`).
-/

namespace FlowTypes

/-- The same configuration under a policy. -/
def GenerateConfig.withPolicy (config : GenerateConfig) (strict : Bool) : GenerateConfig :=
  { config with strictAnchors := strict }

/-! ## Policies over a report -/

namespace Report

variable {r : Report}

theorem misses_eq_nil_iff : r.misses = [] ↔ ∀ o ∈ r.outcomes, o.missed = false := by
  simp [misses, List.filter_eq_nil_iff]

theorem enforce_lenient (r : Report) : r.enforce false = .ok () := rfl

theorem enforce_of_misses_eq_nil (h : r.misses = []) (strict : Bool) : r.enforce strict = .ok () := by
  simp [enforce, h]

/-- A strict policy takes misses for a problem that names their rules, one after the other. -/
theorem enforce_strict_of_misses_ne_nil (h : r.misses ≠ []) :
    ∃ problem : PipelineProblem, r.enforce true = .error problem ∧ problem.code = .anchorMissed ∧
      problem.message = Text.ofNat r.misses.length ++ " patch rule(s) found nothing to patch: "
        ++ Text.join ", " (r.misses.map (·.rule.name)) := by
  have hempty : r.misses.isEmpty = false := by simpa using h
  unfold enforce
  rw [hempty]
  exact ⟨_, rfl, rfl, rfl⟩

end Report

namespace Pipeline

/-! ## What policies change -/

/-- What can be said of two runs that differ in the policy only. -/
structure PolicyAside (config : GenerateConfig) (rules : List Rule) (lenient strict : Run) : Prop where
  /-- They leave the same files. -/
  tree : strict.tree = lenient.tree
  /-- They call the generator in the same way. -/
  calls : strict.calls = lenient.calls
  /-- What stops the lenient run stops the strict one, which has printed the same. -/
  stopped : ∀ failure, lenient.answer = .error failure →
    strict.answer = .error failure ∧ strict.printed = lenient.printed
  /-- A lenient run that completes has applied all rules and reports what they did. -/
  applied : ∀ answer, lenient.answer = .ok answer → ∃ out left, config.outputDir = .value out ∧
    Catalog.apply rules left out = (lenient.tree, .ok answer.report)
  /-- The strict run stops over misses exactly if there is one in the report. -/
  missed : ∀ answer, lenient.answer = .ok answer →
    ((∃ problem : PipelineProblem, strict.answer = .error (.problem problem) ∧ problem.code = .anchorMissed) ↔
      ∃ o ∈ answer.report.outcomes, o.missed = true)
  /-- It names the rules that missed, in the order of application. -/
  named : ∀ answer, lenient.answer = .ok answer → ∀ failure, strict.answer = .error failure →
    ∃ problem : PipelineProblem, failure = .problem problem ∧
      problem.message = Text.ofNat (answer.report.outcomes.filter (·.missed)).length
        ++ " patch rule(s) found nothing to patch: "
        ++ Text.join ", " ((answer.report.outcomes.filter (·.missed)).map (·.rule.name))
  /-- Without misses it completes with the same answer. -/
  completed : ∀ answer, lenient.answer = .ok answer → (∀ o ∈ answer.report.outcomes, o.missed = false) →
    strict.answer = .ok answer
  /-- Both print the same warnings, and a summary follows if the run completes. -/
  warned : ∀ answer, lenient.answer = .ok answer → ∃ before,
    lenient.printed = before ++ warnings answer.report ++ answer.report.summary ∧
      strict.printed = before ++ warnings answer.report ++
        if ∃ o ∈ answer.report.outcomes, o.missed = true then [] else answer.report.summary

section
variable {config : GenerateConfig} {rules : List Rule}

/-- A run that stops before any policy is asked is the same under both. -/
theorem PolicyAside.of_stopped {run : Run} {failure : Failure} (h : run.answer = .error failure) :
    PolicyAside config rules run run := by
  have hnever : ∀ answer, run.answer ≠ .ok answer := by
    intro answer hanswer
    rw [h] at hanswer
    cases hanswer
  constructor
  case tree => rfl
  case calls => rfl
  case stopped => exact fun _ hstop => ⟨hstop, rfl⟩
  all_goals exact fun answer hanswer => absurd hanswer (hnever answer)

section
variable {out : Path} {left ended : FileTree} {report : Report} {result : Generator.Result} {calls : List GeneratorCall}

/-- What a run answers that has got as far as its report. -/
theorem report_eq {answer : PipelineResult}
    (h : (.ok ⟨result, report⟩ : Except Failure PipelineResult) = .ok answer) : answer.report = report := by
  cases h
  rfl

/-- With nothing missed, a run is the same under both policies. -/
theorem PolicyAside.of_hits (printed : Text) (hout : config.outputDir = .value out)
    (happly : Catalog.apply rules left out = (ended, .ok report)) (hmisses : report.misses = []) :
    PolicyAside config rules ⟨ended, printed ++ warnings report ++ report.summary, calls, .ok ⟨result, report⟩⟩
      ⟨ended, printed ++ warnings report ++ report.summary, calls, .ok ⟨result, report⟩⟩ := by
  have hnot : ¬ ∃ o ∈ report.outcomes, o.missed = true := by
    rintro ⟨o, ho, hmissed⟩
    rw [Report.misses_eq_nil_iff.mp hmisses o ho] at hmissed
    cases hmissed
  constructor
  case tree => rfl
  case calls => rfl
  case stopped => exact fun _ hstop => ⟨hstop, rfl⟩
  case applied => exact fun answer ha => ⟨out, left, hout, report_eq ha ▸ happly⟩
  case missed =>
    intro answer ha
    rw [report_eq ha]
    refine ⟨?_, fun hmissed => absurd hmissed hnot⟩
    rintro ⟨problem, hproblem, -⟩
    cases hproblem
  case named =>
    intro _ _ failure hfailure
    cases hfailure
  case completed => exact fun answer ha _ => ha
  case warned =>
    intro answer ha
    rw [report_eq ha, if_neg hnot]
    exact ⟨printed, rfl, rfl⟩

/-- With something missed, a strict run stops over it where a lenient one prints its summary. -/
theorem PolicyAside.of_misses (printed : Text) (hout : config.outputDir = .value out)
    (happly : Catalog.apply rules left out = (ended, .ok report)) {problem : PipelineProblem}
    (henforce : report.enforce true = .error problem) (hmisses : report.misses ≠ []) :
    PolicyAside config rules ⟨ended, printed ++ warnings report ++ report.summary, calls, .ok ⟨result, report⟩⟩
      ⟨ended, printed ++ warnings report, calls, .error (.problem problem)⟩ := by
  have hmissed : ∃ o ∈ report.outcomes, o.missed = true := by
    obtain ⟨o, ho⟩ := List.exists_mem_of_ne_nil _ hmisses
    exact ⟨o, (List.mem_filter.mp ho).1, (List.mem_filter.mp ho).2⟩
  obtain ⟨problem', henforce', hcode, hmessage⟩ := Report.enforce_strict_of_misses_ne_nil hmisses
  rw [henforce] at henforce'
  cases henforce'
  constructor
  case tree => rfl
  case calls => rfl
  case stopped =>
    intro _ hstop
    cases hstop
  case applied => exact fun answer ha => ⟨out, left, hout, report_eq ha ▸ happly⟩
  case missed =>
    intro answer ha
    rw [report_eq ha]
    exact ⟨fun _ => hmissed, fun _ => ⟨problem, rfl, hcode⟩⟩
  case named =>
    rintro answer ha failure ⟨⟩
    rw [report_eq ha]
    exact ⟨problem, rfl, hmessage⟩
  case completed =>
    intro answer ha hnone
    rw [report_eq ha] at hnone
    exact absurd (Report.misses_eq_nil_iff.mpr hnone) hmisses
  case warned =>
    intro answer ha
    rw [report_eq ha, if_pos hmissed]
    exact ⟨printed, rfl, (List.append_nil _).symm⟩

/-- **Once all rules are applied, only the last word differs.** -/
theorem PolicyAside.of_apply (printed : Text) (calls : List GeneratorCall) (result : Generator.Result)
    (hout : config.outputDir = .value out) (h : Catalog.apply rules left out = (ended, .ok report)) :
    PolicyAside config rules (patch (config.withPolicy false) out rules left printed calls result)
      (patch (config.withPolicy true) out rules left printed calls result) := by
  have hlenient : patch (config.withPolicy false) out rules left printed calls result =
      ⟨ended, printed ++ warnings report ++ report.summary, calls, .ok ⟨result, report⟩⟩ := by
    simp only [patch, h, GenerateConfig.withPolicy, Report.enforce_lenient]
  rw [hlenient]
  by_cases hmisses : report.misses = []
  · have hstrict : patch (config.withPolicy true) out rules left printed calls result =
        ⟨ended, printed ++ warnings report ++ report.summary, calls, .ok ⟨result, report⟩⟩ := by
      simp only [patch, h, GenerateConfig.withPolicy, Report.enforce_of_misses_eq_nil hmisses]
    rw [hstrict]
    exact .of_hits printed hout h hmisses
  · obtain ⟨problem, henforce, -⟩ := Report.enforce_strict_of_misses_ne_nil hmisses
    have hstrict : patch (config.withPolicy true) out rules left printed calls result =
        ⟨ended, printed ++ warnings report, calls, .error (.problem problem)⟩ := by
      simp only [patch, h, GenerateConfig.withPolicy, henforce]
    rw [hstrict]
    exact .of_misses printed hout h henforce hmisses

end

/-! ## Stage by stage -/

variable {out : Path}

theorem patch_policyAside (hout : config.outputDir = .value out) (left : FileTree) (printed : Text)
    (calls : List GeneratorCall) (result : Generator.Result) :
    PolicyAside config rules (patch (config.withPolicy false) out rules left printed calls result)
      (patch (config.withPolicy true) out rules left printed calls result) := by
  cases happly : Catalog.apply rules left out with
  | mk ended answer =>
  cases answer with
  | ok report => exact .of_apply printed calls result hout happly
  | error fault =>
    have hstops : ∀ strict, patch (config.withPolicy strict) out rules left printed calls result =
        ⟨ended, printed, calls, .error (.file fault)⟩ := by
      intro strict
      simp only [patch, happly]
    rw [hstops, hstops]
    exact .of_stopped rfl

theorem gate_policyAside (hout : config.outputDir = .value out) (left : FileTree) (printed : Text)
    (calls : List GeneratorCall) (result : Generator.Result) :
    PolicyAside config rules (gate (config.withPolicy false) out rules left printed calls result)
      (gate (config.withPolicy true) out rules left printed calls result) := by
  have hlimit : ∀ strict, (config.withPolicy strict).maxOutput = config.maxOutput := fun _ => rfl
  unfold gate
  rw [hlimit, hlimit]
  cases hcheck : result.check config.maxOutput with
  | error problem => exact .of_stopped rfl
  | ok _ => exact patch_policyAside hout left printed calls result

/-- **Two runs that differ in the policy only** leave the same files, print the same warnings, and differ in nothing
but that the strict one stops over misses. -/
theorem run_policyAside (config : GenerateConfig) (generator : Generator.Program) (rules : List Rule)
    (tree : FileTree) :
    PolicyAside config rules (run (config.withPolicy false) generator rules tree)
      (run (config.withPolicy true) generator rules tree) := by
  have hidl : ∀ strict, (config.withPolicy strict).idl = config.idl := fun _ => rfl
  have hstart : ∀ strict, startLine (config.withPolicy strict) = startLine config := fun _ => rfl
  have hdir : ∀ strict, (config.withPolicy strict).outputDir = config.outputDir := fun _ => rfl
  unfold run
  rw [hdir, hdir, hstart, hstart]
  cases hout : config.outputDir with
  | nothing => exact .of_stopped rfl
  | value out =>
    unfold runInto
    dsimp only
    rw [hstart, hstart, hidl, hidl]
    cases tree.ensureDirectory out with
    | mk made answer =>
    cases answer with
    | error fault => exact .of_stopped rfl
    | ok _ =>
      dsimp only
      cases Idl.withCopy Idl.elidedAttributes made config.idl
          (callGenerator generator { outputDir := out }) with
      | mk left answer =>
      rcases answer with (fault | fault) | ⟨call, breakdown | result⟩
      · exact .of_stopped rfl
      · exact .of_stopped rfl
      · exact .of_stopped rfl
      · exact gate_policyAside hout left _ _ result

end

end Pipeline

end FlowTypes
