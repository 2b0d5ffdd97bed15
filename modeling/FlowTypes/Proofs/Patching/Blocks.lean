import FlowTypes.Proofs.Catalog.PhaseOrder
import FlowTypes.Proofs.Patching.Outcomes
import Mathlib

/-!
# Every outcome is accounted for

A rule that succeeds reports one outcome or more, all of them its own (`Rule.isBlock_apply`). So a catalog reports one
block of outcomes for each rule, in the order of application (`Catalog.forall₂_isBlock_applyEach`), and each outcome is
in one of the five rows of the summary (`Report.sum_rows`).
-/

namespace FlowTypes

/-! ## Outcomes of a catalog -/

namespace Catalog

/-- **Rules that succeed one after the other report a block each.** -/
theorem forall₂_isBlock_applyEach {out : Path} :
    ∀ {rules : List Rule} {tree tree' : FileTree} {outcomes : List Outcome},
      applyEach tree out rules = (tree', .ok outcomes) →
        ∃ blocks, List.Forall₂ Rule.IsBlock rules blocks ∧ outcomes = blocks.flatten
  | [], tree, tree', outcomes, h => by
    cases h
    exact ⟨[], .nil, rfl⟩
  | r :: rest, tree, tree', outcomes, h => by
    obtain ⟨treeFirst, block, more, hfirst, hrest, rfl⟩ := applyEach_cons_ok_iff.mp h
    obtain ⟨blocks, hblocks, rfl⟩ := forall₂_isBlock_applyEach hrest
    exact ⟨block :: blocks, .cons (Rule.isBlock_apply hfirst) hblocks, rfl⟩

/-- Every outcome is that of a rule. -/
theorem exists_reports_of_mem_flatten :
    ∀ {rules : List Rule} {blocks : List (List Outcome)}, List.Forall₂ Rule.IsBlock rules blocks →
      ∀ {o : Outcome}, o ∈ blocks.flatten → ∃ r ∈ rules, r.Reports o
  | _, _, .nil, o, ho => nomatch ho
  | r :: rest, _, .cons hblock hrest, o, ho => by
    rw [List.flatten_cons, List.mem_append] at ho
    rcases ho with ho | ho
    · exact ⟨r, List.mem_cons_self, hblock.reports o ho⟩
    · obtain ⟨r', hr', hreports⟩ := exists_reports_of_mem_flatten hrest ho
      exact ⟨r', List.mem_cons_of_mem _ hr', hreports⟩

end Catalog

namespace Report

/-! ## The summary -/

/-- The rows of the summary that count outcomes. -/
def rows (created applied alreadyApplied notApplicable missed : Nat) : Text :=
  "\n    Created:          " ++ column created
    ++ "\n    Applied:          " ++ column applied
    ++ "\n    Already applied:  " ++ column alreadyApplied
    ++ "\n    Not applicable:   " ++ column notApplicable
    ++ "\n    Missed:           " ++ column missed

/-- Every outcome is in one of the rows. -/
theorem sum_rows (out : Path) :
    ∀ {outcomes : List Outcome}, (∀ o ∈ outcomes, o.status ∈ Status.given) →
      let report : Report := ⟨out, outcomes⟩
      report.count .created + report.count .applied + report.count .alreadyApplied
        + report.count .notApplicable + report.misses.length = outcomes.length
  | [], _ => rfl
  | o :: rest, h => by
    have hrest := sum_rows out fun o' ho' => h o' (List.mem_cons_of_mem _ ho')
    have ho := h o List.mem_cons_self
    have hmissed : o.missed = o.status.missed := rfl
    simp only [count, misses, List.countP_cons, List.filter_cons, hmissed] at hrest ⊢
    cases hstatus : o.status with
    | other label => simp [hstatus, Status.given] at ho
    | _ => simp [Status.missed]; omega

/-- What a report says of the rules of which it is the report. -/
structure Accounts (rules : List Rule) (report : Report) : Prop where
  /-- There is one block for each rule, in the one order that ascends in phase and keeps the rules of a phase. -/
  blocks : ∃ ordered blocks, Catalog.InPhaseOrder rules ordered ∧
    (∀ other, Catalog.InPhaseOrder rules other → other = ordered) ∧
      List.Forall₂ Rule.IsBlock ordered blocks ∧ report.outcomes = blocks.flatten
  /-- Edits are counted exactly where there are any. -/
  edits : ∀ o ∈ report.outcomes, 0 < o.edits ↔ o.status = .applied
  /-- The rows add up to all outcomes. -/
  total : report.count .created + report.count .applied + report.count .alreadyApplied
    + report.count .notApplicable + report.misses.length = report.outcomes.length
  /-- The summary has these rows and counts no other outcomes. -/
  summary : report.summary =
    "libGDevelop types generated:\n\n  Output:     " ++ report.outputDir.text
      ++ "\n  Rules:      " ++ Text.ofNat report.ruleCount
      ++ rows (report.count .created) (report.count .applied) (report.count .alreadyApplied)
        (report.count .notApplicable) report.misses.length
      ++ "\n  Artifacts changed: " ++ Text.ofNat report.changedArtifacts.length ++ "\n"

end Report

namespace Catalog

/-- **A catalog that succeeds accounts for every outcome once.** -/
theorem apply_accounts {rules : List Rule} {tree left : FileTree} {out : Path} {report : Report}
    (h : apply rules tree out = (left, .ok report)) : report.Accounts rules := by
  unfold apply at h
  split at h
  · cases h
  · rename_i tree' outcomes heach
    cases h
    obtain ⟨blocks, hblocks, rfl⟩ := forall₂_isBlock_applyEach heach
    constructor
    case blocks =>
      exact ⟨inOrder rules, blocks, inPhaseOrder_inOrder rules, fun _ => inPhaseOrder_iff.mp, hblocks, rfl⟩
    case edits =>
      intro o ho
      obtain ⟨r, -, hreports⟩ := exists_reports_of_mem_flatten hblocks ho
      exact hreports.edits
    case total =>
      refine Report.sum_rows out fun o ho => ?_
      obtain ⟨r, -, hreports⟩ := exists_reports_of_mem_flatten hblocks ho
      exact hreports.status
    case summary =>
      unfold Report.summary Report.rows
      simp only [List.append_assoc]

/-- Rules of every kind, the first of them in the last phase. -/
def sampleRules : List Rule :=
  [⟨"missing", 40, "none.js", "x", .amend .after (.literal "class"), by decide⟩,
    ⟨"folded", 30, "*.js", "x", .amend .after (.literal "nowhere"), by decide⟩,
    ⟨"twice", 20, "*.js", "x", .amend .after (.literal "class"), by decide⟩,
    ⟨"plain", 20, "a.js", "y", .amend .before (.literal "class"), by decide⟩,
    ⟨"nothing", 20, "*.ts", "y", .amend .before (.literal "class"), by decide⟩,
    ⟨"adhoc", 10, "b.js", "declare", .create, by decide⟩]

def sampleDirectory : FileTree :=
  ⟨[(["out"], .directory), (["out", "a.js"], .file (Utf8.encode "class A"))], [], [], []⟩

/-- One rule with two outcomes, one whose misses are folded, and one of each other kind. -/
theorem apply_accounts_sampleRules : ∃ left report,
    apply sampleRules sampleDirectory ⟨0, ["out"]⟩ = (left, .ok report) ∧ report.Accounts sampleRules ∧
      report.outcomes.map (·.status) =
        [.created, .applied, .notApplicable, .applied, .artifactMissing, .anchorMissed, .artifactMissing] := by
  have hstatuses : (apply sampleRules sampleDirectory ⟨0, ["out"]⟩).2.toOption.map
      (fun report => report.outcomes.map (·.status)) = some
        [.created, .applied, .notApplicable, .applied, .artifactMissing, .anchorMissed, .artifactMissing] := by cbv
  cases happly : apply sampleRules sampleDirectory ⟨0, ["out"]⟩ with
  | mk left answer =>
  rw [happly] at hstatuses
  cases answer with
  | error fault => cases hstatuses
  | ok report => exact ⟨left, report, rfl, apply_accounts happly, Option.some.inj hstatuses⟩

end Catalog

end FlowTypes
