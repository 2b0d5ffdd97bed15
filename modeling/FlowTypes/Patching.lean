import FlowTypes.FileTree.Glob
import FlowTypes.Report

/-!
# Patching a directory

Rules applied to the files of a directory. A plain target is one file, a glob all files that it selects.
A file that is not there is an outcome, every other trouble with a file stops the application at once
and leaves what was written by then. So every step gives the tree it left behind, whether it succeeded or
not.

A file is written only if its text changed, and then with line feeds only; all other files keep their
bytes.

A rule with a glob misses only if none of its files has the anchor; otherwise the files without it are
not applicable.
-/

namespace FlowTypes

/-- The tree that a step leaves behind, and its answer or the fault that stopped it. -/
abbrev Step (α : Type) := FileTree × Except FileFault α

namespace Rule

/-! ## Targets -/

/-- The path of the target of a rule that is not a glob. -/
def targetPath (r : Rule) (outputDir : Path) : Path := outputDir.join (Path.ofText r.target)

/-- The files that a rule is to amend. -/
def targets (r : Rule) (tree : FileTree) (outputDir : Path) : Except FileFault (List Path) :=
  if Wildcard.isPattern r.target then Glob.files tree outputDir r.target
  else .ok [r.targetPath outputDir]

/-! ## One rule -/

/-- The rule writes its content to its target; the directory is made if it is missing. -/
def create (r : Rule) (tree : FileTree) (outputDir : Path) : Step (List Outcome) :=
  match tree.ensureDirectory outputDir with
  | (tree, .error fault) => (tree, .error fault)
  | (tree, .ok ()) =>
    match tree.writeText (r.targetPath outputDir) r.content with
    | .ok tree => (tree, .ok [⟨r, r.target, .created, 0⟩])
    | .error fault => (tree, .error fault)

/-- The rule amends the file at a path. -/
def amendFile (r : Rule) (placement : Placement) (anchor : Anchor) (tree : FileTree) (path : Path) :
    Step Outcome :=
  match tree.readText path with
  | .error (.refused .noSuchEntry _) => (tree, .ok ⟨r, path.name, .artifactMissing, 0⟩)
  | .error fault => (tree, .error fault)
  | .ok t =>
    let patched := Patch.amend placement anchor r.content t
    let outcome : Outcome := ⟨r, path.name, patched.status, patched.edits⟩
    -- a file whose text stays keeps its bytes, line ends included
    if patched.text = t then (tree, .ok outcome)
    else
      match tree.writeText path patched.text with
      | .ok tree => (tree, .ok outcome)
      | .error fault => (tree, .error fault)

/-- The rule amends the files at the paths, one after the other. -/
def amendFiles (r : Rule) (placement : Placement) (anchor : Anchor) (tree : FileTree) :
    List Path → Step (List Outcome)
  | [] => (tree, .ok [])
  | path :: rest =>
    match r.amendFile placement anchor tree path with
    | (tree, .error fault) => (tree, .error fault)
    | (tree, .ok outcome) =>
      match r.amendFiles placement anchor tree rest with
      | (tree, .error fault) => (tree, .error fault)
      | (tree, .ok outcomes) => (tree, .ok (outcome :: outcomes))

section
variable {r : Rule} {placement : Placement} {anchor : Anchor} {tree tree' : FileTree} {path : Path}
  {rest : List Path}

/-- Edits of several files that succeed have succeeded one after the other. -/
theorem amendFiles_cons_ok_iff {outcomes : List Outcome} :
    r.amendFiles placement anchor tree (path :: rest) = (tree', .ok outcomes) ↔
      ∃ between outcome more, r.amendFile placement anchor tree path = (between, .ok outcome) ∧
        r.amendFiles placement anchor between rest = (tree', .ok more) ∧ outcomes = outcome :: more := by
  rw [amendFiles]
  cases hfirst : r.amendFile placement anchor tree path with
  | mk between answer =>
  cases answer with
  | error fault => simp
  | ok outcome =>
    cases hrest : r.amendFiles placement anchor between rest with
    | mk left answer =>
    cases answer with
    | error fault => simp [hrest]
    | ok more => simp [hrest, and_assoc, eq_comm]

/-- Edits of several files fail over the first one, or later. -/
theorem amendFiles_cons_error_iff {fault : FileFault} :
    r.amendFiles placement anchor tree (path :: rest) = (tree', .error fault) ↔
      r.amendFile placement anchor tree path = (tree', .error fault) ∨
        ∃ between outcome, r.amendFile placement anchor tree path = (between, .ok outcome) ∧
          r.amendFiles placement anchor between rest = (tree', .error fault) := by
  rw [amendFiles]
  cases hfirst : r.amendFile placement anchor tree path with
  | mk between answer =>
  cases answer with
  | error fault' => simp
  | ok outcome =>
    cases hrest : r.amendFiles placement anchor between rest with
    | mk left answer => cases answer <;> simp [hrest]

end

/-- The outcomes of a rule with a glob: one miss if no file has the anchor; otherwise the files without
it are not applicable. -/
def foldMisses (r : Rule) (outcomes : List Outcome) : List Outcome :=
  if outcomes.all (·.status = .anchorMissed) then [⟨r, r.target, .anchorMissed, 0⟩]
  else
    outcomes.map fun o => if o.status = .anchorMissed then { o with status := .notApplicable } else o

/-- The rule applied to its artifacts. -/
def apply (r : Rule) (tree : FileTree) (outputDir : Path) : Step (List Outcome) :=
  match r.action with
  | .create => r.create tree outputDir
  | .amend placement anchor =>
    match r.targets tree outputDir with
    | .error fault => (tree, .error fault)
    | .ok [] => (tree, .ok [⟨r, r.target, .artifactMissing, 0⟩])
    | .ok paths =>
      match r.amendFiles placement anchor tree paths with
      | (tree, .error fault) => (tree, .error fault)
      | (tree, .ok outcomes) =>
        (tree, .ok (if Wildcard.isPattern r.target then r.foldMisses outcomes else outcomes))

end Rule

/-! ## A catalog -/

namespace Catalog

/-- The rules in ascending order of their phases; rules of one phase stay as they are. -/
def inOrder (rules : List Rule) : List Rule := rules.mergeSort fun a b => a.phase ≤ b.phase

/-- The rules applied one after the other, as they stand. -/
def applyEach (tree : FileTree) (outputDir : Path) : List Rule → Step (List Outcome)
  | [] => (tree, .ok [])
  | rule :: rest =>
    match rule.apply tree outputDir with
    | (tree, .error fault) => (tree, .error fault)
    | (tree, .ok outcomes) =>
      match applyEach tree outputDir rest with
      | (tree, .error fault) => (tree, .error fault)
      | (tree, .ok more) => (tree, .ok (outcomes ++ more))

section
variable {r : Rule} {rest : List Rule} {tree tree' : FileTree} {out : Path}

/-- Rules that succeed have succeeded one after the other. -/
theorem applyEach_cons_ok_iff {outcomes : List Outcome} :
    applyEach tree out (r :: rest) = (tree', .ok outcomes) ↔
      ∃ between first more, r.apply tree out = (between, .ok first) ∧
        applyEach between out rest = (tree', .ok more) ∧ outcomes = first ++ more := by
  rw [applyEach]
  cases hfirst : r.apply tree out with
  | mk between answer =>
  cases answer with
  | error fault => simp
  | ok first =>
    cases hrest : applyEach between out rest with
    | mk left answer =>
    cases answer with
    | error fault => simp [hrest]
    | ok more => simp [hrest, and_assoc, eq_comm]

/-- Of several rules the first one fails, or a later one. -/
theorem applyEach_cons_error_iff {fault : FileFault} :
    applyEach tree out (r :: rest) = (tree', .error fault) ↔
      r.apply tree out = (tree', .error fault) ∨
        ∃ between first, r.apply tree out = (between, .ok first) ∧
          applyEach between out rest = (tree', .error fault) := by
  rw [applyEach]
  cases hfirst : r.apply tree out with
  | mk between answer =>
  cases answer with
  | error fault' => simp
  | ok first =>
    cases hrest : applyEach between out rest with
    | mk left answer => cases answer <;> simp [hrest]

end

/-- The rules applied in the order of their phases. -/
def apply (rules : List Rule) (tree : FileTree) (outputDir : Path) : Step Report :=
  match applyEach tree outputDir (inOrder rules) with
  | (tree, .error fault) => (tree, .error fault)
  | (tree, .ok outcomes) => (tree, .ok ⟨outputDir, outcomes⟩)

/-- Putting rules in order loses none and doubles none. -/
theorem inOrder_perm (rules : List Rule) : (inOrder rules).Perm rules := List.mergeSort_perm _ _

end Catalog

end FlowTypes
