import FlowTypes.Proofs.Catalog.Rerun
import FlowTypes.Proofs.Patching.Effect
import Mathlib

/-!
# No artifact depends on another

A catalog of rules with targets of one component treats every entry of the directory by itself: what it leaves under a
name is a function of what was there, its effect (`apply_effectEach`). Whatever else is in the directory, wherever the
directory is, and whether it was there at all, makes no difference (`apply_entry_congr`).

The path of the directory has to lead down from a directory that is there. Up again from one that is missing, as in
`nope/../out`, it names nothing at first, whatever is in `out`; once a rule has made the way it names `out`, with all
that was there before. The rules before that one have not seen those files, and the rules after it do
(`not_separates`).
-/

namespace FlowTypes.Catalog

/-! ## The effect of a catalog -/

/-- What rules make of the entry under a name, one after the other, where they succeed. -/
def effectEach (name : Text) (rules : List Rule) (entry : Option Entry) : Option Entry :=
  rules.foldl (fun entry r => r.effect name entry) entry

section
variable {rules : List Rule} {tree tree' : FileTree} {out : Path}

/-- Rules that succeed have their effects on every entry of the directory. -/
theorem applyEach_effectEach :
    ∀ {rules : List Rule} {tree tree' : FileTree} {outcomes : List Outcome}, tree.Proper →
      tree.LeadsDown out → (∀ r ∈ rules, r.isComponent = true) →
        applyEach tree out rules = (tree', .ok outcomes) →
          tree'.workDir = tree.workDir ∧ ∀ name, tree'.get? (tree.place out ++ [name]) =
            effectEach name rules (tree.get? (tree.place out ++ [name]))
  | [], tree, tree', outcomes, _, _, _, hok => by
    cases hok
    exact ⟨rfl, fun _ => rfl⟩
  | r :: rest, tree, tree', outcomes, hproper, hdown, hrules, hok => by
    obtain ⟨treeFirst, first, more, hfirst, hrest, rfl⟩ := applyEach_cons_ok_iff.mp hok
    obtain ⟨hwork, hdown', heffect⟩ := Rule.apply_effect hproper hdown (hrules r List.mem_cons_self) hfirst
    have hproper' : treeFirst.Proper := by
      have hkeeps := Rule.apply_proper (r := r) hproper out
      rwa [hfirst] at hkeeps
    obtain ⟨hwork', heffect'⟩ := applyEach_effectEach hproper' hdown'
      (fun r hr => hrules r (List.mem_cons_of_mem _ hr)) hrest
    refine ⟨hwork'.trans hwork, fun name => ?_⟩
    rw [← FileTree.place_of_workDir hwork out, heffect', FileTree.place_of_workDir hwork out, heffect]
    rfl

/-- **What a catalog leaves under a name is a function of what was there.** -/
theorem apply_effectEach {report : Report} (hrules : ∀ r ∈ rules, r.isComponent = true) (hproper : tree.Proper)
    (hdown : tree.LeadsDown out) (h : apply rules tree out = (tree', .ok report)) (name : Text) :
    tree'.get? (tree'.place out ++ [name]) =
      effectEach name (inOrder rules) (tree.get? (tree.place out ++ [name])) := by
  obtain ⟨hwork, heffect⟩ := applyEach_effectEach hproper hdown (fun r hr => hrules r (mem_inOrder.mp hr))
    (apply_eq_ok_iff.mp h).2
  rw [FileTree.place_of_workDir hwork out]
  exact heffect name

end

/-! ## Two directories -/

/-- Directories that look alike under a name look alike under it after the same rules, wherever they are. -/
def Separates {α : Type} (look : FileTree → Path → Text → α) : Prop :=
  ∀ (rules : List Rule) (tree tree' ended ended' : FileTree) (out out' : Path) (report report' : Report),
    (∀ r ∈ rules, r.isComponent = true) → tree.Proper → tree'.Proper →
      apply rules tree out = (ended, .ok report) → apply rules tree' out' = (ended', .ok report') →
        ∀ name, look tree out name = look tree' out' name → look ended out name = look ended' out' name

/-- **Directories that agree on an entry agree on it after the same rules**, whatever else is in them. -/
theorem apply_entry_congr {rules : List Rule} (hrules : ∀ r ∈ rules, r.isComponent = true)
    {tree tree' ended ended' : FileTree} {out out' : Path} {report report' : Report} (hproper : tree.Proper)
    (hproper' : tree'.Proper) (hdown : tree.LeadsDown out) (hdown' : tree'.LeadsDown out')
    (h : apply rules tree out = (ended, .ok report)) (h' : apply rules tree' out' = (ended', .ok report'))
    {name : Text} (hagree : tree.get? (tree.place out ++ [name]) = tree'.get? (tree'.place out' ++ [name])) :
    ended.get? (ended.place out ++ [name]) = ended'.get? (ended'.place out' ++ [name]) := by
  rw [apply_effectEach hrules hproper hdown h, apply_effectEach hrules hproper' hdown' h', hagree]

/-- The same declaration in two directories, one of which holds another, too. -/
theorem apply_entry_congr_gdLayout : ∃ ended ended' report report',
    apply standard (sampleFiles [("gdlayout.js", sampleText)]) sampleOut = (ended, .ok report) ∧
      apply standard (sampleFiles [("gdresource.js", sampleText), ("gdlayout.js", sampleText)]) sampleOut =
        (ended', .ok report') ∧
      ended.get? (ended.place sampleOut ++ [("gdlayout.js" : Text)]) =
        ended'.get? (ended'.place sampleOut ++ [("gdlayout.js" : Text)]) := by
  obtain ⟨ended, report, h⟩ :=
    exists_apply_sampleFiles [("gdlayout.js", sampleText)] (by decide) (by decide)
  obtain ⟨ended', report', h'⟩ :=
    exists_apply_sampleFiles [("gdresource.js", sampleText), ("gdlayout.js", sampleText)] (by decide) (by decide)
  refine ⟨ended, ended', report, report', h, h', ?_⟩
  refine apply_entry_congr (fun r hr => Rule.isComponent_of_isSingle (orderly_standard.single r (mem_inOrder.mpr hr)))
    (by decide) (by decide) (FileTree.leadsDown_of_isDirectory rfl) (FileTree.leadsDown_of_isDirectory rfl) h h'
    (by decide)

/-! ## A way up from what is missing -/

/-- Two rules: the first one is for a file, the second one writes another. -/
def pairRules : List Rule :=
  [⟨"mark", 10, "f.js", "x", .amend .before (.literal "c"), by decide⟩, ⟨"new", 20, "g.js", "", .create, by decide⟩]

/-- A path to the directory of the samples, but up from one that is missing. -/
def roundabout : Path := ⟨0, ["nope", "..", "out"]⟩

theorem exists_apply_of_isSome (rules : List Rule) (tree : FileTree) (out : Path)
    (h : (apply rules tree out).2.toOption.isSome = true) :
    ∃ report, apply rules tree out = ((apply rules tree out).1, .ok report) := by
  cases happly : apply rules tree out with
  | mk ended answer =>
  rw [happly] at h
  cases answer with
  | error fault => cases h
  | ok report => exact ⟨report, rfl⟩

/-- **Where the path of a directory leads up from what is missing, entries are not separate**, neither by what is seen
at the path of a file nor by what lies at its place. At the path no file is seen before the rules, as in an empty
directory, and one afterwards; at its place the file stays as it is, though the same file is changed where the path
leads down. -/
theorem not_separates :
    ¬ Separates (fun tree out name => tree.probe (out.child name)) ∧
      ¬ Separates (fun tree out name => tree.get? (tree.place out ++ [name])) := by
  have hrules : ∀ r ∈ pairRules, r.isComponent = true := by decide
  obtain ⟨report, hround⟩ := exists_apply_of_isSome pairRules (sampleFiles [("f.js", "c")]) roundabout (by cbv)
  constructor
  · intro h
    obtain ⟨report', hempty⟩ := exists_apply_of_isSome pairRules (sampleFiles []) sampleOut (by cbv)
    have hseen : (apply pairRules (sampleFiles [("f.js", "c")]) roundabout).1.probe (roundabout.child "f.js") =
        (apply pairRules (sampleFiles []) sampleOut).1.probe (sampleOut.child "f.js") :=
      h _ _ _ _ _ _ _ _ _ hrules (by decide) (by decide) hround hempty "f.js" (by cbv)
    cbv at hseen
    cases hseen
  · intro h
    obtain ⟨report', hplain⟩ := exists_apply_of_isSome pairRules (sampleFiles [("f.js", "c")]) sampleOut (by cbv)
    have hlies := h _ _ _ _ _ _ _ _ _ hrules (by decide) (by decide) hround hplain "f.js" (by cbv)
    cbv at hlies
    cases hlies

end FlowTypes.Catalog
