import FlowTypes.Patching
import FlowTypes.Proofs.FileTree.Writing

/-!
# What rules write

Rules of any kind, with targets anywhere, write files and nothing else (`Catalog.applyEach_writes`). Which
files these are is said by `Rule.Writes` and `Catalog.Writes`; all others stay as they are. A file whose
text an edit does not change is not written.
-/

namespace FlowTypes

open FileTree (FilesOnly)

namespace Rule

/-! ## What is written -/

/-- The edit of the file at a path changes its text, and the file is at this location. -/
def Rewrites (r : Rule) (placement : Placement) (anchor : Anchor) (tree : FileTree) (path : Path)
    (loc : Location) : Prop :=
  tree.place path = loc ∧
    ∃ t, tree.readText path = .ok t ∧ (Patch.amend placement anchor r.content t).text ≠ t

/-- The rule writes the file at this location when it is applied. -/
def Writes (r : Rule) (tree : FileTree) (out : Path) (loc : Location) : Prop :=
  match r.action with
  | .create => ∃ made tree', tree.ensureDirectory out = (made, .ok ()) ∧
      made.writeText (r.targetPath out) r.content = .ok tree' ∧ made.place (r.targetPath out) = loc
  | .amend placement anchor => ∃ before path after tree' outcomes,
      r.targets tree out = .ok (before ++ path :: after) ∧
        r.amendFiles placement anchor tree before = (tree', .ok outcomes) ∧
          r.Rewrites placement anchor tree' path loc

section
variable {r : Rule} {placement : Placement} {anchor : Anchor} {tree tree' : FileTree} {out : Path}

theorem amendFile_writes {path : Path} {answer : Except FileFault Outcome}
    (h : r.amendFile placement anchor tree path = (tree', answer)) :
    FilesOnly tree tree' ∧
      ∀ l, ¬ r.Rewrites placement anchor tree path l → tree'.get? l = tree.get? l := by
  unfold amendFile at h
  split at h
  · cases h
    exact ⟨.refl _, fun _ _ => rfl⟩
  · cases h
    exact ⟨.refl _, fun _ _ => rfl⟩
  · rename_i t ht
    dsimp only at h
    split at h
    · cases h
      exact ⟨.refl _, fun _ _ => rfl⟩
    · rename_i hchanged
      split at h
      · rename_i written hwrite
        cases h
        obtain ⟨hfiles, hget⟩ := FileTree.writeBytes_eq_ok hwrite
        refine ⟨hfiles, fun l hl => ?_⟩
        have hne : l ≠ tree.place path := fun e => hl ⟨e.symm, t, ht, hchanged⟩
        rw [hget, if_neg hne]
      · cases h
        exact ⟨.refl _, fun _ _ => rfl⟩

theorem amendFiles_writes :
    ∀ {paths : List Path} {tree tree' : FileTree} {answer : Except FileFault (List Outcome)},
      r.amendFiles placement anchor tree paths = (tree', answer) →
        FilesOnly tree tree' ∧ ∀ l, (∀ before path after between outcomes, paths = before ++ path :: after →
          r.amendFiles placement anchor tree before = (between, .ok outcomes) →
            ¬ r.Rewrites placement anchor between path l) → tree'.get? l = tree.get? l
  | [], tree, tree', answer, h => by
    cases h
    exact ⟨.refl _, fun _ _ => rfl⟩
  | path :: rest, tree, tree', answer, h => by
    rw [amendFiles] at h
    cases hfirst : r.amendFile placement anchor tree path with
    | mk treeFirst answerFirst =>
    obtain ⟨hfiles, hget⟩ := amendFile_writes hfirst
    have hfirstOnly : ∀ l, (∀ before path' after between outcomes, path :: rest = before ++ path' :: after →
        r.amendFiles placement anchor tree before = (between, .ok outcomes) →
          ¬ r.Rewrites placement anchor between path' l) → treeFirst.get? l = tree.get? l :=
      fun l hl => hget l (hl [] path rest tree [] rfl rfl)
    rw [hfirst] at h
    cases answerFirst with
    | error fault =>
      cases h
      exact ⟨hfiles, hfirstOnly⟩
    | ok outcome =>
      dsimp only at h
      cases hrest : r.amendFiles placement anchor treeFirst rest with
      | mk treeRest answerRest =>
      obtain ⟨hfiles', hget'⟩ := amendFiles_writes hrest
      rw [hrest] at h
      have htree : treeRest = tree' := by cases answerRest <;> exact congrArg Prod.fst h
      subst htree
      refine ⟨hfiles.trans hfiles', fun l hl => ?_⟩
      rw [hget' l fun before path' after between outcomes hsplit hbefore hwrites => ?_, hfirstOnly l hl]
      exact hl (path :: before) path' after between (outcome :: outcomes) (by rw [hsplit]; rfl)
        (amendFiles_cons_ok_iff.mpr ⟨treeFirst, outcome, outcomes, hfirst, hbefore, rfl⟩) hwrites

/-- **A rule in an open directory writes files only**, and no others than it is said to write. -/
theorem apply_writes {loc : Location} (hopens : tree.Opens out loc)
    {answer : Except FileFault (List Outcome)} (h : r.apply tree out = (tree', answer)) :
    FilesOnly tree tree' ∧ ∀ l, ¬ r.Writes tree out l → tree'.get? l = tree.get? l := by
  unfold apply at h
  unfold Writes
  cases haction : r.action with
  | create =>
    rw [haction] at h
    dsimp only [create] at h ⊢
    rw [FileTree.ensureDirectory_of_opens hopens] at h ⊢
    dsimp only at h
    split at h
    · rename_i written hwrite
      cases h
      obtain ⟨hfiles, hget⟩ := FileTree.writeBytes_eq_ok hwrite
      refine ⟨hfiles, fun l hl => ?_⟩
      have hne : l ≠ tree.place (r.targetPath out) := fun e => hl ⟨tree, _, rfl, hwrite, e.symm⟩
      rw [hget, if_neg hne]
    · cases h
      exact ⟨.refl _, fun _ _ => rfl⟩
  | amend placement anchor =>
    rw [haction] at h
    dsimp only at h ⊢
    split at h
    · cases h
      exact ⟨.refl _, fun _ _ => rfl⟩
    · cases h
      exact ⟨.refl _, fun _ _ => rfl⟩
    · rename_i paths _ htargets
      cases hfiles : r.amendFiles placement anchor tree paths with
      | mk treeFiles answerFiles =>
      rw [hfiles] at h
      have htree : treeFiles = tree' := by cases answerFiles <;> exact congrArg Prod.fst h
      subst htree
      obtain ⟨honly, hget⟩ := amendFiles_writes hfiles
      refine ⟨honly, fun l hl => hget l fun before path after between outcomes hsplit hbefore hwrites => ?_⟩
      exact hl ⟨before, path, after, between, outcomes, hsplit ▸ htargets, hbefore, hwrites⟩

end

end Rule

/-! ## Rules in a row -/

namespace Catalog

/-- One of the rules writes the file at this location when they are applied one after the other. -/
def Writes (rules : List Rule) (tree : FileTree) (out : Path) (loc : Location) : Prop :=
  ∃ done r rest tree' outcomes, rules = done ++ r :: rest ∧
    applyEach tree out done = (tree', .ok outcomes) ∧ r.Writes tree' out loc

/-- **Rules in an open directory write files only**, and no others than they are said to write. -/
theorem applyEach_writes {out : Path} {loc : Location} :
    ∀ {rules : List Rule} {tree tree' : FileTree} {answer : Except FileFault (List Outcome)},
      tree.Opens out loc → applyEach tree out rules = (tree', answer) →
        FilesOnly tree tree' ∧ ∀ l, ¬ Writes rules tree out l → tree'.get? l = tree.get? l
  | [], tree, tree', answer, _, h => by
    cases h
    exact ⟨.refl _, fun _ _ => rfl⟩
  | r :: rest, tree, tree', answer, hopens, h => by
    rw [applyEach] at h
    cases hfirst : r.apply tree out with
    | mk treeFirst answerFirst =>
    obtain ⟨hfiles, hget⟩ := Rule.apply_writes hopens hfirst
    have hfirstOnly : ∀ l, ¬ Writes (r :: rest) tree out l → treeFirst.get? l = tree.get? l :=
      fun l hl => hget l fun hw => hl ⟨[], r, rest, tree, [], rfl, rfl, hw⟩
    rw [hfirst] at h
    cases answerFirst with
    | error fault =>
      cases h
      exact ⟨hfiles, hfirstOnly⟩
    | ok first =>
      dsimp only at h
      cases hrest : applyEach treeFirst out rest with
      | mk treeRest answerRest =>
      obtain ⟨hfiles', hget'⟩ := applyEach_writes (hopens.mono hfiles.keepsDirectories) hrest
      rw [hrest] at h
      have htree : treeRest = tree' := by cases answerRest <;> exact congrArg Prod.fst h
      subst htree
      refine ⟨hfiles.trans hfiles', fun l hl => ?_⟩
      have hlater : ¬ Writes rest treeFirst out l := by
        rintro ⟨done, r', rest', between, outcomes, rfl, hdone, hw⟩
        exact hl ⟨r :: done, r', rest', between, first ++ outcomes, rfl,
          applyEach_cons_ok_iff.mpr ⟨treeFirst, first, outcomes, hfirst, hdone, rfl⟩, hw⟩
      rw [hget' l hlater, hfirstOnly l hl]

/-- What the catalog leaves is what its rules leave, in order. -/
theorem apply_fst (rules : List Rule) (tree : FileTree) (out : Path) :
    (apply rules tree out).1 = (applyEach tree out (inOrder rules)).1 := by
  unfold apply
  cases applyEach tree out (inOrder rules) with
  | mk left answer => cases answer <;> rfl

end Catalog

end FlowTypes
