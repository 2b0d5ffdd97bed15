import FlowTypes.Proofs.FileTree.Closed
import FlowTypes.Proofs.FileTree.Proper
import FlowTypes.Proofs.Patching.Revision

/-!
# What a rule does, from outside

`Rule.revise` follows a rule at one path. Where rules are compared at different paths, all that matters is what they do
where they succeed, and this is a function of the entry and its name alone: `Rule.effect`. It covers all rules whose
targets are single components, globs that select directories only among them, and it holds whether the directory of the
declarations is there or has to be made (`Rule.apply_effect`).

A directory that is not there is made by the first rule that writes a file. The rules before it find nothing
(`Rule.apply_of_not_opens`), and if its path leads down nothing is there that they could have found
(`Rule.get?_of_not_opens`).
-/

namespace FlowTypes

open FileTree (Proper)

theorem Glob.isPattern_of_hasTwoStars {t : Text} (h : hasTwoStars t = true) : Wildcard.isPattern t = true := by
  fun_induction hasTwoStars t with
  | case1 rest => rfl
  | case2 c rest _ ih =>
    unfold Wildcard.isPattern at ih ⊢
    rw [List.any_cons, ih h, Bool.or_true]
  | case3 => cases h

namespace Rule

/-- The target is one component: a file name, or a glob without slashes. -/
def isComponent (r : Rule) : Bool :=
  if Wildcard.isPattern r.target then !r.target.contains '/' else r.target.isName

/-- What the rule makes of the entry under a name where it succeeds. A glob with two stars side by side is for
directories, of which nothing is made. -/
def effect (r : Rule) (name : Text) (entry : Option Entry) : Option Entry :=
  if r.concerns name && !Glob.hasTwoStars r.target then (r.rewrite entry).getD entry else entry

section
variable {r : Rule} {tree tree' : FileTree} {out : Path} {loc : Location} {outcomes : List Outcome}
  {placement : Placement} {anchor : Anchor}

theorem isName_of_isComponent (hr : r.isComponent = true) (hp : Wildcard.isPattern r.target = false) :
    r.target.isName = true := by
  simpa [isComponent, hp] using hr

theorem not_mem_of_isComponent (hr : r.isComponent = true) (hp : Wildcard.isPattern r.target = true) :
    '/' ∉ r.target := by
  simpa [isComponent, hp] using hr

theorem isComponent_of_isSingle (hr : r.isSingle = true) : r.isComponent = true := by
  unfold isComponent
  unfold isSingle at hr
  split at hr
  · rename_i hp
    rw [if_pos hp]
    simp only [Bool.and_eq_true] at hr
    simpa using (Glob.isSingle_iff.mp hr.1).2.2
  · rename_i hp
    rw [if_neg hp, hr]

/-- Nothing comes of nothing but a file that is written. -/
theorem effect_none (haction : r.action = .amend placement anchor) (name : Text) : r.effect name none = none := by
  unfold effect
  split
  · simp [rewrite, haction, amendEntry]
  · rfl

/-! ## Proper trees stay proper -/

theorem amendFile_proper (hproper : tree.Proper) (path : Path) :
    (r.amendFile placement anchor tree path).1.Proper := by
  unfold amendFile
  split
  · exact hproper
  · exact hproper
  · dsimp only
    split
    · exact hproper
    · split
      · rename_i hwrite
        exact hproper.writeBytes hwrite
      · exact hproper

theorem amendFiles_proper : ∀ {tree : FileTree} (paths : List Path), tree.Proper →
    (r.amendFiles placement anchor tree paths).1.Proper
  | tree, [], hproper => hproper
  | tree, path :: rest, hproper => by
    have hfirst := @amendFile_proper r tree placement anchor hproper path
    rw [amendFiles]
    generalize r.amendFile placement anchor tree path = first at hfirst
    obtain ⟨treeFirst, _ | _⟩ := first
    · exact hfirst
    · have hrest := amendFiles_proper rest hfirst
      dsimp only
      generalize r.amendFiles placement anchor treeFirst rest = more at hrest
      obtain ⟨treeRest, _ | _⟩ := more
      · exact hrest
      · exact hrest

theorem apply_proper (hproper : tree.Proper) (out : Path) : (r.apply tree out).1.Proper := by
  unfold apply
  split
  · have hmake := hproper.ensureDirectory out
    unfold create
    generalize tree.ensureDirectory out = made at hmake
    obtain ⟨made, _ | _⟩ := made
    · exact hmake
    · dsimp only
      split
      · rename_i hwrite
        exact hmake.writeBytes hwrite
      · exact hmake
  · rename_i placement anchor _
    split
    · exact hproper
    · exact hproper
    · rename_i paths _ _
      have hfiles := @amendFiles_proper r placement anchor tree paths hproper
      generalize r.amendFiles placement anchor tree paths = done at hfiles
      obtain ⟨treeFiles, _ | _⟩ := done
      · exact hfiles
      · exact hfiles

/-! ## In an open directory -/

/-- A glob meets whatever is there under a name that fits. -/
theorem meets_of_there (hproper : tree.Proper) (h : tree.Opens out loc) (hp : Wildcard.isPattern r.target = true)
    {name : Text} (hconcerns : r.concerns name = true) {old : Entry} (hunder : tree.under loc name = some old) :
    r.meets out name (tree.under loc name) = true := by
  have hthere : tree.get? (loc ++ [name]) ≠ none := by
    rw [← FileTree.under, hunder]
    exact Option.some_ne_none _
  have hnull := hproper.null_not_mem_text_child h hthere
  simp [meets, hconcerns, hp, hunder, hnull]

/-- What a rule of the usual kind makes of an entry. -/
theorem effect_of_revise (hproper : tree.Proper) (h : tree.Opens out loc)
    (hstars : Glob.hasTwoStars r.target = false) {name : Text} {free : Bool} {entry : Option Entry}
    (hrevise : r.revise out name free (tree.under loc name) = some entry) :
    entry = r.effect name (tree.under loc name) := by
  unfold effect
  rw [hstars]
  unfold revise at hrevise
  split at hrevise
  · rename_i hmeets
    have hconcerns : r.concerns name = true := by
      simp only [meets, Bool.and_eq_true] at hmeets
      exact hmeets.1
    split at hrevise
    · rw [hconcerns, hrevise]
      rfl
    · cases hrevise
  · rename_i hmeets
    cases hrevise
    split
    · rename_i hconcerns
      have hconcerns : r.concerns name = true := by simpa using hconcerns
      -- a glob has passed over what is not there
      cases hp : Wildcard.isPattern r.target with
      | false => simp [meets, hconcerns, hp] at hmeets
      | true =>
        cases hunder : tree.under loc name with
        | none =>
          cases haction : r.action with
          | create =>
            rw [not_isPattern_of_create haction] at hp
            cases hp
          | amend placement anchor => simp [rewrite, haction, amendEntry]
        | some old => exact absurd (meets_of_there hproper h hp hconcerns hunder) hmeets
    · rfl

/-- Unless two stars stand side by side in its target, a rule selects entries of the directory by their names. -/
theorem selectsIn_of_isComponent (hproper : tree.Proper) (hr : r.isComponent = true)
    (hstars : Glob.hasTwoStars r.target = false) : r.SelectsIn tree loc := by
  unfold SelectsIn
  split
  · rename_i hp
    refine ⟨Glob.isSingle_iff.mpr ⟨hp, hstars, not_mem_of_isComponent hr hp⟩, fun name _ hsome => ?_⟩
    have hnames := hproper.areNames (Option.isSome_iff_ne_none.mp hsome)
    exact (hnames name (by simp)).1
  · rename_i hp
    exact isName_of_isComponent hr (by simpa using hp)

/-- A glob with two stars finds no files. -/
theorem eq_of_hasTwoStars (hproper : tree.Proper) (h : tree.Opens out loc) (hr : r.isComponent = true)
    (hstars : Glob.hasTwoStars r.target = true) (hok : r.apply tree out = (tree', .ok outcomes)) : tree' = tree := by
  have hp := Glob.isPattern_of_hasTwoStars hstars
  cases haction : r.action with
  | create =>
    rw [not_isPattern_of_create haction] at hp
    cases hp
  | amend placement anchor =>
    cases htargets : r.targets tree out with
    | error fault => simp [apply, haction, htargets] at hok
    | ok paths =>
      have hnone : paths = [] := by
        rw [targets, if_pos hp] at htargets
        exact Glob.files_of_hasTwoStars hproper h hstars (not_mem_of_isComponent hr hp) htargets
      rw [hnone] at htargets
      rw [apply_of_targets_nil haction htargets] at hok
      cases hok
      rfl

/-- **In an open directory a rule that succeeds has its effect on every entry**, and on nothing outside. -/
theorem apply_effect_of_opens (hproper : tree.Proper) (h : tree.Opens out loc) (hr : r.isComponent = true)
    (hok : r.apply tree out = (tree', .ok outcomes)) :
    FileTree.SameOutside loc tree tree' ∧
      ∀ name, tree'.under loc name = r.effect name (tree.under loc name) := by
  cases hstars : Glob.hasTwoStars r.target with
  | false =>
    obtain ⟨hsame, hrevise, -⟩ := apply_ok_of_selectsIn h (selectsIn_of_isComponent hproper hr hstars) hok
    exact ⟨hsame, fun name => effect_of_revise hproper h hstars (hrevise name)⟩
  | true =>
    rw [eq_of_hasTwoStars hproper h hr hstars hok]
    refine ⟨.refl _ _, fun name => ?_⟩
    simp [effect, hstars]

/-! ## Where no directory is open -/

/-- No rule succeeds in a directory whose path is too long. -/
theorem apply_ne_ok_of_nameTooLong (hr : r.isComponent = true) (hnull : out.text.contains '\x00' = false)
    (hlong : tree.locate out = .error .nameTooLong) : r.apply tree out ≠ (tree', .ok outcomes) := by
  intro hok
  cases haction : r.action with
  | create => simp [apply, haction, create, FileTree.ensureDirectory_of_nameTooLong hnull hlong] at hok
  | amend placement anchor =>
    cases hp : Wildcard.isPattern r.target with
    | true =>
      have htargets : ∃ fault, r.targets tree out = .error fault := by
        rw [targets, if_pos hp]
        unfold Glob.files Glob.select
        cases hread : Glob.read r.target with
        | error fault => exact ⟨fault, rfl⟩
        | ok pattern => exact ⟨_, by rw [FileTree.isDirectory_of_nameTooLong hnull hlong]; rfl⟩
      obtain ⟨fault, htargets⟩ := htargets
      simp [apply, haction, htargets] at hok
    | false =>
      have hname := isName_of_isComponent hr hp
      obtain ⟨fault, hread, hfault⟩ :=
        FileTree.readBytes_child_of_nameTooLong hlong (Text.isName_iff.mp hname).2.1
      have hfile : r.amendFile placement anchor tree (out.child r.target) = (tree, .error fault) := by
        unfold amendFile FileTree.readText
        rw [hread]
        simp only [bind, Except.bind]
      rw [apply_of_targets haction (targets_plain hp hname tree) (List.cons_ne_nil _ _), amendFiles, hfile] at hok
      cases hok

section
variable (hclosed : ∀ loc, ¬ tree.Opens out loc)
include hclosed

/-- A glob finds nothing where no directory is open. -/
theorem targets_eq_nil_of_not_opens (hp : Wildcard.isPattern r.target = true) {paths : List Path}
    (htargets : r.targets tree out = .ok paths) : paths = [] := by
  rw [targets, if_pos hp] at htargets
  unfold Glob.files Glob.select at htargets
  cases hread : Glob.read r.target with
  | error fault => simp [hread, bind, Except.bind] at htargets
  | ok pattern =>
    cases hdirectory : tree.isDirectory out with
    | error fault => simp [hread, hdirectory, bind, Except.bind] at htargets
    | ok b =>
      cases b with
      | true =>
        obtain ⟨loc, hopens⟩ := FileTree.opens_of_isDirectory hdirectory
        exact absurd hopens (hclosed loc)
      | false =>
        simp only [hread, hdirectory, bind, Except.bind, Bool.false_eq_true, if_false] at htargets
        change Except.ok (List.mergeSort [] Path.le) = Except.ok paths at htargets
        rw [List.mergeSort_nil] at htargets
        exact (Except.ok.inj htargets).symm

/-- A file that cannot be there is not written. -/
theorem amendFile_of_not_opens (hname : r.target.isName = true) :
    (r.amendFile placement anchor tree (out.child r.target)).1 = tree := by
  unfold amendFile FileTree.readText
  cases hread : tree.readBytes (out.child r.target) with
  | ok bytes =>
    obtain ⟨loc, hopens⟩ := FileTree.opens_of_readBytes_child hname hread
    exact absurd hopens (hclosed loc)
  | error fault =>
    simp only [bind, Except.bind]
    split <;> first | rfl | contradiction

/-- A rule that amends files finds nothing where no directory is open. -/
theorem apply_of_not_opens (hr : r.isComponent = true) (haction : r.action = .amend placement anchor)
    (hok : r.apply tree out = (tree', .ok outcomes)) : tree' = tree := by
  cases hp : Wildcard.isPattern r.target with
  | true =>
    cases htargets : r.targets tree out with
    | error fault => simp [apply, haction, htargets] at hok
    | ok paths =>
      rw [targets_eq_nil_of_not_opens hclosed hp htargets] at htargets
      rw [apply_of_targets_nil haction htargets] at hok
      cases hok
      rfl
  | false =>
    have hname := isName_of_isComponent hr hp
    have htree : (r.amendFile placement anchor tree (out.child r.target)).1 = tree :=
      amendFile_of_not_opens hclosed hname
    rw [apply_of_targets haction (targets_plain hp hname tree) (List.cons_ne_nil _ _), amendFiles] at hok
    cases hdone : r.amendFile placement anchor tree (out.child r.target) with
    | mk treeFile answer =>
    rw [hdone] at hok htree
    cases answer with
    | error fault => cases hok
    | ok outcome =>
      cases hok
      exact htree

/-- **Where no directory is open nothing is there**, if a rule succeeds. -/
theorem get?_of_not_opens (hproper : tree.Proper) (hdown : tree.LeadsDown out) (hr : r.isComponent = true)
    (hok : r.apply tree out = (tree', .ok outcomes)) (name : Text) :
    tree.get? (tree.place out ++ [name]) = none := by
  refine Decidable.byContradiction fun hsome => ?_
  have hdir := hproper.get?_of_below hsome (List.cons_ne_nil name [])
  rcases hproper.locate_of_place hdown hdir with hopens | ⟨hnull, hlong⟩
  · exact hclosed _ hopens
  · exact apply_ne_ok_of_nameTooLong hr hnull hlong hok

end

/-! ## At any path -/

/-- A rule that writes a file and succeeds makes the directory first, and then it goes on as in any directory. -/
theorem apply_create_ok (hproper : tree.Proper) (haction : r.action = .create)
    (hok : r.apply tree out = (tree', .ok outcomes)) :
    ∃ made loc, made.Proper ∧ FileTree.Grown (tree.way out) tree made ∧ made.Opens out loc ∧
      r.apply made out = (tree', .ok outcomes) := by
  cases hmake : tree.ensureDirectory out with
  | mk made answer =>
  cases answer with
  | error fault => simp [apply, haction, create, hmake] at hok
  | ok _ =>
    have hproper' := hproper.ensureDirectory out
    have hgrown := FileTree.ensureDirectory_grown tree out
    rw [hmake] at hproper' hgrown
    obtain ⟨loc, h⟩ := FileTree.opens_of_ensureDirectory hmake
    refine ⟨made, loc, hproper', hgrown, h, ?_⟩
    simp only [apply, haction, create, hmake] at hok
    simp only [apply, haction, create, FileTree.ensureDirectory_of_opens h]
    exact hok

/-- **A rule that succeeds has its effect on every entry of the directory**, be it there or made by the rule. -/
theorem apply_effect (hproper : tree.Proper) (hdown : tree.LeadsDown out)
    (hr : r.isComponent = true) (hok : r.apply tree out = (tree', .ok outcomes)) :
    tree'.workDir = tree.workDir ∧ tree'.LeadsDown out ∧
      ∀ name, tree'.get? (tree.place out ++ [name]) = r.effect name (tree.get? (tree.place out ++ [name])) := by
  by_cases hopen : ∃ loc, tree.Opens out loc
  · obtain ⟨loc, h⟩ := hopen
    obtain ⟨hsame, heffect⟩ := apply_effect_of_opens hproper h hr hok
    rw [← h.place]
    exact ⟨hsame.workDir, FileTree.leadsDown_of_opens (hsame.opens h), heffect⟩
  · have hclosed : ∀ loc, ¬ tree.Opens out loc := fun loc h => hopen ⟨loc, h⟩
    have hnone := get?_of_not_opens hclosed hproper hdown hr hok
    cases haction : r.action with
    | amend placement anchor =>
      rw [apply_of_not_opens hclosed hr haction hok]
      refine ⟨rfl, hdown, fun name => ?_⟩
      rw [hnone, effect_none haction]
    | create =>
      obtain ⟨made, loc, hproper', hgrown, h, happly⟩ := apply_create_ok hproper haction hok
      obtain ⟨hsame, heffect⟩ := apply_effect_of_opens hproper' h hr happly
      have hplace : loc = tree.place out := h.place.trans (FileTree.place_of_workDir hgrown.workDir out)
      have hmade : ∀ name, made.under loc name = tree.get? (tree.place out ++ [name]) := by
        intro name
        rw [hplace]
        rcases hgrown.get? (tree.place out ++ [name]) with hget | ⟨-, -, hmem⟩
        · exact hget
        · exact nomatch (hnone name).symm.trans (hdown.get?_of_mem_way hmem)
      refine ⟨hsame.workDir.trans hgrown.workDir, FileTree.leadsDown_of_opens (hsame.opens h), fun name => ?_⟩
      rw [← hmade, ← hplace]
      exact heffect name

end

end Rule

end FlowTypes
