import FlowTypes.Proofs.Catalog.PhaseOrder
import FlowTypes.Proofs.Catalog.Rerun
import FlowTypes.Proofs.FileTree.Selection
import FlowTypes.Proofs.Patching.Writing
import Mathlib

/-!
# What a failure leaves

A catalog that fails has applied the rules before the one that failed, and of that one it has amended the files that
come before the file that failed (`Catalog.apply_interrupted`). Everything else is as it was, except that a rule that
writes a file may have made its directory.

The file that failed is untouched as well. This is not obvious, since several paths of a glob may lead to one file
(`sub/../a.js` for `a.js`): but a file that was amended by way of another path is a text that can be read and written, so
it would not have failed (`Rule.exists_amendFile_ok`).
-/

namespace FlowTypes

open FileTree (FilesOnly Grown)

namespace Rule

section
variable {r : Rule} {placement : Placement} {anchor : Anchor}

/-! ## One file -/

/-- An edit that fails leaves the files as they were. -/
theorem left_of_amendFile_error {tree left : FileTree} {path : Path} {fault : FileFault}
    (h : r.amendFile placement anchor tree path = (left, .error fault)) : left = tree := by
  unfold amendFile at h
  split at h
  · cases h
  · cases h
    rfl
  · dsimp only at h
    split at h
    · cases h
    · split at h
      · cases h
      · cases h
        rfl

/-- An edit leaves an entry as it is, or makes it a file that is the encoding of a text, if it is not locked. -/
theorem amendFile_get? {tree left : FileTree} {path : Path} {answer : Except FileFault Outcome}
    (h : r.amendFile placement anchor tree path = (left, answer)) (l : Location) :
    left.get? l = tree.get? l ∨
      tree.place path = l ∧ tree.locked.contains l = false ∧ ∃ t, left.get? l = some (.file (Utf8.encode t)) := by
  unfold amendFile at h
  split at h
  · cases h
    exact .inl rfl
  · cases h
    exact .inl rfl
  · dsimp only at h
    split at h
    · cases h
      exact .inl rfl
    · split at h
      · rename_i written hwrite
        cases h
        rw [(FileTree.writeBytes_eq_ok hwrite).2]
        split
        · rename_i hl
          exact .inr ⟨hl.symm, hl ▸ FileTree.free_of_writeBytes hwrite, _, rfl⟩
        · exact .inl rfl
      · cases h
        exact .inl rfl

/-- **An edit of the encoding of a text succeeds** if the file is not locked. -/
theorem exists_amendFile_ok {before tree : FileTree} {path : Path} {t : Text} (hfiles : FilesOnly before tree)
    (hfile : before.isFile path = .ok true) (hget : tree.get? (before.place path) = some (.file (Utf8.encode t)))
    (hfree : tree.locked.contains (before.place path) = false) :
    ∃ left outcome, r.amendFile placement anchor tree path = (left, .ok outcome) := by
  obtain ⟨htext, hlocate⟩ := FileTree.locate_of_isFile hfile
  have hlocate' : tree.locate path = .ok (before.place path) :=
    FileTree.locate_of_way hfiles.workDir hlocate fun l _ => (hfiles.directory l).mpr
  have hread : tree.readText path = .ok (Text.unifyLineEnds t) := by
    simp [FileTree.readText, FileTree.readBytes, FileTree.entryAt, FileTree.textOf, -List.contains_eq_mem, htext,
      hlocate', hget, Utf8.decode_encode, bind, Except.bind, pure, Except.pure]
  unfold amendFile
  rw [hread]
  dsimp only
  split
  · exact ⟨_, _, rfl⟩
  · simp [FileTree.writeText, FileTree.writeBytes, FileTree.putAt, -List.contains_eq_mem, htext, hlocate', hget, hfree]

/-! ## Files in a row -/

/-- Edits that fail have amended the files before one of them. -/
theorem exists_passed_of_amendFiles_error :
    ∀ {paths : List Path} {tree left : FileTree} {fault : FileFault},
      r.amendFiles placement anchor tree paths = (left, .error fault) →
        ∃ passed path rest outcomes, paths = passed ++ path :: rest ∧
          r.amendFiles placement anchor tree passed = (left, .ok outcomes) ∧
            r.amendFile placement anchor left path = (left, .error fault)
  | path :: rest, tree, left, fault, h => by
    rcases amendFiles_cons_error_iff.mp h with hfirst | ⟨treeFirst, outcome, hfirst, hrest⟩
    · obtain rfl := left_of_amendFile_error hfirst
      exact ⟨[], path, rest, [], rfl, rfl, hfirst⟩
    · obtain ⟨passed, path', rest', outcomes, rfl, hpassed, hfails⟩ := exists_passed_of_amendFiles_error hrest
      have hdone := amendFiles_cons_ok_iff.mpr ⟨treeFirst, outcome, outcomes, hfirst, hpassed, rfl⟩
      exact ⟨path :: passed, path', rest', outcome :: outcomes, rfl, hdone, hfails⟩

/-- Edits leave an entry as it is, or make it a file that is the encoding of a text, if it is not locked. -/
theorem amendFiles_get? :
    ∀ {paths : List Path} {tree left : FileTree} {outcomes : List Outcome},
      r.amendFiles placement anchor tree paths = (left, .ok outcomes) → ∀ l,
        left.get? l = tree.get? l ∨ (∃ p ∈ paths, tree.place p = l) ∧ tree.locked.contains l = false ∧
          ∃ t, left.get? l = some (.file (Utf8.encode t))
  | [], tree, left, outcomes, h, l => by
    cases h
    exact .inl rfl
  | path :: rest, tree, left, outcomes, h, l => by
    obtain ⟨treeFirst, outcome, more, hfirst, hrest, rfl⟩ := amendFiles_cons_ok_iff.mp h
    have hfiles := (amendFile_writes hfirst).1
    rcases amendFiles_get? hrest l with hsame | ⟨⟨p, hp, rfl⟩, hwritten⟩
    · rw [hsame]
      rcases amendFile_get? hfirst l with hkept | ⟨hl, hwritten⟩
      · exact .inl hkept
      · exact .inr ⟨⟨path, List.mem_cons_self, hl⟩, hwritten⟩
    · rw [hfiles.locked] at hwritten
      exact .inr ⟨⟨p, List.mem_cons_of_mem _ hp, (hfiles.place p).symm⟩, hwritten⟩

end

/-! ## One rule -/

/-- An edit has come to the file at a path and fails over it. `passed` are the paths before it. -/
structure StopsAt (r : Rule) (placement : Placement) (anchor : Anchor) (before : FileTree) (out : Path)
    (left : FileTree) (fault : FileFault) (passed : List Path) (path : Path) (rest : List Path) : Prop where
  targets : r.targets before out = .ok (passed ++ path :: rest)
  /-- All files before it are amended. -/
  amended : ∃ outcomes, r.amendFiles placement anchor before passed = (left, .ok outcomes)
  /-- The edit of this one fails. -/
  fails : r.amendFile placement anchor left path = (left, .error fault)
  /-- The files before it are those of the rule that are less. -/
  sorted : ∀ p ∈ passed ++ path :: rest, p ∈ passed ↔ Path.le p path = true ∧ p ≠ path
  /-- There are none before it if the rule is about one file. -/
  plain : Wildcard.isPattern r.target = false → passed = []
  /-- It is as it was. -/
  failing : left.get? (before.place path) = before.get? (before.place path)
  /-- So is everything else but the files before it. -/
  others : ∀ l, (∀ p ∈ passed, before.place p ≠ l) → left.get? l = before.get? l

/-- The ways in which a rule fails, and what it leaves. -/
inductive Interrupted (r : Rule) (before : FileTree) (out : Path) (left : FileTree) (fault : FileFault) : Prop
  /-- The file cannot be written, or its directory cannot be made; of this some may have been made. -/
  | create (action : r.action = .create) (grown : Grown (before.way out) before left)
  /-- The files cannot be searched for. -/
  | search {placement : Placement} {anchor : Anchor} (action : r.action = .amend placement anchor)
      (targets : r.targets before out = .error fault) (left_eq : left = before)
  /-- One of the files cannot be amended. -/
  | amend {placement : Placement} {anchor : Anchor} (action : r.action = .amend placement anchor)
      (passed : List Path) (path : Path) (rest : List Path)
      (stops : r.StopsAt placement anchor before out left fault passed path rest)

section
variable {r : Rule} {placement : Placement} {anchor : Anchor} {before left : FileTree} {out : Path}
  {fault : FileFault}

/-- A rule about one file has come to its target if it has come to any. -/
theorem passed_eq_nil {passed rest : List Path} {path : Path} (hp : Wildcard.isPattern r.target = false)
    (h : r.targets before out = .ok (passed ++ path :: rest)) : passed = [] ∧ rest = [] := by
  unfold targets at h
  rw [hp] at h
  have hlength := congrArg List.length (Except.ok.inj h)
  simp only [List.length_append, List.length_cons, List.length_nil] at hlength
  exact ⟨List.eq_nil_of_length_eq_zero (by omega), List.eq_nil_of_length_eq_zero (by omega)⟩

/-- The paths before one of the targets are those that are less. -/
theorem mem_passed_iff {passed rest : List Path} {path : Path}
    (h : r.targets before out = .ok (passed ++ path :: rest)) :
    ∀ p ∈ passed ++ path :: rest, p ∈ passed ↔ Path.le p path = true ∧ p ≠ path := by
  intro p hmem
  cases hp : Wildcard.isPattern r.target with
  | true =>
    rw [targets, if_pos hp] at h
    exact Glob.mem_before_iff h hmem
  | false =>
    obtain ⟨rfl, rfl⟩ := passed_eq_nil hp h
    obtain rfl : p = path := List.mem_singleton.mp hmem
    simp

/-- The file that an edit fails over is as it was before the edits of others. -/
theorem get?_of_amendFile_error {passed rest : List Path} {path : Path} {outcomes : List Outcome}
    (htargets : r.targets before out = .ok (passed ++ path :: rest))
    (hpassed : r.amendFiles placement anchor before passed = (left, .ok outcomes))
    (hfails : r.amendFile placement anchor left path = (left, .error fault)) :
    left.get? (before.place path) = before.get? (before.place path) := by
  cases hp : Wildcard.isPattern r.target with
  | false =>
    obtain ⟨rfl, -⟩ := passed_eq_nil hp htargets
    cases hpassed
    rfl
  | true =>
    rw [targets, if_pos hp] at htargets
    have hfile := Glob.isFile_of_mem_files htargets (List.mem_append_right _ List.mem_cons_self)
    have hfiles := (amendFiles_writes hpassed).1
    rcases amendFiles_get? hpassed (before.place path) with hsame | ⟨-, hfree, t, ht⟩
    · exact hsame
    · -- it would be the encoding of a text that is not locked, and the edit would succeed
      obtain ⟨left', outcome, hok⟩ := @exists_amendFile_ok r placement anchor _ _ _ _ hfiles hfile ht
        (hfiles.locked ▸ hfree)
      rw [hok] at hfails
      cases hfails

theorem exists_stopsAt {paths : List Path} (htargets : r.targets before out = .ok paths)
    (h : r.amendFiles placement anchor before paths = (left, .error fault)) :
    ∃ passed path rest, r.StopsAt placement anchor before out left fault passed path rest := by
  obtain ⟨passed, path, rest, outcomes, rfl, hpassed, hfails⟩ := exists_passed_of_amendFiles_error h
  refine ⟨passed, path, rest, ?_⟩
  constructor
  case targets => exact htargets
  case amended => exact ⟨outcomes, hpassed⟩
  case fails => exact hfails
  case sorted => exact mem_passed_iff htargets
  case plain => exact fun hp => (passed_eq_nil hp htargets).1
  case failing => exact get?_of_amendFile_error htargets hpassed hfails
  case others =>
    intro l hl
    rcases amendFiles_get? hpassed l with hsame | ⟨⟨p, hp, hplace⟩, -⟩
    · exact hsame
    · exact absurd hplace (hl p hp)

/-- **A rule that fails has amended the files before one of them**, and nothing else. -/
theorem interrupted_of_apply (h : r.apply before out = (left, .error fault)) :
    r.Interrupted before out left fault := by
  unfold apply at h
  cases haction : r.action with
  | create =>
    have hgrown := FileTree.ensureDirectory_grown before out
    simp only [haction, create] at h
    split at h
    · rename_i made fault' hmake
      rw [hmake] at hgrown
      cases h
      exact .create haction hgrown
    · rename_i made hmake
      rw [hmake] at hgrown
      split at h
      · cases h
      · cases h
        exact .create haction hgrown
  | amend placement anchor =>
    simp only [haction] at h
    split at h
    · rename_i fault' htargets
      cases h
      exact .search haction htargets rfl
    · cases h
    · rename_i paths _ htargets
      split at h
      · rename_i tree' fault' hfiles
        cases h
        obtain ⟨passed, path, rest, hstops⟩ := exists_stopsAt htargets hfiles
        exact .amend haction passed path rest hstops
      · cases h

end

end Rule

/-! ## A catalog -/

namespace Catalog

/-- Rules that fail have been applied up to one of them. -/
theorem exists_done_of_applyEach_error {out : Path} :
    ∀ {rules : List Rule} {tree left : FileTree} {fault : FileFault},
      applyEach tree out rules = (left, .error fault) →
        ∃ done r rest before outcomes, rules = done ++ r :: rest ∧
          applyEach tree out done = (before, .ok outcomes) ∧ r.apply before out = (left, .error fault)
  | r :: rest, tree, left, fault, h => by
    rcases applyEach_cons_error_iff.mp h with hfirst | ⟨treeFirst, first, hfirst, hrest⟩
    · exact ⟨[], r, rest, tree, [], rfl, rfl, hfirst⟩
    · obtain ⟨done, r', rest', before, outcomes, rfl, hdone, hfails⟩ := exists_done_of_applyEach_error hrest
      have hdone' := applyEach_cons_ok_iff.mpr ⟨treeFirst, first, outcomes, hfirst, hdone, rfl⟩
      exact ⟨r :: done, r', rest', before, first ++ outcomes, rfl, hdone', hfails⟩

/-- **A catalog that fails leaves what the rules before the failing one made, and what that one has amended so
far.** -/
theorem apply_interrupted {rules : List Rule} {tree left : FileTree} {out : Path} {fault : FileFault}
    (h : apply rules tree out = (left, .error fault)) :
    ∃ done r rest before outcomes, InPhaseOrder rules (done ++ r :: rest) ∧
      applyEach tree out done = (before, .ok outcomes) ∧ r.apply before out = (left, .error fault) ∧
        r.Interrupted before out left fault := by
  obtain ⟨done, r, rest, before, outcomes, horder, hdone, hfails⟩ :=
    exists_done_of_applyEach_error (apply_eq_error_iff.mp h)
  exact ⟨done, r, rest, before, outcomes, inPhaseOrder_iff.mpr horder.symm, hdone, hfails,
    Rule.interrupted_of_apply hfails⟩

/-- Two texts, and a file between them that is none. -/
def mixedTree : FileTree :=
  ⟨[(["out"], .directory), (["out", "a.js"], .file (Utf8.encode "class A")), (["out", "b.js"], .file [0xff]),
    (["out", "c.js"], .file (Utf8.encode "class C"))], [], [], []⟩

/-- A rule for all files, and one for the last of them that comes first. -/
def mixedRules : List Rule :=
  [⟨"all", 20, "*.js", "!", .amend .after (.literal "class"), by decide⟩,
    ⟨"last", 10, "c.js", "declare ", .amend .before (.literal "class"), by decide⟩]

/-- The first file is amended by the rule for all, the last one by its own rule only. -/
theorem apply_interrupted_mixedTree : ∃ left fault, apply mixedRules mixedTree ⟨0, ["out"]⟩ = (left, .error fault) ∧
    left.get? ["out", "a.js"] = some (.file (Utf8.encode "class! A")) ∧
    left.get? ["out", "c.js"] = some (.file (Utf8.encode "declare class C")) ∧
      ∃ done r rest before outcomes, InPhaseOrder mixedRules (done ++ r :: rest) ∧
        applyEach mixedTree ⟨0, ["out"]⟩ done = (before, .ok outcomes) ∧
          r.apply before ⟨0, ["out"]⟩ = (left, .error fault) ∧ r.Interrupted before ⟨0, ["out"]⟩ left fault := by
  have hfails : (apply mixedRules mixedTree ⟨0, ["out"]⟩).2.toOption.isNone = true := by cbv
  have hfirst : (apply mixedRules mixedTree ⟨0, ["out"]⟩).1.get? ["out", "a.js"] =
      some (.file (Utf8.encode "class! A")) := by cbv
  have hlast : (apply mixedRules mixedTree ⟨0, ["out"]⟩).1.get? ["out", "c.js"] =
      some (.file (Utf8.encode "declare class C")) := by cbv
  cases happly : apply mixedRules mixedTree ⟨0, ["out"]⟩ with
  | mk left answer =>
  rw [happly] at hfails hfirst hlast
  cases answer with
  | ok report => cases hfails
  | error fault => exact ⟨left, fault, rfl, hfirst, hlast, apply_interrupted happly⟩

end Catalog

end FlowTypes
