import FlowTypes.Proofs.Fallible
import FlowTypes.Proofs.Patching.Interruption

/-!
# Faults that rules meet

Rules fail because the system refuses something or because a value makes no sense, and such a failure can be told to
the user. The one fault of another nature is a glob that starts with a slash (`Glob.nature_of_files_error`), and no rule
of the bindings has one (`Catalog.nature_of_apply_standard_error`).
-/

namespace FlowTypes

/-- All faults but one can be told. -/
@[simp] theorem FileFault.nature_ne_iff {fault : FileFault} : fault.nature ≠ .other ↔ fault ≠ .anchoredPattern := by
  cases fault <;> simp [nature]

theorem FileFault.OnWay.nature_ne {fault : FileFault} (h : fault.OnWay) : fault.nature ≠ .other := by
  cases h <;> simp

/-! ## Files -/

namespace FileTree

variable {tree : FileTree} {path : Path} {fault : FileFault}

theorem nature_of_readBytes_error (h : tree.readBytes path = .error fault) : fault.nature ≠ .other := by
  unfold readBytes at h
  split at h
  · cases h
    simp
  · split at h <;> cases h <;> simp

theorem nature_of_readText_error (h : tree.readText path = .error fault) : fault.nature ≠ .other := by
  unfold readText at h
  cases hread : tree.readBytes path with
  | error fault' =>
    rw [hread] at h
    cases h
    exact nature_of_readBytes_error hread
  | ok bytes =>
    rw [hread] at h
    obtain ⟨cause, rfl⟩ := textOf_error h
    simp

theorem nature_of_writeBytes_error {bytes : List UInt8} (h : tree.writeBytes path bytes = .error fault) :
    fault.nature ≠ .other := by
  unfold writeBytes at h
  split at h
  · cases h
    simp
  split at h
  · cases h
    simp
  · split at h
    · cases h
      simp
    · obtain ⟨-, rfl⟩ := putAt_eq_error h
      simp
    · split at h
      · obtain ⟨-, rfl⟩ := putAt_eq_error h
        simp
      · cases h
        simp
      · cases h
        simp

end FileTree

/-! ## Globs -/

namespace Glob

variable {tree : FileTree} {fault : FileFault}

/-- A glob that does not start with a slash is unreadable only for its stars. -/
theorem read_error {t : Text} (ht : t.head? ≠ some '/') (h : read t = .error fault) : fault = .misplacedStars := by
  simp only [read, if_neg ht, bind, Except.bind, pure, Except.pure] at h
  split at h
  · rename_i fault' hcomponents
    cases h
    obtain ⟨name, -, hfails⟩ := exists_of_mapM_error hcomponents
    unfold component at hfails
    split at hfails
    · cases hfails
    · split at hfails
      · cases hfails
        rfl
      · split at hfails <;> cases hfails
  · cases h

theorem nature_of_selectFrom_error {onlyDirectories : Bool} :
    ∀ {components : List Component} {path : Path},
      selectFrom tree onlyDirectories components path = .error fault → fault.nature ≠ .other
  | .exact name :: rest, path, h => by
    have hthere : ∀ there : Except FileFault Bool, (there = .error fault → fault.nature ≠ .other) →
        (there >>= fun there =>
          if there then selectFrom tree onlyDirectories rest (path.child name) else pure []) = .error fault →
          fault.nature ≠ .other := by
      intro there hfails hpaths
      cases there with
      | error fault' =>
        cases hpaths
        exact hfails rfl
      | ok found =>
        cases found with
        | true => exact nature_of_selectFrom_error hpaths
        | false => cases hpaths
    rw [selectFrom] at h
    split at h
    · exact hthere _ (fun e => by simp [FileTree.pathExists_error e]) h
    · exact hthere _ (fun e => by simp [FileTree.isDirectory_error e]) h
  | .names marks :: rest, path, h => by
    simp only [selectFrom, bind, Except.bind] at h
    split at h
    · rename_i fault' hselected
      cases h
      obtain ⟨c, -, hfails⟩ := exists_of_mapM_error hselected
      exact nature_of_selectFrom_error hfails
    · cases h
  | .directories :: rest, path, h => by
    simp only [selectFrom, bind, Except.bind] at h
    split at h
    · rename_i fault' hselected
      cases h
      obtain ⟨directory, -, hfails⟩ := exists_of_mapM_error hselected
      exact nature_of_selectFrom_error hfails
    · cases h

/-- **A glob that does not start with a slash fails for a reason that can be told.** -/
theorem nature_of_files_error {base : Path} {t : Text} (ht : t.head? ≠ some '/')
    (h : files tree base t = .error fault) : fault.nature ≠ .other := by
  simp only [files, select, bind, Except.bind] at h
  split at h
  · rename_i fault' hselect
    cases h
    split at hselect
    · rename_i fault' hread
      cases hselect
      simp [read_error ht hread]
    · split at hselect
      · rename_i fault' hdirectory
        cases hselect
        simp [FileTree.isDirectory_error hdirectory]
      · split at hselect
        · exact nature_of_selectFrom_error hselect
        · cases hselect
  · rename_i selected hselect
    rcases filterM_except (fun path => tree.isFile path) selected with ⟨path, -, e, he, hfails⟩ | ⟨-, hkept⟩
    · rw [hfails] at h
      cases h
      simp [FileTree.isFile_error he]
    · rw [hkept] at h
      cases h

end Glob

/-! ## Rules -/

namespace Rule

variable {r : Rule} {tree left : FileTree} {fault : FileFault}

theorem nature_of_amendFile_error {placement : Placement} {anchor : Anchor} {path : Path}
    (h : r.amendFile placement anchor tree path = (left, .error fault)) : fault.nature ≠ .other := by
  unfold amendFile at h
  split at h
  · cases h
  · rename_i fault' _ hread
    cases h
    exact FileTree.nature_of_readText_error hread
  · dsimp only at h
    split at h
    · cases h
    · split at h
      · cases h
      · rename_i hwrite
        cases h
        exact FileTree.nature_of_writeBytes_error hwrite

/-- **A rule whose target does not start with a slash fails for a reason that can be told.** -/
theorem nature_of_apply_error {out : Path} (hr : r.target.head? ≠ some '/')
    (h : r.apply tree out = (left, .error fault)) : fault.nature ≠ .other := by
  cases interrupted_of_apply h with
  | create action grown =>
    simp only [apply, action, create] at h
    split at h
    · rename_i hmake
      cases h
      exact (FileTree.ensureDirectory_error hmake).nature_ne
    · split at h
      · cases h
      · rename_i hwrite
        cases h
        exact FileTree.nature_of_writeBytes_error hwrite
  | search action targets left_eq =>
    unfold Rule.targets at targets
    split at targets
    · exact Glob.nature_of_files_error hr targets
    · cases targets
  | amend action passed path rest stops => exact nature_of_amendFile_error stops.fails

/-- No rule with a single target starts with a slash. -/
theorem head?_target_ne (hr : r.isSingle = true) : r.target.head? ≠ some '/' := by
  intro hhead
  have hslash : '/' ∈ r.target := List.mem_of_head? hhead
  unfold isSingle at hr
  split at hr
  · simp only [Bool.and_eq_true] at hr
    exact (Glob.isSingle_iff.mp hr.1).2.2 hslash
  · exact (Text.isName_iff.mp hr).1 hslash

end Rule

namespace Catalog

/-- **The catalog of the bindings fails for a reason that can be told**, if it fails. -/
theorem nature_of_apply_standard_error {tree left : FileTree} {out : Path} {fault : FileFault}
    (h : apply standard tree out = (left, .error fault)) : fault.nature ≠ .other := by
  obtain ⟨done, r, rest, before, outcomes, horder, -, hfails⟩ :=
    exists_done_of_applyEach_error (apply_eq_error_iff.mp h)
  have hr : r ∈ inOrder standard := horder ▸ List.mem_append_right _ List.mem_cons_self
  exact Rule.nature_of_apply_error (Rule.head?_target_ne (orderly_standard.single r hr)) hfails

end Catalog

end FlowTypes
