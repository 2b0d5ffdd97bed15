import FlowTypes.Proofs.FileTree.Walk
import FlowTypes.Proofs.Text.Encoding

/-!
# Reading files

A file is read where its path leads, if the way there is open (`readBytes_eq_ok_iff`). What can be read is a file
(`isFile_iff_readBytes`), and what is refused because nothing is there is none.
-/

namespace FlowTypes.FileTree

variable {tree : FileTree} {path : Path}

/-- What is read is the file where the path leads, and the way there is open. -/
theorem readBytes_eq_ok_iff {bytes : List UInt8} :
    tree.readBytes path = .ok bytes ↔ path.text.contains '\x00' = false ∧
      tree.locate path = .ok (tree.place path) ∧ tree.get? (tree.place path) = some (.file bytes) := by
  constructor
  · intro h
    unfold readBytes at h
    split at h
    · cases h
    · rename_i htext
      split at h
      · rename_i old hentry
        cases h
        obtain ⟨loc, hlocate, hget⟩ := entryAt_eq_ok hentry
        obtain rfl := (locate_eq_ok hlocate).1
        exact ⟨Bool.eq_false_iff.mpr htext, hlocate, hget⟩
      · cases h
      · cases h
  · rintro ⟨htext, hlocate, hget⟩
    simp [readBytes, entryAt, -List.contains_eq_mem, htext, hlocate, hget, bind, Except.bind, pure, Except.pure]

/-- What is a file can be read, as bytes at least. -/
theorem isFile_iff_readBytes : tree.isFile path = .ok true ↔ ∃ bytes, tree.readBytes path = .ok bytes := by
  unfold isFile probe readBytes
  cases path.text.contains '\x00' with
  | true => simp [bind, Except.bind, pure, Except.pure]
  | false =>
    cases tree.entryAt path with
    | ok entry => cases entry <;> simp [bind, Except.bind, pure, Except.pure]
    | error cause => cases cause <;> simp [meansAbsent, bind, Except.bind, pure, Except.pure]

theorem readText_eq_ok {t : Text} (h : tree.readText path = .ok t) :
    ∃ bytes, tree.readBytes path = .ok bytes ∧ textOf bytes = .ok t := by
  unfold readText at h
  cases hread : tree.readBytes path with
  | error fault => rw [hread] at h; cases h
  | ok bytes =>
    rw [hread] at h
    exact ⟨bytes, rfl, h⟩

theorem isFile_of_readText {t : Text} (h : tree.readText path = .ok t) : tree.isFile path = .ok true := by
  obtain ⟨bytes, hread, -⟩ := readText_eq_ok h
  exact isFile_iff_readBytes.mpr ⟨bytes, hread⟩

/-- What is not there is no file. -/
theorem isFile_of_noSuchEntry {p : Text} (h : tree.readText path = .error (.refused .noSuchEntry p)) :
    tree.isFile path = .ok false := by
  unfold readText at h
  cases hread : tree.readBytes path with
  | ok bytes =>
    rw [hread] at h
    obtain ⟨fault, hfault⟩ := textOf_error h
    cases hfault
  | error fault =>
    rw [hread] at h
    cases h
    unfold readBytes at hread
    split at hread
    · cases hread
    · rename_i htext
      split at hread
      · cases hread
      · cases hread
      · rename_i cause hentry
        cases hread
        simp [isFile, probe, -List.contains_eq_mem, htext, hentry, meansAbsent, bind, Except.bind, pure, Except.pure]

/-- A file is where its path leads. -/
theorem locate_of_isFile (h : tree.isFile path = .ok true) :
    path.text.contains '\x00' = false ∧ tree.locate path = .ok (tree.place path) := by
  obtain ⟨bytes, hread⟩ := isFile_iff_readBytes.mp h
  obtain ⟨htext, hlocate, -⟩ := readBytes_eq_ok_iff.mp hread
  exact ⟨htext, hlocate⟩

end FlowTypes.FileTree
