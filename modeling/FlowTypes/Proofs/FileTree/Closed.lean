import FlowTypes.Proofs.FileTree.PathText
import FlowTypes.Proofs.FileTree.Reading
import FlowTypes.Proofs.FileTree.Under

/-!
# Closed paths

No path leads on from one that is not open (`FileTree.opens_of_locate_child`), so nothing is read below it. A path that
the system finds too long is refused by all operations, and so are the paths below it.
-/

namespace FlowTypes

namespace FileTree

variable {tree : FileTree} {out : Path} {name : Text}

/-- A path that leads somewhere lies in an open directory. -/
theorem opens_of_locate_child (hnil : name ≠ []) (hnull : (out.child name).text.contains '\x00' = false)
    {target : Location} (hlocate : tree.locate (out.child name) = .ok target) : ∃ loc, tree.Opens out loc := by
  unfold locate at hlocate
  split at hlocate
  · cases hlocate
  · rename_i hlong
    have hwalk : tree.walk (tree.start out) (out.parts ++ [name]) = .ok target := hlocate
    rw [walk_append] at hwalk
    cases hfront : tree.walk (tree.start out) out.parts with
    | error cause => rw [hfront] at hwalk; cases hwalk
    | ok loc =>
      rw [hfront] at hwalk
      change tree.walk loc [name] = .ok target at hwalk
      unfold walk at hwalk
      cases hstep : tree.step loc name with
      | error cause => rw [hstep] at hwalk; cases hwalk
      | ok further =>
        have hle := out.length_text_le_child hnil
        refine ⟨loc, Path.null_text_child hnull, ?_, (step_eq_ok hstep).2⟩
        rw [locate, if_neg (by omega)]
        exact hfront

/-- A file is read only in an open directory. -/
theorem opens_of_readBytes_child (hname : name.isName = true) {bytes : List UInt8}
    (h : tree.readBytes (out.child name) = .ok bytes) : ∃ loc, tree.Opens out loc := by
  obtain ⟨hnull, hlocate, -⟩ := readBytes_eq_ok_iff.mp h
  exact opens_of_locate_child (Text.isName_iff.mp hname).2.1 hnull hlocate

theorem opens_of_readText_child (hname : name.isName = true) {t : Text}
    (h : tree.readText (out.child name) = .ok t) : ∃ loc, tree.Opens out loc := by
  obtain ⟨bytes, hread, -⟩ := readText_eq_ok h
  exact opens_of_readBytes_child hname hread

/-- A text that can be read is that of a file within reach. -/
theorem under_of_readText_child {loc : Location} (hopens : tree.Opens out loc) (hname : name ≠ ['.', '.']) {t : Text}
    (h : tree.readText (out.child name) = .ok t) :
    out.reaches name = true ∧ ∃ bytes, tree.under loc name = some (.file bytes) ∧ textOf bytes = .ok t := by
  obtain ⟨bytes, hread, htext⟩ := readText_eq_ok h
  obtain ⟨-, hlocate, hget⟩ := readBytes_eq_ok_iff.mp hread
  cases hreach : out.reaches name with
  | false =>
    obtain ⟨fault, hfault, -⟩ := readBytes_of_not_reaches hopens hname hreach
    rw [hfault] at hread
    cases hread
  | true =>
    rw [Except.ok.inj (hlocate.symm.trans (locate_of_reaches hopens hname hreach))] at hget
    exact ⟨rfl, bytes, hget, htext⟩

/-- The text of a file within reach can be read. -/
theorem readText_child {loc : Location} (hopens : tree.Opens out loc) (hname : name ≠ ['.', '.'])
    (hreach : out.reaches name = true) {bytes : List UInt8} {t : Text}
    (hunder : tree.under loc name = some (.file bytes)) (ht : textOf bytes = .ok t) : tree.readText (out.child name) = .ok t := by
  unfold readText
  rw [readBytes_child hopens hname hreach, ← under, hunder]
  exact ht

/-! ## Paths that are too long -/

theorem isDirectory_of_nameTooLong (hnull : out.text.contains '\x00' = false)
    (hlong : tree.locate out = .error .nameTooLong) :
    tree.isDirectory out = .error (.refused .nameTooLong out.text) := by
  simp [isDirectory, probe, entryAt, -List.contains_eq_mem, hnull, hlong, bind, Except.bind, meansAbsent]

theorem ensureDirectory_of_nameTooLong (hnull : out.text.contains '\x00' = false)
    (hlong : tree.locate out = .error .nameTooLong) :
    tree.ensureDirectory out = (tree, .error (.refused .nameTooLong out.text)) := by
  have hmake : tree.makeDirectory out = .error (.refused .nameTooLong out.text) := by
    simp [makeDirectory, -List.contains_eq_mem, hnull, hlong]
  unfold ensureDirectory ensureDirectoryUpTo
  rw [hmake]
  simp [orPresent, isDirectory_of_nameTooLong hnull hlong]

theorem readBytes_child_of_nameTooLong (hlong : tree.locate out = .error .nameTooLong) (hname : name ≠ []) :
    ∃ fault, tree.readBytes (out.child name) = .error fault ∧ ∀ path, fault ≠ .refused .noSuchEntry path := by
  have hlocate : tree.locate (out.child name) = .error .nameTooLong := by
    have hle := out.length_text_le_child hname
    unfold locate at hlong ⊢
    by_cases hlimit : pathLimit ≤ (Utf8.encode (out.child name).text).length
    · rw [if_pos hlimit]
    · rw [if_neg (by omega)] at hlong
      rw [if_neg hlimit]
      change tree.walk (tree.start out) (out.parts ++ [name]) = _
      change tree.walk (tree.start out) out.parts = _ at hlong
      rw [walk_append, hlong]
      rfl
  unfold readBytes
  split
  · exact ⟨_, rfl, nofun⟩
  · refine ⟨.refused .nameTooLong (out.child name).text, ?_, nofun⟩
    simp [entryAt, hlocate, bind, Except.bind]

end FileTree

end FlowTypes
