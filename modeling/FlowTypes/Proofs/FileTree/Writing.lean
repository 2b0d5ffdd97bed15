import FlowTypes.Proofs.FileTree.Reading

/-!
# Trees that differ in files only

Generators and rules write files and do nothing else once their directory is there. What this leaves alone is
`FilesOnly`: the directories stay, no entry goes away, and a file comes only into a directory. So nothing ever comes
below a location that is no directory (`FilesOnly.below`).
-/

namespace FlowTypes.FileTree

/-- The trees have the same directories, no entry is gone, and every new one is a file in a directory. -/
structure FilesOnly (tree tree' : FileTree) : Prop extends SameSetting tree tree' where
  directory : ∀ l, tree'.get? l = some .directory ↔ tree.get? l = some .directory
  present : ∀ l, tree.get? l ≠ none → tree'.get? l ≠ none
  appears : ∀ l, tree.get? l = none → tree'.get? l ≠ none → tree.get? l.dropLast = some .directory

namespace FilesOnly

variable {tree tree' tree'' : FileTree}

theorem refl (tree : FileTree) : FilesOnly tree tree :=
  ⟨.refl tree, fun _ => Iff.rfl, fun _ h => h, fun _ h h' => absurd h h'⟩

theorem trans (h : FilesOnly tree tree') (h' : FilesOnly tree' tree'') : FilesOnly tree tree'' where
  toSameSetting := h.toSameSetting.trans h'.toSameSetting
  directory l := (h'.directory l).trans (h.directory l)
  present l hl := h'.present l (h.present l hl)
  appears l hl hl' := by
    by_cases hmid : tree'.get? l = none
    · exact (h.directory _).mp (h'.appears l hmid hl')
    · exact h.appears l hl hmid

theorem keepsDirectories (h : FilesOnly tree tree') : tree.KeepsDirectories tree' :=
  ⟨h.workDir, fun l => (h.directory l).mpr⟩

theorem place (h : FilesOnly tree tree') (path : Path) : tree'.place path = tree.place path :=
  place_of_workDir h.workDir path

/-- **Nothing comes below a location that is no directory**, if nothing was there. -/
theorem below (h : FilesOnly tree tree') {dir l : Location} (hdir : tree.get? dir ≠ some .directory)
    (hempty : ∀ l, dir <+: l → l ≠ dir → tree.get? l = none) (hl : dir <+: l) (hne : l ≠ dir) :
    tree'.get? l = none := by
  refine Decidable.byContradiction fun hsome => ?_
  have hparent := h.appears l (hempty l hl hne) hsome
  obtain ⟨s, rfl⟩ := hl
  have hs : s ≠ [] := fun e => hne (by rw [e, List.append_nil])
  rw [List.dropLast_append_of_ne_nil hs] at hparent
  by_cases hlast : s.dropLast = []
  · rw [hlast, List.append_nil] at hparent
    exact hdir hparent
  · have hnone := hempty (dir ++ s.dropLast) (List.prefix_append dir _) (by simpa using hlast)
    rw [hnone] at hparent
    cases hparent

/-- A file that can be read stays one, whatever is in it then. -/
theorem exists_readBytes (h : FilesOnly tree tree') {path : Path} {bytes : List UInt8}
    (hread : tree.readBytes path = .ok bytes) : ∃ bytes', tree'.readBytes path = .ok bytes' := by
  obtain ⟨htext, hlocate, hget⟩ := readBytes_eq_ok_iff.mp hread
  have hlocate' : tree'.locate path = .ok (tree.place path) :=
    locate_of_way h.workDir hlocate fun l _ => (h.directory l).mpr
  obtain ⟨entry, hentry⟩ : ∃ entry, tree'.get? (tree.place path) = some entry :=
    Option.ne_none_iff_exists'.mp (h.present _ (by rw [hget]; nofun))
  cases entry with
  | directory =>
    have hdir := (h.directory _).mp hentry
    rw [hget] at hdir
    cases hdir
  | file bytes' => exact ⟨bytes', readBytes_eq_ok_iff.mpr ⟨htext, (h.place path).symm ▸ hlocate', by rwa [h.place]⟩⟩

theorem isFile (h : FilesOnly tree tree') {path : Path} (hfile : tree.isFile path = .ok true) :
    tree'.isFile path = .ok true := by
  obtain ⟨bytes, hread⟩ := isFile_iff_readBytes.mp hfile
  exact isFile_iff_readBytes.mpr (h.exists_readBytes hread)

/-- A text that can be read where nothing was written could be read before. -/
theorem readText_of_get? (h : FilesOnly tree tree') {path : Path}
    (hget : tree'.get? (tree.place path) = tree.get? (tree.place path)) {t : Text}
    (hread : tree'.readText path = .ok t) : tree.readText path = .ok t := by
  obtain ⟨bytes, hbytes, ht⟩ := readText_eq_ok hread
  obtain ⟨htext, hlocate, hfile⟩ := readBytes_eq_ok_iff.mp hbytes
  rw [h.place] at hlocate hfile
  have hlocate' : tree.locate path = .ok (tree.place path) :=
    locate_of_way h.workDir.symm hlocate fun l _ => (h.directory l).mp
  have hbytes' : tree.readBytes path = .ok bytes := readBytes_eq_ok_iff.mpr ⟨htext, hlocate', hget ▸ hfile⟩
  rw [readText, hbytes']
  exact ht

end FilesOnly

/-- **A file that is written is the only change.** -/
theorem writeBytes_eq_ok {tree tree' : FileTree} {path : Path} {bytes : List UInt8}
    (h : tree.writeBytes path bytes = .ok tree') : FilesOnly tree tree' ∧
      ∀ l, tree'.get? l = if l = tree.place path then some (.file bytes) else tree.get? l := by
  unfold writeBytes at h
  split at h
  · cases h
  split at h
  · cases h
  · rename_i loc hlocate
    rw [← (locate_eq_ok hlocate).1]
    have hput : tree.get? loc ≠ some .directory → (tree.get? loc = none → tree.get? loc.dropLast = some .directory) →
        FilesOnly tree (tree.put loc (.file bytes)) ∧
          ∀ l, (tree.put loc (.file bytes)).get? l = if l = loc then some (.file bytes) else tree.get? l := by
      intro hdir hparent
      have hget := fun l => get?_put tree loc l (.file bytes) (ne_nil_of_get?_ne hdir)
      refine ⟨⟨sameSetting_put tree loc _, fun l => ?_, fun l hl => ?_, fun l hl hl' => ?_⟩, hget⟩
      · rw [hget]
        split
        · rename_i e
          exact ⟨nofun, fun hl => absurd (e ▸ hl) hdir⟩
        · exact Iff.rfl
      · rw [hget]
        split
        · nofun
        · exact hl
      · rw [hget] at hl'
        split at hl'
        · rename_i e
          subst e
          exact hparent hl
        · exact absurd hl hl'
    split at h
    · cases h
    · rename_i old hold
      obtain ⟨-, rfl⟩ := putAt_eq_ok_iff.mp h
      exact hput (by rw [hold]; nofun) (by rw [hold]; nofun)
    · rename_i hnone
      split at h
      · rename_i hparent
        obtain ⟨-, rfl⟩ := putAt_eq_ok_iff.mp h
        exact hput (by rw [hnone]; nofun) fun _ => hparent
      · cases h
      · cases h

/-- A file that is written was not locked. -/
theorem free_of_writeBytes {tree tree' : FileTree} {path : Path} {bytes : List UInt8}
    (h : tree.writeBytes path bytes = .ok tree') : tree.locked.contains (tree.place path) = false := by
  unfold writeBytes at h
  split at h
  · cases h
  split at h
  · cases h
  · rename_i loc hlocate
    rw [← (locate_eq_ok hlocate).1]
    split at h
    · cases h
    · exact (putAt_eq_ok_iff.mp h).1
    · split at h
      · exact (putAt_eq_ok_iff.mp h).1
      · cases h
      · cases h

end FlowTypes.FileTree
