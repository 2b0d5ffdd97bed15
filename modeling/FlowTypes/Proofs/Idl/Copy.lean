import FlowTypes.Idl
import FlowTypes.Proofs.FileTree.Child

/-!
# The directory of a copy

The sanitized definitions get a directory of their own. Nothing is there or below before (`get?_freshDirectory`), and
nothing is locked (`free_freshDirectory`): the directories with different numbers differ, and there is one more number
to try than there are locations that are taken. So nothing that was there before is lost when the directory goes away
again.
-/

namespace FlowTypes.Idl

/-! ## Numbers -/

/-- Different numbers give different directories. -/
theorem directoryAt_injective {tree : FileTree} {m n : Nat} (h : directoryAt tree m = directoryAt tree n) :
    m = n := by
  have hname := List.append_cancel_left h
  simp only [List.cons.injEq, and_true, List.append_assoc] at hname
  have hdigits := List.append_cancel_left hname
  have hvalue : ∀ k : Nat, Nat.ofDigitChars 10
      (List.replicate (8 - (Text.ofNat k).length) '0' ++ Text.ofNat k) 0 = k := by
    intro k
    rw [Nat.ofDigitChars_append, Nat.ofDigitChars_replicate_zero, Nat.mul_zero]
    exact Nat.ofDigitChars_ten_toDigits
  rw [← hvalue m, hdigits, hvalue n]

theorem length_directoryAt (tree : FileTree) (n : Nat) :
    (directoryAt tree n).length = tree.tempDir.length + 1 := by
  simp [directoryAt]

/-- A location is in the directory of one number at most. -/
theorem eq_of_directoryAt_le {tree : FileTree} {m n : Nat} {loc : Location}
    (hm : directoryAt tree m <+: loc) (hn : directoryAt tree n <+: loc) : m = n := by
  have hlength : (directoryAt tree m).length = (directoryAt tree n).length := by
    rw [length_directoryAt, length_directoryAt]
  have hle := List.prefix_of_prefix_length_le hm hn (Nat.le_of_eq hlength)
  exact directoryAt_injective (hle.eq_of_length hlength)

/-- **Of more numbers than locations, one is not used.** -/
theorem exists_unused {tree : FileTree} :
    ∀ {locs : List Location} {numbers : List Nat}, numbers.Nodup → locs.length < numbers.length →
      ∃ n ∈ numbers, ∀ loc ∈ locs, ¬ directoryAt tree n <+: loc
  | [], n :: rest, _, _ => ⟨n, List.mem_cons_self, nofun⟩
  | loc :: locs, numbers, hnodup, hlength => by
    rw [List.length_cons] at hlength
    by_cases hused : ∃ m ∈ numbers, directoryAt tree m <+: loc
    · obtain ⟨m, hm, hle⟩ := hused
      -- the number that is used by this location is left out
      have herase : locs.length < (numbers.erase m).length := by
        rw [List.length_erase_of_mem hm]
        omega
      obtain ⟨n, hn, hunused⟩ := exists_unused (hnodup.erase m) herase
      obtain ⟨hne, hmem⟩ := hnodup.mem_erase_iff.mp hn
      refine ⟨n, hmem, fun loc' hloc' => ?_⟩
      rcases List.mem_cons.mp hloc' with rfl | hloc'
      · exact fun h => hne (eq_of_directoryAt_le h hle)
      · exact hunused loc' hloc'
    · obtain ⟨n, hn, hunused⟩ := exists_unused hnodup (Nat.lt_of_succ_lt hlength)
      refine ⟨n, hn, fun loc' hloc' => ?_⟩
      rcases List.mem_cons.mp hloc' with rfl | hloc'
      · exact fun h => hused ⟨n, hn, h⟩
      · exact hunused loc' hloc'

/-! ## The first unused directory -/

theorem freshDirectory_ne_nil (tree : FileTree) : freshDirectory tree ≠ [] := by
  simp [freshDirectory, directoryAt]

theorem not_prefix_of_mem_taken {tree : FileTree} {loc : Location} (hloc : loc ∈ taken tree) :
    ¬ freshDirectory tree <+: loc := by
  obtain ⟨n, hn, hunused⟩ := @exists_unused tree (taken tree) _ List.nodup_range
    (by rw [List.length_range]; exact Nat.lt_succ_self _)
  unfold freshDirectory
  dsimp only
  cases hfind : (List.range ((taken tree).length + 1)).find? fun n =>
      (taken tree).all fun loc => !(directoryAt tree n).isPrefixOf loc with
  | none =>
    refine absurd (List.all_eq_true.mpr fun loc' hloc' => ?_) (List.find?_eq_none.mp hfind n hn)
    rw [Bool.not_eq_true', Bool.eq_false_iff]
    exact fun hprefix => hunused loc' hloc' (List.isPrefixOf_iff_prefix.mp hprefix)
  | some m =>
    have hall := List.find?_some hfind
    simp only [List.all_eq_true, Bool.not_eq_true'] at hall
    intro hprefix
    exact Bool.noConfusion ((hall loc hloc).symm.trans (List.isPrefixOf_iff_prefix.mpr hprefix))

/-- **The fresh directory and all below it are empty.** -/
theorem get?_freshDirectory {tree : FileTree} {loc : Location} (h : freshDirectory tree <+: loc) :
    tree.get? loc = none := by
  have hne : loc ≠ [] := fun e => freshDirectory_ne_nil tree (List.prefix_nil.mp (e ▸ h))
  have hget : tree.get? loc = tree.entries.lookup loc := by
    cases loc with
    | nil => exact absurd rfl hne
    | cons _ _ => rfl
  rw [hget]
  refine Option.not_isSome_iff_eq_none.mp fun hsome => ?_
  obtain ⟨e, he, rfl⟩ := (FileTree.lookup_isSome_iff loc tree.entries).mp hsome
  exact not_prefix_of_mem_taken (List.mem_append_left _ (List.mem_map_of_mem he)) h

/-- **Nothing is locked there.** -/
theorem free_freshDirectory {tree : FileTree} {loc : Location} (h : freshDirectory tree <+: loc) :
    tree.locked.contains loc = false := by
  rw [Bool.eq_false_iff, ne_eq, List.contains_iff_mem]
  exact fun hlocked => not_prefix_of_mem_taken (List.mem_append_right _ hlocked) h

/-! ## Trees with a copy -/

/-- Besides what was there before, a tree holds a directory for temporary files with one file in it, and nothing else. -/
structure HoldsCopy (before : FileTree) (directory : Location) (name : Text) (clean : List UInt8)
    (tree : FileTree) : Prop extends FileTree.SameSetting before tree where
  /-- The directory is one for temporary files. -/
  temporary : directory.dropLast = before.tempDir
  /-- Nothing was there or below before, and nothing is locked. -/
  unused : ∀ l, directory <+: l → before.get? l = none ∧ before.locked.contains l = false
  made : tree.get? directory = some .directory
  copy : tree.get? (directory ++ [name]) = some (.file clean)
  /-- There is nothing else in the directory. -/
  alone : ∀ l, directory <+: l → l ≠ directory → l ≠ directory ++ [name] → tree.get? l = none
  /-- Everything outside is as it was. -/
  outside : ∀ l, ¬ directory <+: l → tree.get? l = before.get? l

theorem holdsCopy_put (tree : FileTree) (name : Text) (clean : List UInt8) :
    HoldsCopy tree (freshDirectory tree) name clean
      ((tree.put (freshDirectory tree) .directory).put (freshDirectory tree ++ [name]) (.file clean)) := by
  have hget : ∀ l, ((tree.put (freshDirectory tree) .directory).put (freshDirectory tree ++ [name])
      (.file clean)).get? l = if l = freshDirectory tree ++ [name] then some (.file clean)
        else if l = freshDirectory tree then some .directory else tree.get? l := fun l => by
    rw [FileTree.get?_put _ _ _ _ (by simp), FileTree.get?_put _ _ _ _ (freshDirectory_ne_nil tree)]
  constructor
  case toSameSetting => exact ⟨rfl, rfl, rfl⟩
  case temporary => exact List.dropLast_concat
  case unused => exact fun l hl => ⟨get?_freshDirectory hl, free_freshDirectory hl⟩
  case made => rw [hget, if_neg (by simp), if_pos rfl]
  case copy => rw [hget, if_pos rfl]
  case alone =>
    intro l hl hdir hcopy
    rw [hget, if_neg hcopy, if_neg hdir, get?_freshDirectory hl]
  case outside =>
    intro l hl
    have hcopy : l ≠ freshDirectory tree ++ [name] := fun e => hl (e ▸ List.prefix_append _ _)
    have hdir : l ≠ freshDirectory tree := fun e => hl (e ▸ List.prefix_rfl)
    rw [hget, if_neg hcopy, if_neg hdir]

/-! ## Sanitizing -/

/-- All markers are fit for their places exactly if each of them is on one line. -/
theorem checkMarkers_eq_ok_iff {attributes : List ElidedAttribute} :
    checkMarkers attributes = .ok () ↔ ∀ a ∈ attributes, '\n' ∉ a.marker := by
  unfold checkMarkers
  cases hfind : attributes.find? (·.marker.contains '\n') with
  | some a =>
    have hmem := List.mem_of_find?_eq_some hfind
    have hfeed := List.find?_some hfind
    simp only [reduceCtorEq, false_iff]
    intro h
    exact h a hmem (by simpa using hfeed)
  | none =>
    rw [List.find?_eq_none] at hfind
    simpa using hfind

/-- The markers of the bindings are fit for their places, so every file is sanitized. -/
theorem exists_sanitizeBytes (bytes : List UInt8) :
    ∃ clean, sanitizeBytes elidedAttributes bytes = .ok clean := by
  have hmarkers : checkMarkers elidedAttributes = .ok () := rfl
  exact ⟨_, by rw [sanitizeBytes, sanitizeItems, hmarkers]; rfl⟩

/-! ## Use of a copy -/

section
variable {α : Type} {attributes : List ElidedAttribute} {tree left : FileTree} {idl : Path}
  {use : FileTree → Path → FileTree × α}

/-- What is answered is what the use of some copy answers. -/
theorem exists_use_of_withCopy {answer : α} (h : withCopy attributes tree idl use = (left, .ok answer)) :
    ∃ tree' copy, (use tree' copy).2 = answer := by
  unfold withCopy at h
  split at h
  · cases h
  · split at h
    · cases h
    · cases h
      exact ⟨_, _, rfl⟩

/-- There is no copy of definitions that cannot be read. -/
theorem readBytes_of_withCopy {fault : FileFault}
    (h : withCopy attributes tree idl use = (left, .error (.file fault))) : tree.readBytes idl = .error fault := by
  unfold withCopy at h
  split at h
  · rename_i hread
    cases h
    exact hread
  · split at h <;> cases h

end

end FlowTypes.Idl
