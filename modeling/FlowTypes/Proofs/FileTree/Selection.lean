import FlowTypes.Proofs.Fallible
import FlowTypes.Proofs.FileTree.Listing

/-!
# What globs select

Whatever the components of a glob are, it selects paths further down from its directory (`Path.IsAbove`), each one
once, and its files are in ascending order. So the files of a glob that stand before one of them are those that are
less than it (`Glob.mem_before_iff`).
-/

namespace FlowTypes

/-! ## Further down -/

/-- One path leads through another. -/
structure Path.IsAbove (base path : Path) : Prop where
  slashes : path.slashes = base.slashes
  parts : base.parts <+: path.parts

namespace Path.IsAbove

variable {base middle path : Path}

theorem refl (path : Path) : path.IsAbove path := ⟨rfl, List.prefix_rfl⟩

theorem trans (h : base.IsAbove middle) (h' : middle.IsAbove path) : base.IsAbove path :=
  ⟨h'.slashes.trans h.slashes, h.parts.trans h'.parts⟩

theorem child (base : Path) (name : Text) : base.IsAbove (base.child name) := ⟨rfl, List.prefix_append _ _⟩

/-- A path leads through one name of a directory only. -/
theorem name_eq {name name' : Text} (h : (base.child name).IsAbove path) (h' : (base.child name').IsAbove path) :
    name = name' := by
  have hfront := List.prefix_of_prefix_length_le h.parts h'.parts (by simp [parts_child])
  have hparts := hfront.eq_of_length (by simp [parts_child])
  simpa [parts_child] using hparts

end Path.IsAbove

namespace Glob

variable {tree : FileTree}

/-! ## Selecting -/

/-- What is put together of many answers is in one of them. -/
theorem exists_of_mem_flatten_mapM {α β ε : Type} {f : α → Except ε (List β)} {as : List α}
    {bss : List (List β)} {b : β} (h : as.mapM f = .ok bss) (hb : b ∈ bss.flatten) :
    ∃ a ∈ as, ∃ bs, f a = .ok bs ∧ b ∈ bs := by
  obtain ⟨bs, hbs, hb⟩ := List.mem_flatten.mp hb
  obtain ⟨a, ha, hfa⟩ := exists_of_mem_mapM h hbs
  exact ⟨a, ha, bs, hfa, hb⟩

/-- What is selected below different names is different. -/
theorem nodup_flatten_mapM {path : Path} {f : Text × Option Entry → Except FileFault (List Path)}
    (hf : ∀ c paths, f c = .ok paths → paths.Nodup ∧ ∀ p ∈ paths, (path.child c.1).IsAbove p) :
    ∀ {candidates : List (Text × Option Entry)} {selected : List (List Path)},
      (candidates.map Prod.fst).Nodup → candidates.mapM f = .ok selected → selected.flatten.Nodup
  | [], selected, _, h => by
    cases h
    exact List.nodup_nil
  | c :: rest, selected, hnodup, h => by
    rw [List.map_cons, List.nodup_cons] at hnodup
    obtain ⟨paths, hfirst, more, hrest, rfl⟩ := mapM_cons_eq_ok.mp h
    obtain ⟨hpaths, habove⟩ := hf c paths hfirst
    rw [List.flatten_cons, List.nodup_append]
    refine ⟨hpaths, nodup_flatten_mapM hf hnodup.2 hrest, fun p hp q hq e => ?_⟩
    subst e
    obtain ⟨c', hc', paths', hpaths', hp'⟩ := exists_of_mem_flatten_mapM hrest hq
    -- both names would lead to one path
    have hname := (habove p hp).name_eq ((hf c' paths' hpaths').2 p hp')
    exact hnodup.1 (List.mem_map.mpr ⟨c', hc', hname.symm⟩)

theorem nodup_namesAt (tree : FileTree) (path : Path) : ((namesAt tree path).map Prod.fst).Nodup := by
  unfold namesAt
  split
  · rw [List.map_map]
    exact (List.map_id _).symm ▸ FileTree.nodup_namesIn tree _
  · exact List.nodup_nil

theorem isAbove_of_mem_directoriesAt {path directory : Path} (h : directory ∈ directoriesAt tree path) :
    path.IsAbove directory := by
  unfold directoriesAt at h
  split at h
  · rcases List.mem_cons.mp h with rfl | h
    · exact .refl _
    · obtain ⟨e, -, he⟩ := List.mem_filterMap.mp h
      split at he
      · cases he
        exact ⟨rfl, List.prefix_append _ _⟩
      · cases he
  · cases h

/-- A plain component leads one name further down, or nowhere. -/
theorem selectFrom_exact {onlyDirectories : Bool} {name : Text} {rest : List Component} {path : Path}
    {paths : List Path} (h : selectFrom tree onlyDirectories (.exact name :: rest) path = .ok paths) :
    selectFrom tree onlyDirectories rest (path.child name) = .ok paths ∨ paths = [] := by
  have hthere : ∀ there : Except FileFault Bool,
      (there >>= fun there =>
        if there then selectFrom tree onlyDirectories rest (path.child name) else pure []) = .ok paths →
        selectFrom tree onlyDirectories rest (path.child name) = .ok paths ∨ paths = [] := by
    intro there hpaths
    cases there with
    | error fault => cases hpaths
    | ok found =>
      cases found with
      | true => exact .inl hpaths
      | false => exact .inr (Except.ok.inj hpaths).symm
  rw [selectFrom] at h
  split at h
  · exact hthere _ h
  · exact hthere _ h

/-- **The components of a glob select paths further down, each one once.** -/
theorem selectFrom_spec {onlyDirectories : Bool} :
    ∀ {components : List Component} {path : Path} {paths : List Path},
      selectFrom tree onlyDirectories components path = .ok paths →
        paths.Nodup ∧ ∀ p ∈ paths, path.IsAbove p
  | [], path, paths, h => by
    cases h
    exact ⟨by simp, by simpa using .refl path⟩
  | .exact name :: rest, path, paths, h => by
    rcases selectFrom_exact h with h | rfl
    · obtain ⟨hnodup, habove⟩ := selectFrom_spec h
      exact ⟨hnodup, fun p hp => (Path.IsAbove.child path name).trans (habove p hp)⟩
    · exact ⟨List.nodup_nil, nofun⟩
  | .names marks :: rest, path, paths, h => by
    simp only [selectFrom, bind, Except.bind] at h
    split at h
    · cases h
    · rename_i selected hselected
      cases h
      have hbelow : ∀ (c : Text × Option Entry) (found : List Path),
          selectFrom tree onlyDirectories rest (path.child c.1) = .ok found →
            found.Nodup ∧ ∀ p ∈ found, (path.child c.1).IsAbove p := fun c found hfound => selectFrom_spec hfound
      constructor
      · refine nodup_flatten_mapM hbelow ?_ hselected
        exact (nodup_namesAt tree path).sublist (List.filter_sublist.map _)
      · intro p hp
        obtain ⟨c, -, found, hfound, hp⟩ := exists_of_mem_flatten_mapM hselected hp
        exact (Path.IsAbove.child path c.1).trans ((hbelow c found hfound).2 p hp)
  | .directories :: rest, path, paths, h => by
    simp only [selectFrom, bind, Except.bind] at h
    split at h
    · cases h
    · rename_i selected hselected
      cases h
      refine ⟨FileTree.nodup_eraseDups _, fun p hp => ?_⟩
      rw [List.mem_eraseDups] at hp
      obtain ⟨directory, hdirectory, found, hfound, hp⟩ := exists_of_mem_flatten_mapM hselected hp
      exact (isAbove_of_mem_directoriesAt hdirectory).trans ((selectFrom_spec hfound).2 p hp)

theorem select_spec {base : Path} {t : Text} {paths : List Path} (h : select tree base t = .ok paths) :
    paths.Nodup ∧ ∀ p ∈ paths, base.IsAbove p := by
  simp only [select, bind, Except.bind] at h
  split at h
  · cases h
  · split at h
    · cases h
    · split at h
      · exact selectFrom_spec h
      · cases h
        exact ⟨List.nodup_nil, nofun⟩

/-! ## Files -/

section
variable {base : Path} {t : Text} {paths : List Path}

theorem nodup_files (h : files tree base t = .ok paths) : paths.Nodup := by
  obtain ⟨selected, hselect, -, rfl⟩ := files_eq_ok h
  exact (List.mergeSort_perm _ _).nodup_iff.mpr ((select_spec hselect).1.sublist List.filter_sublist)

theorem isAbove_of_mem_files (h : files tree base t = .ok paths) {path : Path} (hpath : path ∈ paths) :
    base.IsAbove path := by
  obtain ⟨selected, hselect, -, rfl⟩ := files_eq_ok h
  rw [List.mem_mergeSort, List.mem_filter] at hpath
  exact (select_spec hselect).2 path hpath.1

theorem isFile_of_mem_files (h : files tree base t = .ok paths) {path : Path} (hpath : path ∈ paths) :
    tree.isFile path = .ok true := by
  obtain ⟨selected, -, hall, rfl⟩ := files_eq_ok h
  rw [List.mem_mergeSort, List.mem_filter] at hpath
  obtain ⟨hselected, hfile⟩ := hpath
  obtain ⟨b, hb⟩ := hall path hselected
  rw [hb] at hfile ⊢
  exact congrArg Except.ok hfile

/-- **The files before one of them are those that are less.** -/
theorem mem_before_iff {before after : List Path} {path : Path}
    (h : files tree base t = .ok (before ++ path :: after)) {p : Path} (hp : p ∈ before ++ path :: after) :
    p ∈ before ↔ Path.le p path = true ∧ p ≠ path := by
  have hsorted := List.pairwise_append.mp (pairwise_files h)
  have hnodup := List.nodup_append.mp (nodup_files h)
  constructor
  · intro hbefore
    exact ⟨hsorted.2.2 p hbefore path List.mem_cons_self, hnodup.2.2 p hbefore path List.mem_cons_self⟩
  · rintro ⟨hle, hne⟩
    rcases List.mem_append.mp hp with hbefore | hafter
    · exact hbefore
    · rcases List.mem_cons.mp hafter with rfl | hafter
      · exact absurd rfl hne
      · have hge := (List.pairwise_cons.mp hsorted.2.1).1 p hafter
        have hmem : path ∈ before ++ path :: after := List.mem_append_right _ List.mem_cons_self
        have hslashes := (isAbove_of_mem_files h hp).slashes.trans (isAbove_of_mem_files h hmem).slashes.symm
        exact absurd (Path.le_antisymm hslashes hle hge) hne

end

end Glob

end FlowTypes
