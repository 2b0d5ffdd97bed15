import FlowTypes.FileTree

/-!
# Where paths lead

Where a path leads does not depend on what is there: the names alone say so (`FileTree.place`). What is there
says whether the way is open. All locations on the way have to be directories, and no name may be too long
(`walk_eq_ok`). So a path stays open as long as these directories stay (`Opens.of_way`).

Making a directory makes what is missing on the way and nothing else (`ensureDirectory_grown`), it opens the
path if it succeeds (`opens_of_ensureDirectory`), and on an open path it does nothing
(`ensureDirectory_of_opens`).
-/

namespace FlowTypes.FileTree

/-! ## Ways -/

/-- The location one name further, whatever is there. -/
def next (loc : Location) (name : Text) : Location :=
  if name = ['.', '.'] then loc.dropLast else loc ++ [name]

/-- The location where names lead to. -/
def follow (loc : Location) (names : List Text) : Location := names.foldl next loc

/-- The locations on the way along names, both ends among them. -/
def wayFrom (loc : Location) : List Text → List Location
  | [] => [loc]
  | name :: rest => loc :: wayFrom (next loc name) rest

/-- Where a path starts. -/
def start (tree : FileTree) (path : Path) : Location := if path.slashes = 0 then tree.workDir else []

/-- The location that a path names, whatever is there. -/
def place (tree : FileTree) (path : Path) : Location := follow (tree.start path) path.parts

/-- The locations on the way of a path. -/
def way (tree : FileTree) (path : Path) : List Location := wayFrom (tree.start path) path.parts

theorem way_of_workDir {tree tree' : FileTree} (h : tree'.workDir = tree.workDir) (path : Path) :
    tree'.way path = tree.way path := by
  simp only [way, start, h]

theorem place_of_workDir {tree tree' : FileTree} (h : tree'.workDir = tree.workDir) (path : Path) :
    tree'.place path = tree.place path := by
  simp only [place, start, h]

theorem follow_mem_wayFrom : ∀ (names : List Text) (loc : Location), follow loc names ∈ wayFrom loc names
  | [], _ => List.mem_singleton.mpr rfl
  | _ :: rest, _ => List.mem_cons_of_mem _ (follow_mem_wayFrom rest _)

theorem start_mem_wayFrom : ∀ (names : List Text) (loc : Location), loc ∈ wayFrom loc names
  | [], _ => List.mem_cons_self
  | _ :: _, _ => List.mem_cons_self

theorem follow_append (loc : Location) (names more : List Text) :
    follow loc (names ++ more) = follow (follow loc names) more := List.foldl_append

/-- The way along names and more names is one way after the other. -/
theorem mem_wayFrom_append {l : Location} {more : List Text} :
    ∀ {names : List Text} {loc : Location},
      l ∈ wayFrom loc (names ++ more) ↔ l ∈ wayFrom loc names ∨ l ∈ wayFrom (follow loc names) more
  | [], loc => by
    show l ∈ wayFrom loc more ↔ l ∈ [loc] ∨ l ∈ wayFrom loc more
    rw [List.mem_singleton, or_iff_right_of_imp fun e => e ▸ start_mem_wayFrom more loc]
  | name :: rest, loc => by
    rw [List.cons_append, wayFrom, wayFrom, List.mem_cons, List.mem_cons, mem_wayFrom_append, or_assoc]
    rfl

theorem wayFrom_append (name : Text) :
    ∀ (names : List Text) (loc : Location),
      wayFrom loc (names ++ [name]) = wayFrom loc names ++ [follow loc (names ++ [name])]
  | [], _ => rfl
  | n :: rest, loc => by
    rw [List.cons_append, wayFrom, wayFrom_append name rest, wayFrom, List.cons_append]
    rfl

/-- The way to the directory above is a part of the way. -/
theorem way_parent (tree : FileTree) (path : Path) {loc : Location} (h : loc ∈ tree.way path.parent) :
    loc ∈ tree.way path := by
  unfold way at h ⊢
  rw [show tree.start path.parent = tree.start path from rfl, Path.parent] at h
  rcases List.eq_nil_or_concat path.parts with hp | ⟨names, name, hp⟩
  · rw [hp] at h ⊢
    exact h
  · rw [hp, List.concat_eq_append] at h ⊢
    rw [List.dropLast_concat] at h
    rw [wayFrom_append]
    exact List.mem_append_left _ h

/-! ## Walking -/

theorem step_eq_ok {tree : FileTree} {loc target : Location} {name : Text}
    (h : tree.step loc name = .ok target) :
    target = next loc name ∧ tree.get? loc = some .directory := by
  unfold step at h
  unfold next
  split at h
  · cases h
  · cases h
  · rename_i hdir
    refine ⟨?_, hdir⟩
    split at h
    · rename_i hdots
      rw [if_pos hdots, ← Except.ok.inj h]
    split at h
    · cases h
    · rename_i hdots _
      rw [if_neg hdots, ← Except.ok.inj h]

/-- A step in a directory is open, if the name is not too long. -/
theorem step_in_directory {tree : FileTree} {loc : Location} (h : tree.get? loc = some .directory) (name : Text) :
    tree.step loc name = .ok (next loc name) ∨ tree.step loc name = .error .nameTooLong := by
  unfold step next
  simp only [h]
  split
  · exact .inl rfl
  · split
    · exact .inr rfl
    · exact .inl rfl

theorem step_eq_nameTooLong_iff {tree : FileTree} {loc : Location} {name : Text} :
    tree.step loc name = .error .nameTooLong ↔
      tree.get? loc = some .directory ∧ nameLimit < (Utf8.encode name).length := by
  have hdots : (Utf8.encode ['.', '.']).length = 2 := rfl
  unfold step nameLimit
  split
  · rename_i hget
    simp [hget]
  · rename_i hget
    simp [hget]
  · rename_i hget
    simp only [hget, true_and]
    split
    · rename_i hname
      simp [hname, hdots]
    · split <;> simp_all

/-- A step that is open stays open while its directory stays. -/
theorem step_of_directory {tree tree' : FileTree} {loc target : Location} {name : Text}
    (h : tree.step loc name = .ok target) (hdir : tree'.get? loc = some .directory) :
    tree'.step loc name = .ok target := by
  obtain ⟨-, hold⟩ := step_eq_ok h
  unfold step at h ⊢
  rw [hold] at h
  rw [hdir]
  exact h

/-- **A walk leads where its names say, past directories only.** -/
theorem walk_eq_ok {tree : FileTree} :
    ∀ {names : List Text} {loc target : Location}, tree.walk loc names = .ok target →
      target = follow loc names ∧
        ∀ l ∈ wayFrom loc names, l = target ∨ tree.get? l = some .directory
  | [], loc, target, h => by
    cases h
    exact ⟨rfl, fun l hl => .inl (List.mem_singleton.mp hl)⟩
  | name :: rest, loc, target, h => by
    unfold walk at h
    cases hs : tree.step loc name with
    | error cause => rw [hs] at h; cases h
    | ok further =>
      rw [hs] at h
      obtain ⟨rfl, hdir⟩ := step_eq_ok hs
      obtain ⟨htarget, hway⟩ := walk_eq_ok h
      refine ⟨htarget, fun l hl => ?_⟩
      rcases List.mem_cons.mp hl with rfl | hl
      · exact .inr hdir
      · exact hway l hl

/-- A walk stays open while the directories on its way stay. -/
theorem walk_of_way {tree tree' : FileTree} :
    ∀ {names : List Text} {loc target : Location}, tree.walk loc names = .ok target →
      (∀ l ∈ wayFrom loc names, tree.get? l = some .directory → tree'.get? l = some .directory) →
        tree'.walk loc names = .ok target
  | [], _, _, h, _ => h
  | name :: rest, loc, target, h, hkeep => by
    unfold walk at h ⊢
    cases hs : tree.step loc name with
    | error cause => rw [hs] at h; cases h
    | ok further =>
      rw [hs] at h
      obtain ⟨rfl, hdir⟩ := step_eq_ok hs
      rw [step_of_directory hs (hkeep loc List.mem_cons_self hdir)]
      exact walk_of_way h fun l hl => hkeep l (List.mem_cons_of_mem _ hl)

theorem walk_append (tree : FileTree) :
    ∀ (names more : List Text) (loc : Location),
      tree.walk loc (names ++ more) = tree.walk loc names >>= fun target => tree.walk target more
  | [], _, _ => rfl
  | name :: rest, more, loc => by
    rw [List.cons_append, walk, walk]
    cases tree.step loc name with
    | error cause => rfl
    | ok further => exact walk_append tree rest more further

theorem locate_eq_ok {tree : FileTree} {path : Path} {loc : Location} (h : tree.locate path = .ok loc) :
    loc = tree.place path ∧ ∀ l ∈ tree.way path, l = loc ∨ tree.get? l = some .directory := by
  unfold locate at h
  split at h
  · cases h
  · exact walk_eq_ok h

/-- A walk past directories is open, if no name is too long. -/
theorem walk_of_directories {tree : FileTree} :
    ∀ {names : List Text} {loc : Location}, (∀ l ∈ wayFrom loc names, tree.get? l = some .directory) →
      tree.walk loc names = .ok (follow loc names) ∨ tree.walk loc names = .error .nameTooLong
  | [], _, _ => .inl rfl
  | name :: rest, loc, hway => by
    unfold walk
    rcases step_in_directory (hway loc (start_mem_wayFrom _ _)) name with hstep | hstep
    · rw [hstep]
      exact walk_of_directories fun l hl => hway l (List.mem_cons_of_mem _ hl)
    · rw [hstep]
      exact .inr rfl

theorem locate_of_way {tree tree' : FileTree} {path : Path} {loc : Location}
    (hwork : tree'.workDir = tree.workDir) (h : tree.locate path = .ok loc)
    (hkeep : ∀ l ∈ tree.way path, tree.get? l = some .directory → tree'.get? l = some .directory) :
    tree'.locate path = .ok loc := by
  unfold locate at h ⊢
  split at h
  · cases h
  · rename_i hlong
    rw [if_neg hlong, hwork]
    exact walk_of_way h hkeep

/-! ## Open paths -/

/-- The path leads to a directory at this location. -/
structure Opens (tree : FileTree) (path : Path) (loc : Location) : Prop where
  text : path.text.contains '\x00' = false
  locate : tree.locate path = .ok loc
  directory : tree.get? loc = some .directory

namespace Opens

variable {tree tree' : FileTree} {path : Path} {loc : Location}

theorem place (h : tree.Opens path loc) : loc = tree.place path := (locate_eq_ok h.locate).1

/-- All locations on an open way are directories. -/
theorem get?_way (h : tree.Opens path loc) {l : Location} (hl : l ∈ tree.way path) :
    tree.get? l = some .directory := by
  rcases (locate_eq_ok h.locate).2 l hl with rfl | hdir
  · exact h.directory
  · exact hdir

/-- **A path stays open while the directories on its way stay.** -/
theorem of_way (h : tree.Opens path loc) (hwork : tree'.workDir = tree.workDir)
    (hkeep : ∀ l ∈ tree.way path, tree'.get? l = some .directory) : tree'.Opens path loc where
  text := h.text
  locate := locate_of_way hwork h.locate fun l hl _ => hkeep l hl
  directory := hkeep loc (h.place ▸ follow_mem_wayFrom _ _)

end Opens

/-- The same working directory and all the directories there are. -/
structure KeepsDirectories (tree tree' : FileTree) : Prop where
  workDir : tree'.workDir = tree.workDir
  directory : ∀ loc, tree.get? loc = some .directory → tree'.get? loc = some .directory

theorem KeepsDirectories.refl (tree : FileTree) : tree.KeepsDirectories tree := ⟨rfl, fun _ h => h⟩

theorem KeepsDirectories.trans {tree tree' tree'' : FileTree} (h : tree.KeepsDirectories tree')
    (h' : tree'.KeepsDirectories tree'') : tree.KeepsDirectories tree'' :=
  ⟨h'.workDir.trans h.workDir, fun loc hloc => h'.directory loc (h.directory loc hloc)⟩

theorem Opens.mono {tree tree' : FileTree} {path : Path} {loc : Location} (h : tree.Opens path loc)
    (hkeep : tree.KeepsDirectories tree') : tree'.Opens path loc :=
  h.of_way hkeep.workDir fun l hl => hkeep.directory l (h.get?_way hl)

@[simp] theorem workDir_put (tree : FileTree) (loc : Location) (entry : Entry) :
    (tree.put loc entry).workDir = tree.workDir := rfl

@[simp] theorem tempDir_put (tree : FileTree) (loc : Location) (entry : Entry) :
    (tree.put loc entry).tempDir = tree.tempDir := rfl

@[simp] theorem locked_put (tree : FileTree) (loc : Location) (entry : Entry) :
    (tree.put loc entry).locked = tree.locked := rfl

@[simp] theorem workDir_remove (tree : FileTree) (loc : Location) :
    (tree.remove loc).workDir = tree.workDir := rfl

@[simp] theorem tempDir_remove (tree : FileTree) (loc : Location) :
    (tree.remove loc).tempDir = tree.tempDir := rfl

@[simp] theorem locked_remove (tree : FileTree) (loc : Location) :
    (tree.remove loc).locked = tree.locked := rfl

/-- The trees differ in entries only. -/
structure SameSetting (tree tree' : FileTree) : Prop where
  workDir : tree'.workDir = tree.workDir
  tempDir : tree'.tempDir = tree.tempDir
  locked : tree'.locked = tree.locked

theorem SameSetting.refl (tree : FileTree) : tree.SameSetting tree := ⟨rfl, rfl, rfl⟩

theorem SameSetting.trans {tree tree' tree'' : FileTree} (h : tree.SameSetting tree')
    (h' : tree'.SameSetting tree'') : tree.SameSetting tree'' :=
  ⟨h'.workDir.trans h.workDir, h'.tempDir.trans h.tempDir, h'.locked.trans h.locked⟩

theorem sameSetting_put (tree : FileTree) (loc : Location) (entry : Entry) :
    tree.SameSetting (tree.put loc entry) := ⟨rfl, rfl, rfl⟩

theorem ne_nil_of_get?_ne {tree : FileTree} {loc : Location} (h : tree.get? loc ≠ some .directory) :
    loc ≠ [] := by
  rintro rfl
  exact h tree.get?_nil

theorem ne_nil_of_get?_none {tree : FileTree} {loc : Location} (h : tree.get? loc = none) : loc ≠ [] :=
  ne_nil_of_get?_ne fun e => nomatch h.symm.trans e

/-! ## Making directories -/

/-- Some locations where nothing was have become directories; nothing else has changed. -/
structure Grown (locs : List Location) (tree tree' : FileTree) : Prop extends SameSetting tree tree' where
  get? : ∀ loc, tree'.get? loc = tree.get? loc ∨
    tree.get? loc = none ∧ tree'.get? loc = some .directory ∧ loc ∈ locs

namespace Grown

variable {locs : List Location} {tree tree' tree'' : FileTree}

theorem refl (locs : List Location) (tree : FileTree) : Grown locs tree tree :=
  ⟨.refl tree, fun _ => .inl rfl⟩

theorem trans (h : Grown locs tree tree') (h' : Grown locs tree' tree'') : Grown locs tree tree'' where
  toSameSetting := h.toSameSetting.trans h'.toSameSetting
  get? loc := by
    rcases h'.get? loc with e' | ⟨hn', hd', hl⟩
    · rw [e']
      exact h.get? loc
    · rcases h.get? loc with e | ⟨-, hd, -⟩
      · exact .inr ⟨e ▸ hn', hd', hl⟩
      · rw [hn'] at hd
        cases hd

theorem mono {locs' : List Location} (h : Grown locs tree tree') (hsub : ∀ l ∈ locs, l ∈ locs') :
    Grown locs' tree tree' :=
  ⟨h.toSameSetting, fun loc => (h.get? loc).imp_right fun ⟨hn, hd, hl⟩ => ⟨hn, hd, hsub loc hl⟩⟩

/-- What was there is still there. -/
theorem get?_of_some (h : Grown locs tree tree') {loc : Location} {entry : Entry}
    (he : tree.get? loc = some entry) : tree'.get? loc = some entry := by
  rcases h.get? loc with e | ⟨hn, -, -⟩
  · rw [e, he]
  · rw [hn] at he
    cases he

end Grown

theorem grown_put {tree : FileTree} {loc : Location} {locs : List Location} (h : tree.get? loc = none)
    (hloc : loc ∈ locs) : Grown locs tree (tree.put loc .directory) where
  toSameSetting := sameSetting_put tree loc _
  get? l := by
    rw [get?_put _ _ _ _ (ne_nil_of_get?_none h)]
    split
    · rename_i e
      exact .inr ⟨e ▸ h, rfl, e ▸ hloc⟩
    · exact .inl rfl

theorem grown_makeDirectory {tree tree' : FileTree} {path : Path}
    (h : tree.makeDirectory path = .ok tree') :
    Grown (tree.way path) tree tree' ∧ ∃ loc, tree'.Opens path loc := by
  unfold makeDirectory at h
  split at h
  · cases h
  · rename_i htext
    split at h
    · cases h
    · rename_i loc hlocate
      split at h
      · cases h
      · rename_i hnone
        obtain ⟨-, rfl⟩ := putAt_eq_ok_iff.mp h
        have hgrown : Grown (tree.way path) tree (tree.put loc .directory) :=
          grown_put hnone ((locate_eq_ok hlocate).1 ▸ follow_mem_wayFrom _ _)
        refine ⟨hgrown, loc, Bool.eq_false_iff.mpr htext, ?_, ?_⟩
        · exact locate_of_way (workDir_put tree loc _) hlocate fun _ _ => hgrown.get?_of_some
        · rw [get?_put _ _ _ _ (ne_nil_of_get?_none hnone), if_pos rfl]

theorem entryAt_eq_ok {tree : FileTree} {path : Path} {entry : Entry}
    (h : tree.entryAt path = .ok entry) : ∃ loc, tree.locate path = .ok loc ∧ tree.get? loc = some entry := by
  unfold entryAt at h
  cases hlocate : tree.locate path with
  | error cause => rw [hlocate] at h; cases h
  | ok loc =>
    simp only [hlocate, bind, Except.bind] at h
    cases hget : tree.get? loc with
    | none => rw [hget] at h; cases h
    | some entry' => rw [hget] at h; cases h; exact ⟨loc, rfl, hget⟩

theorem probe_eq_some {tree : FileTree} {path : Path} {entry : Entry}
    (h : tree.probe path = .ok (some entry)) :
    path.text.contains '\x00' = false ∧ tree.entryAt path = .ok entry := by
  unfold probe at h
  split at h
  · cases h
  · rename_i htext
    refine ⟨Bool.eq_false_iff.mpr htext, ?_⟩
    split at h
    · rename_i hentry
      cases h
      exact hentry
    · split at h <;> cases h

/-- A directory is there only at the end of an open path. -/
theorem opens_of_isDirectory {tree : FileTree} {path : Path} (h : tree.isDirectory path = .ok true) :
    ∃ loc, tree.Opens path loc := by
  unfold isDirectory at h
  cases hprobe : tree.probe path with
  | error fault => rw [hprobe] at h; cases h
  | ok found =>
    simp only [hprobe, bind, Except.bind] at h
    split at h
    · obtain ⟨htext, hentry⟩ := probe_eq_some hprobe
      obtain ⟨loc, hlocate, hget⟩ := entryAt_eq_ok hentry
      exact ⟨loc, htext, hlocate, hget⟩
    · cases h

theorem orPresent_fst (tree : FileTree) (path : Path) (fault : FileFault) :
    (tree.orPresent path fault).1 = tree := by
  unfold orPresent
  split
  · split <;> rfl
  · rfl

theorem opens_of_orPresent {tree : FileTree} {path : Path} {fault : FileFault}
    (h : (tree.orPresent path fault).2 = .ok ()) : ∃ loc, tree.Opens path loc := by
  unfold orPresent at h
  split at h
  · split at h
    · rename_i hdir
      exact opens_of_isDirectory hdir
    · cases h
    · cases h
  · cases h

/-- **Making a directory makes what is missing on the way**, and opens the path if it succeeds. -/
theorem ensureDirectoryUpTo_spec : ∀ (depth : Nat) (tree : FileTree) (path : Path),
    Grown (tree.way path) tree (ensureDirectoryUpTo depth tree path).1 ∧
      ((ensureDirectoryUpTo depth tree path).2 = .ok () →
        ∃ loc, (ensureDirectoryUpTo depth tree path).1.Opens path loc)
  | depth, tree, path => by
    unfold ensureDirectoryUpTo
    split
    · rename_i hmake
      exact ⟨(grown_makeDirectory hmake).1, fun _ => (grown_makeDirectory hmake).2⟩
    · cases depth with
      | zero => exact ⟨Grown.refl _ _, nofun⟩
      | succ depth =>
        -- what was made above is on the way, too
        have ih := ensureDirectoryUpTo_spec depth tree path.parent
        dsimp only
        generalize ensureDirectoryUpTo depth tree path.parent = above at ih
        obtain ⟨tree', answer⟩ := above
        have hgrown := ih.1.mono fun _ => way_parent tree path
        have hway : tree'.way path = tree.way path := by
          unfold way start
          rw [ih.1.workDir]
        cases answer with
        | error fault => exact ⟨hgrown, nofun⟩
        | ok _ =>
          dsimp only
          split
          · rename_i hmake
            obtain ⟨hmade, hopens⟩ := grown_makeDirectory hmake
            exact ⟨hgrown.trans (hway ▸ hmade), fun _ => hopens⟩
          · exact ⟨hgrown, nofun⟩
          · rw [orPresent_fst]
            exact ⟨hgrown, opens_of_orPresent⟩
    · rw [orPresent_fst]
      exact ⟨Grown.refl _ _, opens_of_orPresent⟩

theorem ensureDirectory_grown (tree : FileTree) (path : Path) :
    Grown (tree.way path) tree (tree.ensureDirectory path).1 :=
  (ensureDirectoryUpTo_spec _ tree path).1

theorem opens_of_ensureDirectory {tree tree' : FileTree} {path : Path}
    (h : tree.ensureDirectory path = (tree', .ok ())) : ∃ loc, tree'.Opens path loc := by
  have hspec := (ensureDirectoryUpTo_spec path.parts.length tree path).2
  unfold ensureDirectory at h
  rw [h] at hspec
  exact hspec rfl

theorem isDirectory_of_opens {tree : FileTree} {path : Path} {loc : Location}
    (h : tree.Opens path loc) : tree.isDirectory path = .ok true := by
  simp [isDirectory, probe, entryAt, -List.contains_eq_mem, h.text, h.locate, h.directory, bind,
    Except.bind, pure, Except.pure]

/-- **Nothing is made on an open path.** -/
theorem ensureDirectory_of_opens {tree : FileTree} {path : Path} {loc : Location}
    (h : tree.Opens path loc) : tree.ensureDirectory path = (tree, .ok ()) := by
  have hmake : tree.makeDirectory path = .error (.refused .alreadyThere path.text) := by
    simp [makeDirectory, -List.contains_eq_mem, h.text, h.locate, h.directory]
  unfold ensureDirectory ensureDirectoryUpTo
  rw [hmake]
  simp [orPresent, isDirectory_of_opens h]

end FlowTypes.FileTree
