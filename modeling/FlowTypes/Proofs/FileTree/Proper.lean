import FlowTypes.Proofs.FileTree.Glob
import FlowTypes.Proofs.FileTree.PathText
import FlowTypes.Proofs.FileTree.Writing

/-!
# Proper trees

A tree may list anything, but the files of a system always have some order: every location is listed once, names are
names, and what is there lies in a directory (`FileTree.Proper`). All operations keep this (`Proper.writeBytes`,
`Proper.ensureDirectory`), and it can be computed.

Where nothing is yet, a path may still name a place of its own: it leads down from a directory that is there
(`FileTree.LeadsDown`). A path that leads up again from what is missing does not, since the system follows `..` only
where directories are. In a proper tree a path that leads down leads to the directory at its place, unless the system
finds it too long (`Proper.locate_of_place`).

What is listed as a directory is no file, so that a glob for directories selects none (`Glob.files_of_hasTwoStars`).
-/

namespace FlowTypes

namespace FileTree

/-! ## Proper trees -/

/-- The names from the root down to an entry: none leads back up, and none holds a null byte. -/
def AreNames (loc : Location) : Prop := ∀ name ∈ loc, name ≠ ['.', '.'] ∧ '\x00' ∉ name

instance (loc : Location) : Decidable (AreNames loc) :=
  inferInstanceAs (Decidable (∀ name ∈ loc, name ≠ ['.', '.'] ∧ '\x00' ∉ name))

/-- A tree as the files of a system are. -/
structure Proper (tree : FileTree) : Prop where
  /-- What is listed is what is seen. -/
  seen : ∀ e ∈ tree.entries, tree.get? e.1 = some e.2
  named : ∀ e ∈ tree.entries, AreNames e.1
  /-- What is there lies in a directory. -/
  rooted : ∀ e ∈ tree.entries, tree.get? e.1.dropLast = some .directory
  workDir : tree.get? tree.workDir = some .directory

instance (tree : FileTree) : Decidable tree.Proper :=
  decidable_of_iff ((∀ e ∈ tree.entries, tree.get? e.1 = some e.2) ∧ (∀ e ∈ tree.entries, AreNames e.1) ∧
      (∀ e ∈ tree.entries, tree.get? e.1.dropLast = some .directory) ∧
        tree.get? tree.workDir = some .directory)
    ⟨fun h => ⟨h.1, h.2.1, h.2.2.1, h.2.2.2⟩, fun h => ⟨h.seen, h.named, h.rooted, h.workDir⟩⟩

section
variable {tree tree' : FileTree} {loc : Location} {name : Text}

theorem exists_entry_of_get?_ne_none (h : tree.get? loc ≠ none) (hloc : loc ≠ []) :
    ∃ e ∈ tree.entries, e.1 = loc := by
  rw [← lookup_isSome_iff]
  have hget : tree.get? loc = tree.entries.lookup loc := by
    cases loc with
    | nil => exact absurd rfl hloc
    | cons => rfl
  rw [hget] at h
  exact Option.isSome_iff_ne_none.mpr h

theorem areNames_append {loc names : Location} :
    AreNames (loc ++ names) ↔ AreNames loc ∧ AreNames names := by
  unfold AreNames
  constructor
  · intro h
    exact ⟨fun name hm => h name (List.mem_append_left _ hm), fun name hm => h name (List.mem_append_right _ hm)⟩
  · rintro ⟨h, h'⟩ name hm
    rcases List.mem_append.mp hm with hm | hm
    · exact h name hm
    · exact h' name hm

theorem areNames_dropLast (h : AreNames loc) : AreNames loc.dropLast :=
  fun name hm => h name (List.dropLast_subset loc hm)

theorem areNames_follow : ∀ {names : List Text} {loc : Location}, AreNames loc →
    (∀ name ∈ names, '\x00' ∉ name) → AreNames (follow loc names)
  | [], _, h, _ => h
  | name :: rest, loc, h, hnull => by
    show AreNames (follow (next loc name) rest)
    refine areNames_follow ?_ fun name' hm => hnull name' (List.mem_cons_of_mem _ hm)
    unfold next
    split
    · exact areNames_dropLast h
    · rename_i hdots
      refine areNames_append.mpr ⟨h, fun name' hm => ?_⟩
      rw [List.mem_singleton.mp hm]
      exact ⟨hdots, hnull name List.mem_cons_self⟩

theorem follow_of_not_mem : ∀ {names : List Text} (loc : Location), ['.', '.'] ∉ names →
    follow loc names = loc ++ names
  | [], loc, _ => (List.append_nil loc).symm
  | name :: rest, loc, h => by
    have hname : name ≠ ['.', '.'] := fun e => h (e ▸ List.mem_cons_self)
    show follow (next loc name) rest = _
    rw [next, if_neg hname, follow_of_not_mem _ fun hm => h (List.mem_cons_of_mem _ hm)]
    simp

theorem length_le_of_mem_wayFrom {l : Location} :
    ∀ {names : List Text} {loc : Location}, ['.', '.'] ∉ names → l ∈ wayFrom loc names →
      l.length ≤ loc.length + names.length
  | [], loc, _, hl => by
    rw [List.mem_singleton.mp hl]
    simp
  | name :: rest, loc, hdots, hl => by
    have hname : name ≠ ['.', '.'] := fun e => hdots (e ▸ List.mem_cons_self)
    rcases List.mem_cons.mp hl with rfl | hl
    · simp
    · have hle := length_le_of_mem_wayFrom (fun hm => hdots (List.mem_cons_of_mem _ hm)) hl
      rw [next, if_neg hname] at hle
      simp only [List.length_append, List.length_cons, List.length_nil] at hle ⊢
      omega

/-! ## Ways down -/

/-- The path leads down from a directory that is there: what is missing of it does not lead up again. -/
def LeadsDown (tree : FileTree) (path : Path) : Prop :=
  ∃ base rest, path.parts = base ++ rest ∧ ['.', '.'] ∉ rest ∧
    ∀ l ∈ wayFrom (tree.start path) base, tree.get? l = some .directory

theorem leadsDown_of_opens {path : Path} (h : tree.Opens path loc) : tree.LeadsDown path :=
  ⟨path.parts, [], (List.append_nil _).symm, List.not_mem_nil, fun _ hl => h.get?_way hl⟩

theorem leadsDown_of_isDirectory {path : Path} (h : tree.isDirectory path = .ok true) : tree.LeadsDown path :=
  let ⟨_, hopens⟩ := opens_of_isDirectory h
  leadsDown_of_opens hopens

/-- **A way down passes by no entry of the directory that it leads to**, unless the entry is a directory. -/
theorem LeadsDown.get?_of_mem_way {path : Path} (h : tree.LeadsDown path)
    (hmem : tree.place path ++ [name] ∈ tree.way path) :
    tree.get? (tree.place path ++ [name]) = some .directory := by
  obtain ⟨base, rest, hparts, hdots, hdirs⟩ := h
  rw [way, hparts, mem_wayFrom_append] at hmem
  rcases hmem with hbase | hrest
  · exact hdirs _ hbase
  · -- the rest of the way is too short
    have hle := length_le_of_mem_wayFrom hdots hrest
    rw [place, hparts, follow_append, follow_of_not_mem _ hdots] at hle
    simp only [List.length_append, List.length_cons, List.length_nil] at hle
    omega

namespace Proper

theorem areNames (h : tree.Proper) (hget : tree.get? loc ≠ none) : AreNames loc := by
  by_cases hloc : loc = []
  · rw [hloc]
    exact fun name hm => absurd hm List.not_mem_nil
  · obtain ⟨e, he, rfl⟩ := exists_entry_of_get?_ne_none hget hloc
    exact h.named e he

theorem get?_dropLast (h : tree.Proper) (hget : tree.get? loc ≠ none) :
    tree.get? loc.dropLast = some .directory := by
  by_cases hloc : loc = []
  · rw [hloc]
    rfl
  · obtain ⟨e, he, rfl⟩ := exists_entry_of_get?_ne_none hget hloc
    exact h.rooted e he

/-- What has something below it is a directory. -/
theorem get?_of_below (h : tree.Proper) :
    ∀ {names : List Text} {loc : Location}, tree.get? (loc ++ names) ≠ none → names ≠ [] →
      tree.get? loc = some .directory
  | [], _, _, hne => absurd rfl hne
  | name :: rest, loc, hget, _ => by
    have hchild : tree.get? (loc ++ [name]) ≠ none := by
      by_cases hrest : rest = []
      · rwa [hrest] at hget
      · have hget' : tree.get? (loc ++ [name] ++ rest) ≠ none := by simpa using hget
        rw [h.get?_of_below hget' hrest]
        nofun
    have hdrop := h.get?_dropLast hchild
    rwa [List.dropLast_concat] at hdrop

/-- The path of what is there has no null characters. -/
theorem null_not_mem_text_child (hproper : tree.Proper) {out : Path} {loc : Location} (h : tree.Opens out loc)
    {name : Text} (hthere : tree.get? (loc ++ [name]) ≠ none) : '\x00' ∉ (out.child name).text := by
  intro hnull
  obtain ⟨part, hm, hpart⟩ := Path.null_mem_text_iff.mp hnull
  rcases List.mem_append.mp hm with hm | hm
  · refine Bool.eq_false_iff.mp h.text ?_
    simpa using Path.null_mem_text_iff.mpr ⟨part, hm, hpart⟩
  · rw [List.mem_singleton.mp hm] at hpart
    exact (hproper.areNames hthere name (by simp)).2 hpart

/-! ## What operations keep -/

/-- A new entry in a directory, where no file takes the place of a directory. -/
theorem put (h : tree.Proper) {entry : Entry} (hnames : AreNames loc) (hne : loc ≠ [])
    (hparent : tree.get? loc.dropLast = some .directory)
    (hkeep : tree.get? loc = some .directory → entry = .directory) : (tree.put loc entry).Proper := by
  have hget := fun l => get?_put tree loc l entry hne
  have hdirectory : ∀ l, tree.get? l = some .directory → (tree.put loc entry).get? l = some .directory := by
    intro l hl
    rw [hget]
    split
    · rename_i e
      rw [hkeep (e ▸ hl)]
    · exact hl
  have hentries : ∀ e ∈ (tree.put loc entry).entries, e = (loc, entry) ∨ e ∈ tree.entries ∧ e.1 ≠ loc := by
    intro e he
    rcases List.mem_cons.mp he with he | he
    · exact .inl he
    · exact .inr ⟨(List.mem_filter.mp he).1, by simpa using (List.mem_filter.mp he).2⟩
  constructor
  case seen =>
    intro e he
    rw [hget]
    rcases hentries e he with rfl | ⟨he, hloc⟩
    · rw [if_pos rfl]
    · rw [if_neg hloc]
      exact h.seen e he
  case named =>
    intro e he
    rcases hentries e he with rfl | ⟨he, -⟩
    · exact hnames
    · exact h.named e he
  case rooted =>
    intro e he
    rcases hentries e he with rfl | ⟨he, -⟩
    · exact hdirectory _ hparent
    · exact hdirectory _ (h.rooted e he)
  case workDir => exact hdirectory _ h.workDir

theorem areNames_place (h : tree.Proper) {path : Path} (hnull : path.text.contains '\x00' = false) :
    AreNames (tree.place path) := by
  refine areNames_follow ?_ fun name hm hc => ?_
  · unfold start
    split
    · exact h.areNames (by rw [h.workDir]; nofun)
    · exact fun name hm => absurd hm List.not_mem_nil
  · have hmem : '\x00' ∈ path.text := Path.null_mem_text_iff.mpr ⟨name, hm, hc⟩
    simp [hmem] at hnull

theorem writeBytes (h : tree.Proper) {path : Path} {bytes : List UInt8}
    (hok : tree.writeBytes path bytes = .ok tree') : tree'.Proper := by
  unfold FileTree.writeBytes at hok
  split at hok
  · cases hok
  rename_i hnull
  split at hok
  · cases hok
  rename_i loc hlocate
  have hnames : AreNames loc := (locate_eq_ok hlocate).1 ▸ h.areNames_place (Bool.eq_false_iff.mpr hnull)
  split at hok
  · cases hok
  · rename_i old hold
    obtain ⟨-, rfl⟩ := putAt_eq_ok_iff.mp hok
    exact h.put hnames (ne_nil_of_get?_ne (by rw [hold]; nofun)) (h.get?_dropLast (by rw [hold]; nofun))
      (by rw [hold]; nofun)
  · rename_i hnone
    split at hok
    · rename_i hparent
      obtain ⟨-, rfl⟩ := putAt_eq_ok_iff.mp hok
      exact h.put hnames (ne_nil_of_get?_none hnone) hparent (by rw [hnone]; nofun)
    · cases hok
    · cases hok

/-- A walk to where nothing is comes from a directory. -/
theorem get?_dropLast_of_walk (h : tree.Proper) :
    ∀ {names : List Text} {loc target : Location}, tree.walk loc names = .ok target →
      tree.get? loc = some .directory → tree.get? target = none →
        tree.get? target.dropLast = some .directory
  | [], loc, target, hwalk, hdir, hnone => by
    cases hwalk
    rw [hdir] at hnone
    cases hnone
  | name :: rest, loc, target, hwalk, hdir, hnone => by
    unfold walk at hwalk
    cases hstep : tree.step loc name with
    | error cause => rw [hstep] at hwalk; cases hwalk
    | ok further =>
      rw [hstep] at hwalk
      by_cases hfurther : tree.get? further = some .directory
      · exact h.get?_dropLast_of_walk hwalk hfurther hnone
      · -- only the last name may lead to what is no directory
        cases rest with
        | cons next rest =>
          change tree.walk further (next :: rest) = .ok target at hwalk
          unfold walk at hwalk
          cases hnext : tree.step further next with
          | error cause => rw [hnext] at hwalk; cases hwalk
          | ok _ => exact absurd (step_eq_ok hnext).2 hfurther
        | nil =>
          cases hwalk
          obtain ⟨rfl, -⟩ := step_eq_ok hstep
          unfold next at hnone ⊢
          split
          · rename_i hdots
            rw [if_pos hdots] at hnone
            rw [h.get?_dropLast (by rw [hdir]; exact Option.some_ne_none _)] at hnone
            cases hnone
          · rwa [List.dropLast_concat]

theorem get?_start (h : tree.Proper) (path : Path) : tree.get? (tree.start path) = some .directory := by
  unfold start
  split
  · exact h.workDir
  · rfl

theorem makeDirectory (h : tree.Proper) {path : Path} (hok : tree.makeDirectory path = .ok tree') :
    tree'.Proper := by
  unfold FileTree.makeDirectory at hok
  split at hok
  · cases hok
  rename_i hnull
  split at hok
  · cases hok
  rename_i loc hlocate
  have hnames : AreNames loc := (locate_eq_ok hlocate).1 ▸ h.areNames_place (Bool.eq_false_iff.mpr hnull)
  split at hok
  · cases hok
  · rename_i hnone
    obtain ⟨-, rfl⟩ := putAt_eq_ok_iff.mp hok
    refine h.put hnames (ne_nil_of_get?_none hnone) ?_ fun _ => rfl
    unfold locate at hlocate
    split at hlocate
    · cases hlocate
    · exact h.get?_dropLast_of_walk hlocate (h.get?_start path) hnone

theorem ensureDirectoryUpTo : ∀ (depth : Nat) {tree : FileTree} (path : Path), tree.Proper →
    (FileTree.ensureDirectoryUpTo depth tree path).1.Proper
  | depth, tree, path, h => by
    unfold FileTree.ensureDirectoryUpTo
    split
    · rename_i hmake
      exact h.makeDirectory hmake
    · cases depth with
      | zero => exact h
      | succ depth =>
        have habove := ensureDirectoryUpTo depth path.parent h
        dsimp only
        generalize FileTree.ensureDirectoryUpTo depth tree path.parent = above at habove
        obtain ⟨tree', _ | _⟩ := above
        · exact habove
        · dsimp only
          split
          · rename_i hmake
            exact habove.makeDirectory hmake
          · exact habove
          · rw [orPresent_fst]
            exact habove
    · rw [orPresent_fst]
      exact h

theorem ensureDirectory (h : tree.Proper) (path : Path) : (tree.ensureDirectory path).1.Proper :=
  ensureDirectoryUpTo _ path h

/-! ## Paths to what is there -/

/-- A path without `..` leads down from where it starts. -/
theorem leadsDown_of_not_mem (h : tree.Proper) {path : Path} (hdots : ['.', '.'] ∉ path.parts) :
    tree.LeadsDown path :=
  ⟨[], path.parts, rfl, hdots, fun l hl => by rw [List.mem_singleton.mp hl, h.get?_start]⟩

/-- Down to a directory all locations on the way are directories. -/
theorem get?_of_mem_wayFrom (h : tree.Proper) {l : Location} :
    ∀ {names : List Text} {loc : Location}, ['.', '.'] ∉ names →
      tree.get? (loc ++ names) = some .directory → l ∈ wayFrom loc names → tree.get? l = some .directory
  | [], loc, _, hdir, hl => by
    rwa [List.mem_singleton.mp hl, ← List.append_nil loc]
  | name :: rest, loc, hdots, hdir, hl => by
    have hname : name ≠ ['.', '.'] := fun e => hdots (e ▸ List.mem_cons_self)
    rcases List.mem_cons.mp hl with rfl | hl
    · exact h.get?_of_below (by rw [hdir]; nofun) (List.cons_ne_nil name rest)
    · rw [next, if_neg hname] at hl
      have hdir' : tree.get? (loc ++ [name] ++ rest) = some .directory := by rwa [List.append_assoc]
      exact h.get?_of_mem_wayFrom (fun hm => hdots (List.mem_cons_of_mem _ hm)) hdir' hl

/-- Names on a way past directories have no null characters. -/
theorem null_not_mem_of_way (h : tree.Proper) :
    ∀ {names : List Text} {loc : Location}, (∀ l ∈ wayFrom loc names, tree.get? l = some .directory) →
      ∀ name ∈ names, '\x00' ∉ name
  | [], _, _, _, hm => absurd hm List.not_mem_nil
  | first :: rest, loc, hway, name, hm => by
    have hrest : ∀ l ∈ wayFrom (next loc first) rest, tree.get? l = some .directory :=
      fun l hl => hway l (List.mem_cons_of_mem _ hl)
    rcases List.mem_cons.mp hm with rfl | hm
    · by_cases hdots : name = ['.', '.']
      · rw [hdots]
        decide
      · have hnext := hrest _ (start_mem_wayFrom _ _)
        rw [next, if_neg hdots] at hnext
        exact (h.areNames (by rw [hnext]; nofun) name (by simp)).2
    · exact h.null_not_mem_of_way hrest name hm

/-- **A path that leads down leads to the directory at its place**, unless it is too long. -/
theorem locate_of_place (h : tree.Proper) {path : Path} (hdown : tree.LeadsDown path)
    (hdir : tree.get? (tree.place path) = some .directory) :
    tree.Opens path (tree.place path) ∨
      path.text.contains '\x00' = false ∧ tree.locate path = .error .nameTooLong := by
  have hway : ∀ l ∈ tree.way path, tree.get? l = some .directory := by
    obtain ⟨base, rest, hparts, hdots, hdirs⟩ := hdown
    rw [place, hparts, follow_append, follow_of_not_mem _ hdots] at hdir
    intro l hl
    rw [way, hparts, mem_wayFrom_append] at hl
    exact hl.elim (hdirs l) (h.get?_of_mem_wayFrom hdots hdir)
  have hnull : path.text.contains '\x00' = false := by
    refine Bool.eq_false_iff.mpr fun hc => ?_
    obtain ⟨part, hm, hpart⟩ := Path.null_mem_text_iff.mp (by simpa using hc)
    exact h.null_not_mem_of_way hway part hm hpart
  by_cases hlong : pathLimit ≤ (Utf8.encode path.text).length
  · exact .inr ⟨hnull, by rw [locate, if_pos hlong]⟩
  · have hlocate : tree.locate path = tree.walk (tree.start path) path.parts := by
      rw [locate, if_neg hlong]
      rfl
    rcases walk_of_directories hway with hwalk | hwalk
    · exact .inl ⟨hnull, hlocate.trans hwalk, hdir⟩
    · exact .inr ⟨hnull, hlocate.trans hwalk⟩

end Proper

end

end FileTree

/-! ## Globs that select directories only -/

namespace Glob

variable {tree : FileTree} {out : Path} {loc : Location}

/-- What is listed as a directory is no file. -/
theorem isFile_of_mem_directoriesAt (hproper : tree.Proper) (h : tree.Opens out loc) {path : Path}
    (hpath : path ∈ directoriesAt tree out) : tree.isFile path ≠ .ok true := by
  intro hfile
  unfold FileTree.isFile at hfile
  obtain ⟨bytes, hprobe⟩ : ∃ bytes, tree.probe path = .ok (some (.file bytes)) := by
    cases hp : tree.probe path with
    | error fault => rw [hp] at hfile; cases hfile
    | ok found =>
      rw [hp] at hfile
      simp only [bind, Except.bind] at hfile
      split at hfile
      · rename_i bytes
        exact ⟨bytes, rfl⟩
      · cases hfile
  obtain ⟨l, hlocate, hget⟩ := FileTree.entryAt_eq_ok (FileTree.probe_eq_some hprobe).2
  unfold directoriesAt at hpath
  rw [h.locate] at hpath
  rcases List.mem_cons.mp hpath with rfl | hpath
  · rw [h.locate] at hlocate
    cases hlocate
    rw [h.directory] at hget
    cases hget
  · obtain ⟨e, he, hsome⟩ := List.mem_filterMap.mp hpath
    split at hsome
    · rename_i hdir
      simp only [Bool.and_eq_true, decide_eq_true_eq, List.isPrefixOf_iff_prefix] at hdir
      obtain ⟨⟨hentry, rest, hrest⟩, -⟩ := hdir
      -- the path names the location that is listed
      have hl : l = e.1 := by
        have hdots : ['.', '.'] ∉ rest := by
          intro hm
          exact (hproper.named e he _ (hrest ▸ List.mem_append_right _ hm)).1 rfl
        rw [(FileTree.locate_eq_ok hlocate).1, ← Option.some.inj hsome, ← hrest, List.drop_left]
        show FileTree.follow (tree.start out) (out.parts ++ rest) = _
        rw [FileTree.follow, List.foldl_append, h.place]
        exact FileTree.follow_of_not_mem _ hdots
      rw [hl, hproper.seen e he, hentry] at hget
      cases hget
    · cases hsome

/-- **A glob with two stars side by side and no slash selects no file.** -/
theorem files_of_hasTwoStars (hproper : tree.Proper) (h : tree.Opens out loc) {t : Text}
    (ht : hasTwoStars t = true) (hslash : '/' ∉ t) {paths : List Path} (hfiles : files tree out t = .ok paths) :
    paths = [] := by
  have hnil : t ≠ [] := by rintro rfl; exact Bool.noConfusion ht
  have hdot : t ≠ ['.'] := by rintro rfl; exact absurd ht (by decide)
  have hhead : t.head? ≠ some '/' := fun e => hslash (List.mem_of_head? e)
  have hlast : t.getLast? ≠ some '/' := fun e => hslash (List.mem_of_getLast? e)
  have hcomponents := Path.components_of_not_mem hslash hnil hdot
  by_cases htwo : t = ['*', '*']
  · have hread : read t = .ok ⟨[.directories], false⟩ := by
      have hcomponent : component t = .ok .directories := by simp [component, htwo]
      simp [read, hhead, hlast, hcomponents, hcomponent, bind, Except.bind, pure, Except.pure]
    have hselect : selectFrom tree false [.directories] out =
        .ok ((directoriesAt tree out).map fun path => [path]).flatten.eraseDups := by
      simp only [selectFrom, mapM_ok, bind, Except.bind, pure, Except.pure]
    unfold files select at hfiles
    rw [hread, FileTree.isDirectory_of_opens h] at hfiles
    simp only [bind, Except.bind, if_true, hselect] at hfiles
    rcases filterM_except (fun path => tree.isFile path)
      (((directoriesAt tree out).map fun path => [path]).flatten.eraseDups) with ⟨-, -, e, -, he⟩ | ⟨-, hkept⟩
    · rw [he] at hfiles
      cases hfiles
    · have hnone : (((directoriesAt tree out).map fun path => [path]).flatten.eraseDups).filter
          (fun path => (tree.isFile path).toOption.getD false) = [] := by
        refine List.filter_eq_nil_iff.mpr fun path hpath => ?_
        have hm : path ∈ directoriesAt tree out := by
          rw [List.mem_eraseDups, List.mem_flatten] at hpath
          obtain ⟨singleton, hsingleton, hpath⟩ := hpath
          obtain ⟨path', hpath', rfl⟩ := List.mem_map.mp hsingleton
          rwa [List.mem_singleton.mp hpath]
        have hfile := isFile_of_mem_directoriesAt hproper h hm
        cases hanswer : tree.isFile path with
        | error fault => simp [Except.toOption]
        | ok b =>
          cases b with
          | false => simp [Except.toOption]
          | true => exact absurd hanswer hfile
      rw [hkept, hnone] at hfiles
      cases hfiles
      exact List.mergeSort_nil
  · have hread : read t = .error .misplacedStars := by
      have hcomponent : component t = .error .misplacedStars := by simp [component, htwo, ht]
      simp [read, hhead, hcomponents, hcomponent, bind, Except.bind]
    simp [files, select, hread, bind, Except.bind] at hfiles

end Glob

end FlowTypes
