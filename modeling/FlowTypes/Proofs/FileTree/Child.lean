import FlowTypes.Proofs.FileTree.Walk
import FlowTypes.FileTree.Glob

/-!
# Files of a directory

At an open path the files of the directory are reached by one name more. What is read or written under a name is
the entry at that name (`readBytes_child`, `writeBytes_child`), unless the path cannot name it at all
(`Path.reaches`): a path may not hold null bytes, and neither a path nor a name may be too long.

A directory lists exactly the names that have an entry, each one once (`mem_namesIn`, `nodup_namesIn`).
-/

namespace FlowTypes

/-- A name can be looked up in the directory at a path. -/
def Path.reaches (out : Path) (name : Text) : Bool :=
  !(out.child name).text.contains '\x00' &&
    decide ((Utf8.encode (out.child name).text).length < FileTree.pathLimit) &&
      decide ((Utf8.encode name).length ≤ FileTree.nameLimit)

/-- The fault is about an entry that is there: it is a directory, or its bytes are no text. -/
def FileFault.ofEntry : FileFault → Bool
  | refused .isDirectory _ | notText _ => true
  | _ => false

/-- The fault is about the way to an entry: the system refuses it, or there is a null byte in it. -/
inductive FileFault.OnWay : FileFault → Prop
  | refused {cause : Refusal} (path : Text) (h : cause ≠ .isDirectory) : OnWay (.refused cause path)
  | nullByte : OnWay .nullByte

theorem FileFault.OnWay.ofEntry {fault : FileFault} (h : fault.OnWay) : fault.ofEntry = false := by
  cases h with
  | nullByte => rfl
  | @refused cause path h => cases cause <;> first | rfl | contradiction

namespace FileTree

/-! ## Reaching a name -/

section
variable {tree : FileTree} {out : Path} {loc : Location} {name : Text}

theorem locate_child (h : tree.Opens out loc) (hname : name ≠ ['.', '.']) :
    tree.locate (out.child name) =
      if (Utf8.encode (out.child name).text).length < pathLimit ∧ (Utf8.encode name).length ≤ nameLimit then
        .ok (loc ++ [name])
      else .error .nameTooLong := by
  have hwalk : tree.walk (tree.start out) out.parts = .ok loc := by
    have hlocate := h.locate
    unfold locate at hlocate
    split at hlocate
    · cases hlocate
    · exact hlocate
  unfold locate
  by_cases hlong : (Utf8.encode (out.child name).text).length < pathLimit
  · rw [if_neg (Nat.not_le.mpr hlong)]
    show tree.walk (tree.start out) (out.parts ++ [name]) = _
    rw [walk_append, hwalk]
    simp only [bind, Except.bind, walk, step, h.directory, if_neg hname, hlong, true_and]
    by_cases hlimit : (Utf8.encode name).length ≤ nameLimit
    · rw [if_neg (Nat.not_lt.mpr hlimit), if_pos hlimit]
    · rw [if_pos (Nat.not_le.mp hlimit), if_neg hlimit]
  · rw [if_pos (Nat.not_lt.mp hlong), if_neg (fun hc => hlong hc.1)]

theorem reaches_iff : out.reaches name = true ↔ (out.child name).text.contains '\x00' = false ∧
    (Utf8.encode (out.child name).text).length < pathLimit ∧ (Utf8.encode name).length ≤ nameLimit := by
  simp [Path.reaches, and_assoc, -List.contains_eq_mem]

theorem locate_of_reaches (h : tree.Opens out loc) (hname : name ≠ ['.', '.'])
    (hreach : out.reaches name = true) : tree.locate (out.child name) = .ok (loc ++ [name]) := by
  rw [locate_child h hname, if_pos (reaches_iff.mp hreach).2]

/-- A name that cannot be reached is refused as too long, or the path holds a null byte. -/
theorem locate_of_not_reaches (h : tree.Opens out loc) (hname : name ≠ ['.', '.'])
    (hreach : out.reaches name = false) (htext : (out.child name).text.contains '\x00' = false) :
    tree.locate (out.child name) = .error .nameTooLong := by
  rw [locate_child h hname, if_neg]
  exact fun hc => Bool.eq_false_iff.mp hreach (reaches_iff.mpr ⟨htext, hc⟩)

theorem append_ne_nil (loc : Location) (name : Text) : loc ++ [name] ≠ [] := by simp

/-! ## Reading and writing -/

theorem readBytes_child (h : tree.Opens out loc) (hname : name ≠ ['.', '.'])
    (hreach : out.reaches name = true) :
    tree.readBytes (out.child name) =
      match tree.get? (loc ++ [name]) with
      | some (.file bytes) => .ok bytes
      | some .directory => .error (.refused .isDirectory (out.child name).text)
      | none => .error (.refused .noSuchEntry (out.child name).text) := by
  simp only [readBytes, entryAt, (reaches_iff.mp hreach).1, locate_of_reaches h hname hreach, bind,
    Except.bind, Bool.false_eq_true, if_false]
  cases tree.get? (loc ++ [name]) with
  | none => rfl
  | some entry => cases entry <;> rfl

theorem readBytes_of_not_reaches (h : tree.Opens out loc) (hname : name ≠ ['.', '.'])
    (hreach : out.reaches name = false) :
    ∃ fault, tree.readBytes (out.child name) = .error fault ∧ fault.ofEntry = false ∧
      ∀ path, fault ≠ .refused .noSuchEntry path := by
  unfold readBytes
  cases htext : (out.child name).text.contains '\x00' with
  | true => exact ⟨_, rfl, rfl, nofun⟩
  | false =>
    refine ⟨.refused .nameTooLong (out.child name).text, ?_, rfl, nofun⟩
    simp [entryAt, locate_of_not_reaches h hname hreach htext, bind, Except.bind]

theorem writeBytes_child (h : tree.Opens out loc) (hname : name ≠ ['.', '.'])
    (hreach : out.reaches name = true) (bytes : List UInt8) :
    tree.writeBytes (out.child name) bytes =
      if tree.get? (loc ++ [name]) = some .directory then
        .error (.refused .isDirectory (out.child name).text)
      else tree.putAt (out.child name) (loc ++ [name]) (.file bytes) := by
  simp only [writeBytes, (reaches_iff.mp hreach).1, locate_of_reaches h hname hreach, Bool.false_eq_true,
    if_false, List.dropLast_concat, h.directory]
  cases tree.get? (loc ++ [name]) with
  | none => rfl
  | some entry => cases entry <;> rfl

theorem writeBytes_of_not_reaches (h : tree.Opens out loc) (hname : name ≠ ['.', '.'])
    (hreach : out.reaches name = false) (bytes : List UInt8) :
    ∃ fault, tree.writeBytes (out.child name) bytes = .error fault ∧ fault.ofEntry = false := by
  unfold writeBytes
  cases htext : (out.child name).text.contains '\x00' with
  | true => exact ⟨_, rfl, rfl⟩
  | false =>
    refine ⟨.refused .nameTooLong (out.child name).text, ?_, rfl⟩
    simp [locate_of_not_reaches h hname hreach htext]

/-- Whether a name is a file. Nothing is there under a name with a null byte. -/
theorem isFile_child (h : tree.Opens out loc) (hname : name ≠ ['.', '.']) :
    tree.isFile (out.child name) =
      if (out.child name).text.contains '\x00' then .ok false
      else if out.reaches name then
        .ok (match tree.get? (loc ++ [name]) with
          | some (.file _) => true
          | _ => false)
      else .error (.refused .nameTooLong (out.child name).text) := by
  unfold isFile probe entryAt
  cases htext : (out.child name).text.contains '\x00' with
  | true => simp only [if_true]; rfl
  | false =>
    cases hreach : out.reaches name with
    | true =>
      simp only [Bool.false_eq_true, if_false, if_true, locate_of_reaches h hname hreach, bind,
        Except.bind]
      cases tree.get? (loc ++ [name]) with
      | none => rfl
      | some entry => cases entry <;> rfl
    | false =>
      simp only [Bool.false_eq_true, if_false, locate_of_not_reaches h hname hreach htext, bind,
        Except.bind]
      rfl

end

/-! ## Names in a directory -/

theorem lookup_isSome_iff (loc : Location) :
    ∀ entries : List (Location × Entry), (entries.lookup loc).isSome ↔ ∃ e ∈ entries, e.1 = loc
  | [] => by simp
  | e :: entries => by
    rw [List.lookup_cons]
    by_cases he : loc = e.1
    · subst he; simp
    · have hb : (loc == e.1) = false := by simpa using he
      rw [hb]
      simp [lookup_isSome_iff loc entries, Ne.symm he]

/-- **A directory lists the names that have an entry.** -/
theorem mem_namesIn {tree : FileTree} {loc : Location} {name : Text} :
    name ∈ tree.namesIn loc ↔ (tree.get? (loc ++ [name])).isSome := by
  have hget : tree.get? (loc ++ [name]) = tree.entries.lookup (loc ++ [name]) := by
    cases loc <;> rfl
  rw [namesIn, Text.sortedDistinct, List.mem_mergeSort, List.mem_eraseDups, List.mem_filterMap, hget,
    lookup_isSome_iff]
  constructor
  · rintro ⟨⟨at', entry⟩, he, hname⟩
    refine ⟨_, he, ?_⟩
    dsimp only at hname ⊢
    split at hname
    · rename_i hloc
      obtain ⟨front, rfl⟩ := List.getLast?_eq_some_iff.mp hname
      rw [← hloc, List.dropLast_concat]
    · cases hname
  · rintro ⟨⟨at', entry⟩, he, rfl⟩
    exact ⟨_, he, by simp⟩

theorem nodup_eraseDups {α : Type} [BEq α] [LawfulBEq α] : ∀ ts : List α, ts.eraseDups.Nodup
  | [] => by simp
  | t :: ts => by
    have hlength := List.length_filter_le (fun b => !b == t) ts
    rw [List.eraseDups_cons, List.nodup_cons]
    refine ⟨?_, nodup_eraseDups (ts.filter fun b => !b == t)⟩
    rw [List.mem_eraseDups]
    simp
termination_by ts => ts.length
decreasing_by simpa using Nat.lt_succ_of_le hlength

theorem nodup_namesIn (tree : FileTree) (loc : Location) : (tree.namesIn loc).Nodup :=
  (List.mergeSort_perm _ _).nodup_iff.mpr (nodup_eraseDups _)

/-! ## Faults of a way -/

/-- A way ends early where nothing is, at a file, or over a name that is too long. -/
theorem walk_error {tree : FileTree} {cause : Refusal} :
    ∀ {names : List Text} {loc : Location}, tree.walk loc names = .error cause →
      cause = .noSuchEntry ∨ cause = .notDirectory ∨ cause = .nameTooLong
  | name :: rest, loc, h => by
    unfold walk at h
    cases hs : tree.step loc name with
    | error cause' =>
      rw [hs] at h
      cases h
      unfold step at hs
      split at hs
      · cases hs
        exact .inl rfl
      · cases hs
        exact .inr (.inl rfl)
      · split at hs
        · cases hs
        · split at hs <;> cases hs
          exact .inr (.inr rfl)
    | ok further =>
      rw [hs] at h
      exact walk_error h

theorem locate_error {tree : FileTree} {path : Path} {cause : Refusal}
    (h : tree.locate path = .error cause) :
    cause = .noSuchEntry ∨ cause = .notDirectory ∨ cause = .nameTooLong := by
  unfold locate at h
  split at h
  · cases h
    exact .inr (.inr rfl)
  · exact walk_error h

theorem makeDirectory_error {tree : FileTree} {path : Path} {fault : FileFault}
    (h : tree.makeDirectory path = .error fault) : fault.OnWay := by
  unfold makeDirectory at h
  split at h
  · cases h
    exact .nullByte
  · split at h
    · rename_i cause hlocate
      cases h
      rcases locate_error hlocate with rfl | rfl | rfl <;> exact .refused _ nofun
    · split at h
      · cases h
        exact .refused _ nofun
      · obtain ⟨-, rfl⟩ := putAt_eq_error h
        exact .refused _ nofun

theorem entryAt_error {tree : FileTree} {path : Path} {cause : Refusal}
    (h : tree.entryAt path = .error cause) :
    cause = .noSuchEntry ∨ cause = .notDirectory ∨ cause = .nameTooLong := by
  unfold entryAt at h
  cases hlocate : tree.locate path with
  | error cause' =>
    rw [hlocate] at h
    cases h
    exact locate_error hlocate
  | ok loc =>
    simp only [hlocate, bind, Except.bind] at h
    cases hget : tree.get? loc with
    | none => rw [hget] at h; cases h; exact .inl rfl
    | some entry => rw [hget] at h; cases h

/-- **Looking a path up fails only over a name that is too long.** -/
theorem probe_error {tree : FileTree} {path : Path} {fault : FileFault}
    (h : tree.probe path = .error fault) : fault = .refused .nameTooLong path.text := by
  unfold probe at h
  split at h
  · cases h
  · split at h
    · cases h
    · rename_i cause hentry
      split at h
      · cases h
      · rename_i habsent
        cases h
        rcases entryAt_error hentry with rfl | rfl | rfl
        · exact absurd rfl habsent
        · exact absurd rfl habsent
        · rfl

theorem pathExists_error {tree : FileTree} {path : Path} {fault : FileFault}
    (h : tree.pathExists path = .error fault) : fault = .refused .nameTooLong path.text := by
  unfold pathExists at h
  cases hprobe : tree.probe path with
  | error fault' =>
    rw [hprobe] at h
    cases h
    exact probe_error hprobe
  | ok found => rw [hprobe] at h; cases h

/-- A path that the system refuses to look up: it is too long, or a name on it is that has to be looked up in a
directory. -/
def Refuses (tree : FileTree) (path : Path) : Prop :=
  '\x00' ∉ path.text ∧
    (pathLimit ≤ (Utf8.encode path.text).length ∨
      ∃ front name rest, path.parts = front ++ name :: rest ∧ nameLimit < (Utf8.encode name).length ∧
        ∀ loc ∈ wayFrom (tree.start path) front, tree.get? loc = some .directory)

/-- A walk is refused at a name that is too long, in a directory. -/
theorem walk_eq_nameTooLong_iff {tree : FileTree} :
    ∀ {names : List Text} {loc : Location}, tree.walk loc names = .error .nameTooLong ↔
      ∃ front name rest, names = front ++ name :: rest ∧ nameLimit < (Utf8.encode name).length ∧
        ∀ l ∈ wayFrom loc front, tree.get? l = some .directory
  | [], loc => by
    refine ⟨nofun, ?_⟩
    rintro ⟨front, name, rest, hnames, -⟩
    cases front <;> cases hnames
  | first :: more, loc => by
    unfold walk
    constructor
    · intro h
      cases hstep : tree.step loc first with
      | error cause =>
        rw [hstep] at h
        cases h
        obtain ⟨hdir, hlong⟩ := step_eq_nameTooLong_iff.mp hstep
        exact ⟨[], first, more, rfl, hlong, fun l hl => List.mem_singleton.mp hl ▸ hdir⟩
      | ok further =>
        rw [hstep] at h
        obtain ⟨rfl, hdir⟩ := step_eq_ok hstep
        obtain ⟨front, name, rest, rfl, hlong, hway⟩ := walk_eq_nameTooLong_iff.mp h
        refine ⟨first :: front, name, rest, rfl, hlong, fun l hl => ?_⟩
        rcases List.mem_cons.mp hl with rfl | hl
        · exact hdir
        · exact hway l hl
    · rintro ⟨front, name, rest, hnames, hlong, hway⟩
      rcases step_in_directory (hway loc (start_mem_wayFrom _ _)) first with hstep | hstep
      · rw [hstep]
        cases front with
        | nil =>
          cases hnames
          rw [step_eq_nameTooLong_iff.mpr ⟨hway loc (start_mem_wayFrom _ _), hlong⟩] at hstep
          cases hstep
        | cons first' front =>
          cases hnames
          exact walk_eq_nameTooLong_iff.mpr
            ⟨front, name, rest, rfl, hlong, fun l hl => hway l (List.mem_cons_of_mem _ hl)⟩
      · rw [hstep]
        rfl

theorem locate_eq_nameTooLong_iff {tree : FileTree} {path : Path} (hnull : '\x00' ∉ path.text) :
    tree.locate path = .error .nameTooLong ↔ tree.Refuses path := by
  unfold locate
  split
  · rename_i hlong
    exact ⟨fun _ => ⟨hnull, .inl hlong⟩, fun _ => rfl⟩
  · rename_i hshort
    show tree.walk (tree.start path) path.parts = _ ↔ _
    rw [walk_eq_nameTooLong_iff]
    exact ⟨fun h => ⟨hnull, .inr h⟩, fun h => h.2.resolve_left hshort⟩

/-- **Looking a path up fails exactly if the system refuses it.** -/
theorem pathExists_eq_error_iff {tree : FileTree} {path : Path} {fault : FileFault} :
    tree.pathExists path = .error fault ↔ tree.Refuses path ∧ fault = .refused .nameTooLong path.text := by
  constructor
  · intro h
    obtain rfl := pathExists_error h
    refine ⟨?_, rfl⟩
    unfold pathExists probe at h
    split at h
    · cases h
    · rename_i hnull
      refine (locate_eq_nameTooLong_iff (by simpa using hnull)).mp ?_
      cases hentry : tree.entryAt path with
      | ok entry =>
        rw [hentry] at h
        cases h
      | error cause =>
        rw [hentry] at h
        cases cause <;> cases h
        unfold entryAt at hentry
        cases hlocate : tree.locate path with
        | error cause =>
          rw [hlocate] at hentry
          cases hentry
          rfl
        | ok loc =>
          rw [hlocate] at hentry
          simp only [bind, Except.bind] at hentry
          split at hentry <;> cases hentry
  · rintro ⟨hrefuses, rfl⟩
    have hlocate := (locate_eq_nameTooLong_iff hrefuses.1).mpr hrefuses
    simp [pathExists, probe, entryAt, hrefuses.1, hlocate, bind, Except.bind, meansAbsent]

theorem isFile_error {tree : FileTree} {path : Path} {fault : FileFault}
    (h : tree.isFile path = .error fault) : fault = .refused .nameTooLong path.text := by
  unfold isFile at h
  cases hprobe : tree.probe path with
  | error fault' =>
    rw [hprobe] at h
    cases h
    exact probe_error hprobe
  | ok found =>
    simp only [hprobe, bind, Except.bind] at h
    split at h <;> cases h

theorem isDirectory_error {tree : FileTree} {path : Path} {fault : FileFault}
    (h : tree.isDirectory path = .error fault) : fault = .refused .nameTooLong path.text := by
  unfold isDirectory at h
  cases hprobe : tree.probe path with
  | error fault' =>
    rw [hprobe] at h
    cases h
    exact probe_error hprobe
  | ok found =>
    simp only [hprobe, bind, Except.bind] at h
    split at h <;> cases h

theorem orPresent_error {tree : FileTree} {path : Path} {fault fault' : FileFault}
    (hfault : fault.OnWay) (h : (tree.orPresent path fault).2 = .error fault') : fault'.OnWay := by
  unfold orPresent at h
  split at h
  · split at h
    · cases h
    · cases h
      exact hfault
    · rename_i hdir
      cases h
      rw [isDirectory_error hdir]
      exact .refused _ nofun
  · cases h
    exact hfault

/-- **A directory that cannot be made is no matter of the entries in it.** -/
theorem ensureDirectoryUpTo_error : ∀ (depth : Nat) (tree : FileTree) (path : Path) {fault : FileFault},
    (ensureDirectoryUpTo depth tree path).2 = .error fault → fault.OnWay
  | depth, tree, path, fault, h => by
    unfold ensureDirectoryUpTo at h
    split at h
    · cases h
    · cases depth with
      | zero => cases h; exact .refused _ nofun
      | succ depth =>
        have ih := fun {fault} => @ensureDirectoryUpTo_error depth tree path.parent fault
        dsimp only at h
        generalize ensureDirectoryUpTo depth tree path.parent = above at h ih
        obtain ⟨tree', _ | _⟩ := above
        · cases h
          exact ih rfl
        · dsimp only at h
          split at h
          · cases h
          · cases h; exact .refused _ nofun
          · rename_i hmake
            exact orPresent_error (makeDirectory_error hmake) h
    · rename_i hmake
      exact orPresent_error (makeDirectory_error hmake) h

theorem ensureDirectory_error {tree tree' : FileTree} {path : Path} {fault : FileFault}
    (h : tree.ensureDirectory path = (tree', .error fault)) : fault.OnWay :=
  ensureDirectoryUpTo_error path.parts.length tree path (congrArg Prod.snd h)

end FileTree

end FlowTypes
