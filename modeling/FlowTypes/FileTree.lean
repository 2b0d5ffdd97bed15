import FlowTypes.FileTree.Fault
import FlowTypes.Text.LineEnd

/-!
# File trees

A file tree is a finite map from locations to files and directories, seen from a working directory. A
location is the list of names from the root down; the root is a directory whether it is listed or not.

Paths are walked name by name: a name is looked up only in a directory, `..` leads to the directory
above, and only the last name may lead to a place that is still empty. Every operation is a function
from trees to trees, and `get?` tells all there is to know about one: `get?_put` and `get?_remove` say
what writing and removing do to it.

Some locations may be locked. The system lets nobody write a file or make a directory there; reading a
locked file is not refused.
-/

namespace FlowTypes

/-- The names from the root down to an entry. -/
abbrev Location := List Text

/-- A file with its bytes, or a directory. -/
inductive Entry where
  | file (bytes : List UInt8)
  | directory
  deriving DecidableEq, Repr

/-- Files and directories by their locations, a working directory, a directory for temporary files, and
the locations where nothing can be written. -/
structure FileTree where
  entries : List (Location × Entry)
  workDir : Location
  tempDir : Location
  locked : List Location := []
  deriving DecidableEq, Repr

namespace FileTree

/-! ## Entries -/

/-- The entry at a location. -/
def get? (tree : FileTree) (loc : Location) : Option Entry :=
  match loc with
  | [] => some .directory
  | _ => tree.entries.lookup loc

/-- The entry at a location becomes this one. -/
def put (tree : FileTree) (loc : Location) (entry : Entry) : FileTree :=
  { tree with entries := (loc, entry) :: tree.entries.filter (·.1 != loc) }

/-- The entry at a location becomes this one, on behalf of who uses a path, unless the location is
locked. -/
def putAt (tree : FileTree) (path : Path) (loc : Location) (entry : Entry) : Except FileFault FileTree :=
  if tree.locked.contains loc then .error (.refused .permissionDenied path.text)
  else .ok (tree.put loc entry)

/-- The entry at a location and all below it go away. -/
def remove (tree : FileTree) (loc : Location) : FileTree :=
  { tree with entries := tree.entries.filter (fun e => !loc.isPrefixOf e.1) }

/-- The names in a directory, in ascending order, each one once. -/
def namesIn (tree : FileTree) (loc : Location) : List Text :=
  Text.sortedDistinct <| tree.entries.filterMap fun e =>
    if e.1.dropLast = loc then e.1.getLast? else none

/-! ## Walking paths -/

/-- The most bytes in a name. -/
def nameLimit : Nat := 255

/-- A path may have fewer bytes than this. -/
def pathLimit : Nat := 4096

/-- One name further from a location, which must be a directory. -/
def step (tree : FileTree) (loc : Location) (name : Text) : Except Refusal Location :=
  match tree.get? loc with
  | none => .error .noSuchEntry
  | some (.file _) => .error .notDirectory
  | some .directory =>
    if name = ['.', '.'] then .ok loc.dropLast
    else if nameLimit < (Utf8.encode name).length then .error .nameTooLong
    else .ok (loc ++ [name])

/-- Names further from a location; where the last one leads need not exist. -/
def walk (tree : FileTree) (loc : Location) : List Text → Except Refusal Location
  | [] => .ok loc
  | name :: rest => do
    let next ← tree.step loc name
    tree.walk next rest

/-- The location of a path, from the working directory unless it has leading slashes. -/
def locate (tree : FileTree) (path : Path) : Except Refusal Location :=
  if pathLimit ≤ (Utf8.encode path.text).length then .error .nameTooLong
  else tree.walk (if path.slashes = 0 then tree.workDir else []) path.parts

/-- The entry that a path leads to. -/
def entryAt (tree : FileTree) (path : Path) : Except Refusal Entry := do
  let loc ← tree.locate path
  match tree.get? loc with
  | some entry => pure entry
  | none => throw .noSuchEntry

/-! ## Questions -/

/-- Causes that only mean that nothing is there. -/
def meansAbsent : Refusal → Bool
  | .noSuchEntry | .notDirectory => true
  | _ => false

/-- The entry at a path, if there is one. A name that is too long is refused instead of absent. -/
def probe (tree : FileTree) (path : Path) : Except FileFault (Option Entry) :=
  if path.text.contains '\x00' then .ok none
  else
    match tree.entryAt path with
    | .ok entry => .ok (some entry)
    | .error cause => if meansAbsent cause then .ok none else .error (.refused cause path.text)

/-- Whether something is there. -/
def pathExists (tree : FileTree) (path : Path) : Except FileFault Bool := do
  return (← tree.probe path).isSome

/-- Whether a file is there. -/
def isFile (tree : FileTree) (path : Path) : Except FileFault Bool := do
  match ← tree.probe path with
  | some (.file _) => pure true
  | _ => pure false

/-- Whether a directory is there. -/
def isDirectory (tree : FileTree) (path : Path) : Except FileFault Bool := do
  match ← tree.probe path with
  | some .directory => pure true
  | _ => pure false

/-! ## Reading and writing -/

/-- The bytes of the file at a path. -/
def readBytes (tree : FileTree) (path : Path) : Except FileFault (List UInt8) :=
  if path.text.contains '\x00' then .error .nullByte
  else
    match tree.entryAt path with
    | .ok (.file bytes) => .ok bytes
    | .ok .directory => .error (.refused .isDirectory path.text)
    | .error cause => .error (.refused cause path.text)

/-- The text of some bytes, with unified line ends. -/
def textOf (bytes : List UInt8) : Except FileFault Text :=
  match Utf8.decode bytes with
  | .ok t => .ok (Text.unifyLineEnds t)
  | .error fault => .error (.notText fault)

/-- The text of the file at a path, with unified line ends. -/
def readText (tree : FileTree) (path : Path) : Except FileFault Text := do
  textOf (← tree.readBytes path)

/-- The file at a path gets these bytes; it is made if only its directory is there. -/
def writeBytes (tree : FileTree) (path : Path) (bytes : List UInt8) : Except FileFault FileTree :=
  if path.text.contains '\x00' then .error .nullByte
  else
    match tree.locate path with
    | .error cause => .error (.refused cause path.text)
    | .ok loc =>
      match tree.get? loc with
      | some .directory => .error (.refused .isDirectory path.text)
      | some (.file _) => tree.putAt path loc (.file bytes)
      | none =>
        match tree.get? loc.dropLast with
        | some .directory => tree.putAt path loc (.file bytes)
        | some (.file _) => .error (.refused .notDirectory path.text)
        | none => .error (.refused .noSuchEntry path.text)

/-- The file at a path gets this text, line feeds as they are. -/
def writeText (tree : FileTree) (path : Path) (t : Text) : Except FileFault FileTree :=
  tree.writeBytes path (Utf8.encode t)

/-! ## Directories -/

/-- A new directory at a path whose parent is there. -/
def makeDirectory (tree : FileTree) (path : Path) : Except FileFault FileTree :=
  if path.text.contains '\x00' then .error .nullByte
  else
    match tree.locate path with
    | .error cause => .error (.refused cause path.text)
    | .ok loc =>
      match tree.get? loc with
      | some _ => .error (.refused .alreadyThere path.text)
      | none => tree.putAt path loc .directory

/-- A refusal to make a directory is no fault if the directory is there. -/
def orPresent (tree : FileTree) (path : Path) (fault : FileFault) : FileTree × Except FileFault Unit :=
  match fault with
  | .refused _ _ =>
    match tree.isDirectory path with
    | .ok true => (tree, .ok ())
    | .ok false => (tree, .error fault)
    | .error e => (tree, .error e)
  | _ => (tree, .error fault)

/-- The directory at a path and those above it are made where they are missing. The tree is also given
when this fails, since some of them may have been made by then. `depth` counts the components. -/
def ensureDirectoryUpTo (depth : Nat) (tree : FileTree) (path : Path) :
    FileTree × Except FileFault Unit :=
  match tree.makeDirectory path with
  | .ok tree => (tree, .ok ())
  | .error (.refused .noSuchEntry p) =>
    match depth with
    | 0 => (tree, .error (.refused .noSuchEntry p))
    | depth + 1 =>
      -- the directory above first, and then this one once more
      match ensureDirectoryUpTo depth tree path.parent with
      | (tree, .error fault) => (tree, .error fault)
      | (tree, .ok ()) =>
        match tree.makeDirectory path with
        | .ok tree => (tree, .ok ())
        | .error (.refused .noSuchEntry q) => (tree, .error (.refused .noSuchEntry q))
        | .error fault => tree.orPresent path fault
  | .error fault => tree.orPresent path fault

/-- The directory at a path and those above it are made where they are missing. -/
def ensureDirectory (tree : FileTree) (path : Path) : FileTree × Except FileFault Unit :=
  ensureDirectoryUpTo path.parts.length tree path

/-! ## What the operations do to the view -/

/-- What is written is put at a location that is not locked. -/
theorem putAt_eq_ok_iff {tree tree' : FileTree} {path : Path} {loc : Location} {entry : Entry} :
    tree.putAt path loc entry = .ok tree' ↔ tree.locked.contains loc = false ∧ tree' = tree.put loc entry := by
  unfold putAt
  split
  · rename_i hlocked
    simp [-List.contains_eq_mem, hlocked]
  · rename_i hfree
    simp [-List.contains_eq_mem, hfree, eq_comm]

/-- Nothing is put at a locked location. -/
theorem putAt_eq_error {tree : FileTree} {path : Path} {loc : Location} {entry : Entry} {fault : FileFault}
    (h : tree.putAt path loc entry = .error fault) :
    tree.locked.contains loc = true ∧ fault = .refused .permissionDenied path.text := by
  unfold putAt at h
  split at h
  · rename_i hlocked
    exact ⟨hlocked, (Except.error.inj h).symm⟩
  · cases h

theorem get?_nil (tree : FileTree) : tree.get? [] = some .directory := rfl

theorem lookup_filter_ne (loc loc' : Location) (h : loc' ≠ loc) (entries : List (Location × Entry)) :
    (entries.filter (·.1 != loc)).lookup loc' = entries.lookup loc' := by
  induction entries with
  | nil => rfl
  | cons e entries ih =>
    by_cases he : e.1 = loc
    · have hne : (loc' == e.1) = false := by simpa [he] using h
      rw [List.filter_cons_of_neg (by simp [he]), ih, List.lookup_cons, hne]
    · rw [List.filter_cons_of_pos (by simp [he]), List.lookup_cons, List.lookup_cons, ih]

/-- Writing changes the entry at one location and no other. -/
theorem get?_put (tree : FileTree) (loc loc' : Location) (entry : Entry) (h : loc ≠ []) :
    (tree.put loc entry).get? loc' = if loc' = loc then some entry else tree.get? loc' := by
  cases loc' with
  | nil => simp [get?, Ne.symm h]
  | cons name rest =>
    by_cases he : name :: rest = loc
    · simp [get?, put, he]
    · have hb : (name :: rest == loc) = false := by simpa using he
      simp only [get?, put, List.lookup_cons, hb, if_neg he]
      exact lookup_filter_ne loc _ he tree.entries

/-- Removing empties the location and all below it and changes nothing else. -/
theorem get?_remove (tree : FileTree) (loc loc' : Location) (h : loc ≠ []) :
    (tree.remove loc).get? loc' = if loc <+: loc' then none else tree.get? loc' := by
  cases loc' with
  | nil => simp [get?, h]
  | cons name rest =>
    simp only [get?, remove]
    induction tree.entries with
    | nil => simp
    | cons e entries ih =>
      by_cases hp : loc <+: e.1
      · have hf : (!loc.isPrefixOf e.1) = false := by simpa using List.isPrefixOf_iff_prefix.2 hp
        rw [List.filter_cons_of_neg (by simp [hf]), ih]
        by_cases hq : loc <+: name :: rest
        · simp [hq]
        · have hne : (name :: rest == e.1) = false := by
            simp only [beq_eq_false_iff_ne, ne_eq]
            exact fun e' => hq (e' ▸ hp)
          rw [if_neg hq, if_neg hq, List.lookup_cons, hne]
      · have hf : (!loc.isPrefixOf e.1) = true := by
          simp only [Bool.not_eq_true']
          exact Bool.eq_false_iff.2 (fun e' => hp (List.isPrefixOf_iff_prefix.1 e'))
        rw [List.filter_cons_of_pos (by simp [hf]), List.lookup_cons, List.lookup_cons, ih]
        by_cases hk : (name :: rest == e.1) = true
        · have : name :: rest = e.1 := by simpa using hk
          simp [this, hp]
        · simp [hk]

end FileTree

end FlowTypes
