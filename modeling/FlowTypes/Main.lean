import FlowTypes.Catalog
import FlowTypes.CommandLine
import FlowTypes.Generator.Launcher

/-!
# The program

The command line on a real disk. What the words name is read into a file tree, the command runs on the tree,
and what it changed there is written back. All that is decided is decided in `Command.execute`; here files
are only fetched and stored.

The tree holds the definitions, the script of the generator, and the whole directory of the declarations,
with the directories above them. Nothing else on the disk is seen.
-/

namespace FlowTypes

/-- What is asked of a disk. -/
structure Disk where
  isDirectory : Location → IO Bool
  namesIn : Location → IO (List Text)
  read : Location → IO (List UInt8)
  write : Location → List UInt8 → IO Unit
  makeDirectory : Location → IO Unit
  remove : Location → IO Unit

namespace Disk

/-- The entry at a location; there is none if the disk does not give it. -/
def entry? (disk : Disk) (loc : Location) : IO (Option Entry) := do
  if ← disk.isDirectory loc then return some .directory
  try
    return some (.file (← disk.read loc))
  catch _ =>
    return none

/-- The tree with the entry at a location. -/
def fetch (disk : Disk) (tree : FileTree) (loc : Location) : IO FileTree := do
  match ← disk.entry? loc with
  | some entry => return tree.put loc entry
  | none => return tree

/-- The tree with all that a directory holds, so many directories deep. -/
def fetchBelow (disk : Disk) : (depth : Nat) → FileTree → Location → IO FileTree
  | 0, tree, _ => return tree
  | depth + 1, tree, loc => do
    if tree.get? loc = some .directory then
      let mut tree := tree
      for name in ← disk.namesIn loc do
        tree ← disk.fetch tree (loc ++ [name])
        tree ← disk.fetchBelow depth tree (loc ++ [name])
      return tree
    else return tree

/-- The tree with the entries on the way along some names, and where they lead to. -/
def fetchAlong (disk : Disk) (tree : FileTree) (loc : Location) : List Text → IO (FileTree × Location)
  | [] => return (tree, loc)
  | name :: rest => do
    let next := if name = ['.', '.'] then loc.dropLast else loc ++ [name]
    let tree ← if next.isEmpty then pure tree else disk.fetch tree next
    disk.fetchAlong tree next rest

/-- The tree with the entries on the way to a path, and the location it leads to. -/
def fetchPath (disk : Disk) (tree : FileTree) (path : Path) : IO (FileTree × Location) :=
  disk.fetchAlong tree (if path.slashes = 0 then tree.workDir else []) path.parts

/-- How deep a directory is read. -/
def depth : Nat := 64

/-- The tree with all that the arguments name. -/
def fetchArguments (disk : Disk) (tree : FileTree) (a : Arguments) : IO FileTree := do
  let (start, _) ← disk.fetchAlong tree [] tree.workDir
  let mut fetched := start
  for path in [a.idl, a.generator].filterMap Given.value? do
    fetched := (← disk.fetchPath fetched path).1
  match a.outputDir with
  | .value path =>
    let (whole, loc) ← disk.fetchPath fetched path
    disk.fetchBelow depth whole loc
  | .nothing => return fetched

/-- What changed from one tree to another is changed on the disk: first what went away, then what came, with
directories before what is in them. -/
def store (disk : Disk) (before after : FileTree) : IO Unit := do
  let gone := before.entries.filter fun e => (after.get? e.1).isNone
  let deepestFirst (a b : Location × Entry) : Bool := decide (b.1.length ≤ a.1.length)
  for (loc, _) in gone.mergeSort deepestFirst do
    disk.remove loc
  let changed := after.entries.filter fun e => before.get? e.1 != some e.2
  for (loc, entry) in (changed.mergeSort deepestFirst).reverse do
    match entry with
    | .directory => disk.makeDirectory loc
    | .file bytes => disk.write loc bytes

end Disk

/-- Runs the command that the words make up. The root of the project lies three names above the program. -/
def runWords (words : List String) : IO UInt32 := do
  let here ← IO.currentDir
  let program ← IO.appPath
  let onDisk := fun (loc : Location) => here / String.ofList ('/' :: Text.join ['/'] loc)
  let disk : Disk :=
    { isDirectory := fun loc => (onDisk loc).isDir
      namesIn := fun loc => do
        return (← (onDisk loc).readDir).toList.map fun entry => entry.fileName.toList
      read := fun loc => do return (← IO.FS.readBinFile (onDisk loc)).toList
      write := fun loc bytes => IO.FS.writeBinFile (onDisk loc) (ByteArray.mk bytes.toArray)
      makeDirectory := fun loc => IO.FS.createDirAll (onDisk loc)
      remove := fun loc => do
        if ← (onDisk loc).isDir then IO.FS.removeDir (onDisk loc) else IO.FS.removeFile (onDisk loc) }
  let root := (Path.ofText program.toString.toList).parent.parent.parent
  let defaults := Arguments.standard root
  let words := words.map String.toList
  let start : FileTree := ⟨[(["tmp"], .directory)], (Path.ofText here.toString.toList).parts, ["tmp"], []⟩
  let before ← match Arguments.read defaults words with
    | .ok a => disk.fetchArguments start a
    | .error _ => pure start
  let command := Command.execute defaults Generator.Launcher.ofConfig Catalog.standard before words
  disk.store before command.tree
  IO.print (String.ofList command.printed)
  IO.eprint (String.ofList command.complaints)
  match command.ending with
  | .status code => return UInt32.ofNat code
  | .escaped failure =>
    IO.eprintln (String.ofList failure.message)
    return 1

end FlowTypes

/-- The program takes the words of the command line. -/
def main (words : List String) : IO UInt32 := FlowTypes.runWords words
