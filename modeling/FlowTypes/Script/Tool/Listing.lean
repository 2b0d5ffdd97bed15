import FlowTypes.Script.Field
import FlowTypes.Script.Tool.Files

/-!
# Listing directories

`ls` prints the names in directories, in order, one on a line or in another form. Times are not kept track of,
and neither is who owns what; where they are asked for, all files are the same.
-/

namespace FlowTypes.Script.Tool

open Errand

/-- How names are listed. -/
structure Listing where
  hidden : Bool
  upward : Bool
  long : Bool
  marks : Bool
  slashes : Bool
  quotes : Bool
  commas : Bool
  inRow : Bool
  turned : Bool
  bySize : Bool
  blocks : Bool
  ignored : List Text

/-- The bytes of an entry. -/
def sizeOf : Entry → Nat
  | .file bytes => bytes.length
  | .directory => 4096

/-- The kilobytes that an entry takes. -/
def blocksOf (e : Entry) : Nat := (sizeOf e + 4095) / 4096 * 4

/-- A name as it is shown, with its mark. -/
def Listing.shown (l : Listing) (permitted : Bool) (name : Text) (e : Entry) : Text :=
  let mark : Text := match e with
    | .directory => if l.marks || l.slashes then ['/'] else []
    | .file _ => if l.marks && permitted then ['*'] else []
  (if l.quotes then '"' :: name.flatMap (fun c => if c == '"' || c == '\\' then ['\\', c] else [c]) ++ ['"']
    else name) ++ mark

/-- A line of a long list; the sizes are as wide as the widest one. -/
def Listing.row (l : Listing) (width : Nat) (permitted : Bool) (name : Text) (e : Entry) : Text :=
  let rights : Text := match e with
    | .directory => "drwxr-xr-x 2"
    | .file _ => if permitted then "-rwxr-xr-x 1" else "-rw-r--r-- 1"
  rights ++ " root root " ++ Text.padLeft width (Text.ofNat (sizeOf e)) ++ " Jan  1 00:00 "
    ++ l.shown permitted name e

/-- The entries in the order in which they are listed. -/
def Listing.ordered (l : Listing) (entries : List (Text × Bool × Entry)) : List (Text × Bool × Entry) :=
  let byName := entries.mergeSort fun a b => Text.le a.1 b.1
  let sorted := if l.bySize then byName.mergeSort fun a b => sizeOf b.2.2 ≤ sizeOf a.2.2 else byName
  if l.turned then sorted.reverse else sorted

/-- Entries as they are listed; those of a directory may have a total. -/
def Listing.print (l : Listing) (total : Bool) (entries : List (Text × Bool × Entry)) : Text :=
  let entries := l.ordered entries
  if l.long then
    let width := (entries.map fun e => (Text.ofNat (sizeOf e.2.2)).length).foldl max 0
    (if total then "total " ++ Text.ofNat ((entries.map fun e => blocksOf e.2.2).foldl (· + ·) 0) ++ ['\n'] else [])
      ++ Raw.ofLines (entries.map fun (name, permitted, e) => l.row width permitted name e)
  else
    let blocks (e : Entry) : Text := if l.blocks then Text.ofNat (blocksOf e) ++ [' '] else []
    let names := entries.map fun (name, permitted, e) => blocks e ++ l.shown permitted name e
    let totals : Text := if l.blocks && total then
      "total " ++ Text.ofNat ((entries.map fun e => blocksOf e.2.2).foldl (· + ·) 0) ++ ['\n'] else []
    if names.isEmpty then totals
    else if l.commas then totals ++ Text.join [',', ' '] names ++ ['\n']
    else if l.inRow then totals ++ Text.join [' ', ' '] names ++ ['\n']
    else totals ++ Raw.ofLines names

/-- What is listed of a directory. -/
def Listing.contents (l : Listing) (tree : FileTree) (permitted : List Location) (loc : Location) :
    List (Text × Bool × Entry) :=
  let ups : List (Text × Bool × Entry) :=
    if l.upward then [(['.'], false, .directory), (['.', '.'], false, .directory)] else []
  ups ++ (tree.namesIn loc).filterMap fun name =>
    let raw := Raw.ofText name
    let skipped := (!l.hidden && raw.head? = some '.')
      || l.ignored.any fun t => Field.fits (t.map (·, false)) raw
    if skipped then none
    else (tree.get? (loc ++ [name])).map fun e => (raw, permitted.contains (loc ++ [name]), e)

/-- Directories with those below them, each with its path. -/
def withInner (l : Listing) (tree : FileTree) (permitted : List Location) :
    (fuel : Nat) → Text × Location → List (Text × Location)
  | 0, d => [d]
  | fuel + 1, (path, loc) =>
    let inner := (l.ordered (l.contents tree permitted loc)).filter fun (name, _, e) =>
      e = .directory && name != ['.'] && name != ['.', '.']
    (path, loc) :: inner.flatMap fun (name, _, _) =>
      withInner l tree permitted fuel (inside path name, loc ++ [Raw.toText name])

/-- Prints the names in directories. -/
def ls : Tool := fun _ _ words => do
  let tool := words.headD []
  let known : Known := ⟨"aAbBcCdDfFgGhHiI:klLmnNopqQrRsStT:uUvw:xXZ1Y::", [("all", 'a'), ("almost-all", 'A'),
    ("directory", 'd'), ("classify", 'F'), ("human-readable", 'h'), ("reverse", 'r'), ("recursive", 'R'),
    ("quote-name", 'Q'), ("size", 's'), ("color", 'Y'), ("sort", 'Y'), ("ignore", 'I'),
    ("ignore-backups", 'B'), ("numeric-uid-gid", 'n'), ("inode", 'i'), ("group-directories-first", 'Z')]⟩
  let (given, names) ← options known 2 words
  let l : Listing :=
    { hidden := has given 'a' || has given 'A' || has given 'f'
      upward := has given 'a' || has given 'f'
      long := ['l', 'n', 'g', 'o'].any (has given)
      marks := has given 'F'
      slashes := has given 'p'
      quotes := has given 'Q'
      commas := has given 'm'
      inRow := has given 'C' || has given 'x'
      turned := has given 'r'
      bySize := has given 'S'
      blocks := has given 's'
      ignored := argumentsOf given 'I' ++ (if has given 'B' then [("*~" : Text)] else []) }
  let (tree, permitted) ← (fun next => .look fun tree permitted => next (tree, permitted) :
    Errand (FileTree × List Location))
  let found (name : Text) : Except Refusal (Location × Entry) :=
    match System.locate tree name with
    | .ok (loc, some e) => .ok (loc, e)
    | .ok (_, none) => .error .noSuchEntry
    | .error cause => .error cause
  let all := if names.isEmpty then [(['.'] : Text)] else names
  let status ← complaints tool found 0 all
  let there := all.filterMap fun name => (found name).toOption.map (name, ·)
  let plain := there.filter fun (_, _, e) => e != .directory || has given 'd'
  let directories := (l.ordered ((there.filter fun (_, _, e) => e = .directory && !has given 'd').map
    fun (name, loc, e) => (name, permitted.contains loc, e))).filterMap fun (name, _, _) =>
      (there.find? (·.1 = name)).map fun (name, loc, _) => (name, loc)
  let directories := if has given 'R' then
      directories.flatMap (withInner l tree permitted (tree.entries.length + 1))
    else directories
  let first := l.print false (plain.map fun (name, loc, e) => (name, permitted.contains loc, e))
  let titled := 1 < all.length || 1 < directories.length || has given 'R'
  let parts := directories.map fun (path, loc) =>
    (if titled then path ++ ":\n" else []) ++ l.print true (l.contents tree permitted loc)
  write 1 (Text.join ['\n'] ((if plain.isEmpty then [] else [first]) ++ parts))
  return status
where
  /-- Names that lead nowhere are complained about. -/
  complaints (tool : Text) (found : Text → Except Refusal (Location × Entry)) (status : Nat) :
      List Text → Errand Nat
    | [] => return status
    | name :: rest => do
      match found name with
      | .ok _ => complaints tool found status rest
      | .error cause =>
        complain (tool ++ ": cannot access " ++ inQuotes name ++ ": " ++ cause.words)
        complaints tool found 2 rest

end FlowTypes.Script.Tool
