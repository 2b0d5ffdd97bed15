import FlowTypes.FileTree
import FlowTypes.Text.Occurrence
import FlowTypes.Text.Quoted

/-!
# Sanitizing interface definitions

The generator rejects some extended attributes of the definitions. Each of them is known by its literal
text and gives way to a comment, its marker, before the generator sees the definitions. A marker fits on
one line, so line numbers stay as they are.

Definitions are files whose bytes need not be a text. They are sanitized as characters and stray bytes,
so everything outside the elided attributes keeps its bytes (`sanitizeBytes`).

The sanitized definitions live in a directory of their own, which is there only while they are used
(`withCopy`).
-/

namespace FlowTypes.Idl

/-! ## Elided attributes -/

/-- An attribute that the generator rejects, by its literal text, and the comment in its place. -/
structure ElidedAttribute where
  pattern : Text
  marker : Text
  deriving DecidableEq, Repr

/-- The attributes that the generator rejects. -/
def elidedAttributes : List ElidedAttribute := [
  ⟨"[Prefix=\"gdjs::\"]", "/* Removed gdjs prefix */"⟩,
  ⟨"[Prefix=\"gd::InstructionMetadata::\"]", "/* Removed gd::InstructionMetadata prefix */"⟩]

/-- A marker with a line feed in it. -/
structure MarkerFault where
  marker : Text
  deriving DecidableEq, Repr

/-- The fault in words. -/
def MarkerFault.message (f : MarkerFault) : Text :=
  "Marker must fit on one line: " ++ Text.quoted f.marker

/-- The first marker with a line feed in it is a fault. -/
def checkMarkers (attributes : List ElidedAttribute) : Except MarkerFault Unit :=
  match attributes.find? (·.marker.contains '\n') with
  | some elided => .error ⟨elided.marker⟩
  | none => .ok ()

/-! ## Sanitizing -/

/-- For one pair after the other, the occurrences of its first part become its second part. -/
def replaceEach {α : Type} [DecidableEq α] (pairs : List (List α × List α)) (whole : List α) : List α :=
  pairs.foldl (fun done pair => Occurrence.replaceAll pair.1 pair.2 done) whole

/-- The text with markers in place of the attributes. -/
def sanitize (attributes : List ElidedAttribute) (t : Text) : Except MarkerFault Text := do
  checkMarkers attributes
  pure (replaceEach (attributes.map fun a => (a.pattern, a.marker)) t)

/-- The characters and stray bytes with markers in place of the attributes. -/
def sanitizeItems (attributes : List ElidedAttribute) (items : List Utf8.Item) :
    Except MarkerFault (List Utf8.Item) := do
  checkMarkers attributes
  pure (replaceEach (attributes.map fun a => (Utf8.ofText a.pattern, Utf8.ofText a.marker)) items)

/-- The bytes with markers in place of the attributes. -/
def sanitizeBytes (attributes : List ElidedAttribute) (bytes : List UInt8) :
    Except MarkerFault (List UInt8) := do
  let items ← sanitizeItems attributes (Utf8.units bytes)
  pure (Utf8.encodeUnits items)

/-! ## Sanitized copies -/

/-- The name of the directory of a copy, up to the number at its end. -/
def directoryStem : Text := "gdevelopjs-cleaned-bindings-idl"

/-- The location of the directory with a number. -/
def directoryAt (tree : FileTree) (number : Nat) : Location :=
  let digits := Text.ofNat number
  tree.tempDir ++ [directoryStem ++ List.replicate (8 - digits.length) '0' ++ digits]

/-- The locations where something is or nothing can be written. -/
def taken (tree : FileTree) : List Location := tree.entries.map (·.1) ++ tree.locked

/-- The first directory with a number where nothing is yet and nothing is locked, neither there nor below. -/
def freshDirectory (tree : FileTree) : Location :=
  let numbers := List.range ((taken tree).length + 1)
  let unused (n : Nat) : Bool := (taken tree).all fun loc => !(directoryAt tree n).isPrefixOf loc
  directoryAt tree ((numbers.find? unused).getD 0)

/-- Why there is no sanitized copy. -/
inductive CopyFault where
  | file (fault : FileFault)
  | marker (fault : MarkerFault)
  deriving DecidableEq, Repr

/-- The fault in words. -/
def CopyFault.message : CopyFault → Text
  | file fault => fault.message
  | marker fault => fault.message

/-- A sanitized copy of the definitions at a path is put in a fresh directory, under the name it has, and
used there; then the directory goes away with all that is in it. -/
def withCopy {α : Type} (attributes : List ElidedAttribute) (tree : FileTree) (idl : Path)
    (use : FileTree → Path → FileTree × α) : FileTree × Except CopyFault α :=
  match tree.readBytes idl with
  | .error fault => (tree, .error (.file fault))
  | .ok bytes =>
    match sanitizeBytes attributes bytes with
    | .error fault => (tree, .error (.marker fault))
    | .ok clean =>
      let directory := freshDirectory tree
      let copy := directory ++ [idl.name]
      let used := use ((tree.put directory .directory).put copy (.file clean)) ⟨1, copy⟩
      (used.1.remove directory, .ok used.2)

end FlowTypes.Idl
