import FlowTypes.Text

/-!
# Paths

A path is a number of leading slashes and its components. Reading drops empty components and dots and
keeps `..`, since what it leads to depends on the files. One leading slash and two are told apart, three
or more count as one.
-/

namespace FlowTypes

/-- A path: how many slashes it starts with (none, one or two) and its components. -/
structure Path where
  slashes : Nat
  parts : List Text
  deriving DecidableEq, Repr

namespace Path

/-- The pieces between the slashes; the first may be empty. -/
def splitSlash : Text → List Text
  | [] => [[]]
  | c :: rest =>
    if c == '/' then [] :: splitSlash rest
    else
      match splitSlash rest with
      | [] => [[c]]
      | piece :: pieces => (c :: piece) :: pieces

/-- The components of a text: its pieces less the empty ones and the dots. -/
def components (t : Text) : List Text :=
  (splitSlash t).filter fun piece => !piece.isEmpty && piece != ['.']

/-- The path that a text names. -/
def ofText (t : Text) : Path :=
  let leading := (t.takeWhile (· == '/')).length
  ⟨if leading = 2 then 2 else min leading 1, components t⟩

/-- The text of a path; the path without components is a dot. -/
def text (p : Path) : Text :=
  if p.slashes = 0 && p.parts.isEmpty then ['.']
  else List.replicate p.slashes '/' ++ Text.join ['/'] p.parts

/-- The path further down from another; one with leading slashes starts afresh. -/
def join (base further : Path) : Path :=
  if further.slashes = 0 then ⟨base.slashes, base.parts ++ further.parts⟩ else further

/-- One component further down. -/
def child (base : Path) (name : Text) : Path := ⟨base.slashes, base.parts ++ [name]⟩

/-- The last component; there is none in the path of the current directory or of the root. -/
def name (p : Path) : Text := p.parts.getLast?.getD []

/-- The path without its last component. -/
def parent (p : Path) : Path := ⟨p.slashes, p.parts.dropLast⟩

/-- The components with the leading slashes as one more, by which paths are put in order. -/
def sortKey (p : Path) : List Text :=
  if p.slashes = 0 then p.parts else List.replicate p.slashes '/' :: p.parts

/-- The order of paths, component by component. -/
def le (p q : Path) : Bool := Text.leParts p.sortKey q.sortKey

/-- A component that is kept is neither empty nor a dot. -/
theorem mem_components {t piece : Text} (h : piece ∈ components t) : piece ≠ [] ∧ piece ≠ ['.'] := by
  simp only [components, List.mem_filter, Bool.and_eq_true, bne_iff_ne] at h
  exact ⟨by simpa using h.2.1, h.2.2⟩

theorem parts_child (p : Path) (name : Text) : (p.child name).parts = p.parts ++ [name] := rfl

theorem name_child (p : Path) (part : Text) : (p.child part).name = part := by
  simp [name, child]

end Path

end FlowTypes
