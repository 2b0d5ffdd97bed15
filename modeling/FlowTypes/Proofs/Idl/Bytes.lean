import FlowTypes.Proofs.Idl.Copy
import FlowTypes.Proofs.Text.Ascii

/-!
# Sanitized bytes

Definitions are sanitized as characters and stray bytes, but what comes out can be said of their bytes alone, as if
nothing had ever been read. `Elides` is how: for one attribute after the other, the bytes between the occurrences of its
pattern stay in order, and its marker is put between them. This holds of all bytes, as long as the patterns are ASCII
(`sanitizeBytes_eq`), so those who use a copy find just these bytes in it (`withCopy_elides`).

The characters are read once and not again between two attributes. So what one attribute leaves need not be what reading
its bytes would give, and the induction is on characters and stray bytes that come from anywhere, with no stray
byte in the range of ASCII.
-/

namespace FlowTypes.Idl

open Utf8 (IsAscii StraysHigh)

/-- The pattern is a word of ASCII, and the marker fits on one line. -/
def ElidedAttribute.IsPlain (a : ElidedAttribute) : Prop :=
  a.pattern ≠ [] ∧ IsAscii a.pattern ∧ '\n' ∉ a.marker

instance (a : ElidedAttribute) : Decidable a.IsPlain :=
  inferInstanceAs (Decidable (a.pattern ≠ [] ∧ IsAscii a.pattern ∧ '\n' ∉ a.marker))

/-- For one attribute after the other, the bytes between the occurrences of the pattern stay, with the marker between
them. -/
inductive Elides : List ElidedAttribute → List UInt8 → List UInt8 → Prop
  | nil {bytes : List UInt8} : Elides [] bytes bytes
  | cons {a : ElidedAttribute} {attributes : List ElidedAttribute} {bytes clean : List UInt8}
      {gaps : List (List UInt8)} (hgaps : Occurrence.Gaps (Utf8.encode a.pattern) bytes gaps)
      (hrest : Elides attributes ((Utf8.encode a.marker).intercalate gaps) clean) :
      Elides (a :: attributes) bytes clean

/-- The bytes of the patterns, and of the markers that take their places. -/
def bytePairs (attributes : List ElidedAttribute) : List (List UInt8 × List UInt8) :=
  attributes.map fun a => (Utf8.encode a.pattern, Utf8.encode a.marker)

/-! ## All attributes -/

/-- **Replacing bytes elides the attributes**, and nothing else does. -/
theorem elides_iff {attributes : List ElidedAttribute} (h : ∀ a ∈ attributes, a.pattern ≠ [])
    {bytes clean : List UInt8} : Elides attributes bytes clean ↔ clean = replaceEach (bytePairs attributes) bytes := by
  induction attributes generalizing bytes with
  | nil =>
    constructor
    · rintro ⟨⟩
      rfl
    · rintro rfl
      exact .nil
  | cons a attributes ih =>
    have ha := Utf8.encode_ne_nil (h a List.mem_cons_self)
    have ih := @ih fun b hb => h b (List.mem_cons_of_mem a hb)
    have hstep : ∀ gaps, Occurrence.Gaps (Utf8.encode a.pattern) bytes gaps →
        replaceEach (bytePairs (a :: attributes)) bytes =
          replaceEach (bytePairs attributes) ((Utf8.encode a.marker).intercalate gaps) := by
      intro gaps hgaps
      rw [← Occurrence.replaceAll_of_gaps ha _ hgaps]
      rfl
    constructor
    · rintro (_ | ⟨hgaps, hrest⟩)
      rw [ih.mp hrest, hstep _ hgaps]
    · rintro rfl
      obtain ⟨gaps, hgaps⟩ := Occurrence.exists_gaps ha bytes
      exact .cons hgaps (ih.mpr (hstep gaps hgaps))

/-- Replacing items and writing them is replacing bytes. -/
theorem encodeUnits_replaceEach {attributes : List ElidedAttribute} (h : ∀ a ∈ attributes, a.IsPlain)
    {items : List Utf8.Item} (hitems : StraysHigh items) :
    Utf8.encodeUnits
        (replaceEach (attributes.map fun a => (Utf8.ofText a.pattern, Utf8.ofText a.marker)) items) =
      replaceEach (bytePairs attributes) (Utf8.encodeUnits items) := by
  induction attributes generalizing items with
  | nil => rfl
  | cons a attributes ih =>
    obtain ⟨hne, hascii, -⟩ := h a List.mem_cons_self
    obtain ⟨hbytes, hhigh⟩ := Utf8.encodeUnits_replaceAll hascii hne a.marker hitems
    have hrest := ih (fun b hb => h b (List.mem_cons_of_mem a hb)) hhigh
    rw [hbytes] at hrest
    exact hrest

theorem checkMarkers_of_isPlain {attributes : List ElidedAttribute} (h : ∀ a ∈ attributes, a.IsPlain) :
    checkMarkers attributes = .ok () :=
  checkMarkers_eq_ok_iff.mpr fun a ha => (h a ha).2.2

/-- **Sanitizing replaces bytes**, whatever the bytes are. -/
theorem sanitizeBytes_eq {attributes : List ElidedAttribute} (h : ∀ a ∈ attributes, a.IsPlain)
    (bytes : List UInt8) : sanitizeBytes attributes bytes = .ok (replaceEach (bytePairs attributes) bytes) := by
  have hstrays : StraysHigh (Utf8.units bytes) := fun b => Utf8.le_of_stray_mem_units
  have hreplaced := encodeUnits_replaceEach h hstrays
  rw [Utf8.encodeUnits_units] at hreplaced
  rw [sanitizeBytes, sanitizeItems, checkMarkers_of_isPlain h, ← hreplaced]
  rfl

/-! ## Copies -/

/-- **A copy holds the bytes of the definitions with the attributes elided**, and nothing else is different while it is
used. -/
theorem withCopy_elides {attributes : List ElidedAttribute} (h : ∀ a ∈ attributes, a.IsPlain) (tree : FileTree)
    (idl : Path) (bytes : List UInt8) (hread : tree.readBytes idl = .ok bytes) :
    ∃ clean during copy,
      (∀ result, Elides attributes bytes result ↔ result = clean) ∧
      clean = replaceEach (bytePairs attributes) bytes ∧
      copy = freshDirectory tree ++ [idl.name] ∧ during.get? copy = some (.file clean) ∧
      (∀ l, ¬ freshDirectory tree <+: l → during.get? l = tree.get? l) ∧
      ∀ {α : Type} (use : FileTree → Path → FileTree × α), withCopy attributes tree idl use =
        ((use during ⟨1, copy⟩).1.remove (freshDirectory tree), .ok (use during ⟨1, copy⟩).2) := by
  have hcopy : freshDirectory tree ++ [idl.name] ≠ [] := by simp
  refine ⟨_, (tree.put (freshDirectory tree) .directory).put (freshDirectory tree ++ [idl.name])
    (.file (replaceEach (bytePairs attributes) bytes)), _, ?_, rfl, rfl, ?_, ?_, ?_⟩
  · exact fun result => elides_iff fun a ha => (h a ha).1
  · rw [FileTree.get?_put _ _ _ _ hcopy, if_pos rfl]
  · intro l hl
    have hne : l ≠ freshDirectory tree := fun e => hl (e ▸ List.prefix_rfl)
    have hne' : l ≠ freshDirectory tree ++ [idl.name] := fun e => hl (e ▸ List.prefix_append _ _)
    rw [FileTree.get?_put _ _ _ _ hcopy, if_neg hne', FileTree.get?_put _ _ _ _ (freshDirectory_ne_nil tree),
      if_neg hne]
  · intro α use
    simp only [withCopy, hread, sanitizeBytes_eq h bytes]

/-- A file that is no text: a sequence that breaks off, a surrogate, a stray byte and both kinds of line ends stand
around an attribute. -/
def strayTree : FileTree :=
  { entries := [(["Bindings.idl".toList], .file ([0xe2, 0x82] ++ Utf8.encode "[Prefix=\"gdjs::\"]" ++
      [0xed, 0xa0, 0x80, 0x0d, 0x0a, 0x5b, 0xff, 0x0d]))]
    workDir := []
    tempDir := [] }

theorem withCopy_elides_strayTree :
    (∀ a ∈ elidedAttributes, a.IsPlain) ∧
      strayTree.readBytes ⟨0, ["Bindings.idl"]⟩ = .ok ([0xe2, 0x82] ++ Utf8.encode "[Prefix=\"gdjs::\"]" ++
        [0xed, 0xa0, 0x80, 0x0d, 0x0a, 0x5b, 0xff, 0x0d]) ∧
      (withCopy elidedAttributes strayTree ⟨0, ["Bindings.idl"]⟩ fun tree copy => (tree, tree.get? copy.parts)).2 =
        .ok (some (.file ([0xe2, 0x82] ++ Utf8.encode "/* Removed gdjs prefix */" ++
          [0xed, 0xa0, 0x80, 0x0d, 0x0a, 0x5b, 0xff, 0x0d]))) := by
  have hplain : ∀ a ∈ elidedAttributes, a.IsPlain := by decide
  obtain ⟨clean, during, copy, -, hclean, -, hget, -, huse⟩ :=
    withCopy_elides hplain strayTree ⟨0, ["Bindings.idl"]⟩ _ rfl
  refine ⟨hplain, rfl, ?_⟩
  rw [huse, hget, hclean]
  rfl

end FlowTypes.Idl
