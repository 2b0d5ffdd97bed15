import FlowTypes.Text.Utf8

/-!
# Raw texts

Scripts and the programs that they call pass bytes around and hardly ever ask what they say. A raw text is a
text in which every character stands for one byte, the one with its number. What only holds ASCII is the
same in both readings.

`Raw.ofText` and `Raw.toText` lead from texts to raw texts and back; bytes that say nothing become
replacement characters on the way back.
-/

namespace FlowTypes.Raw

/-- The raw text of some bytes. -/
def ofBytes (bytes : List UInt8) : Text := bytes.map fun b => Char.ofNat b.toNat

/-- The bytes that a raw text stands for. -/
def toBytes (t : Text) : List UInt8 := t.map fun c => UInt8.ofNat c.toNat

/-- A text as a raw text. -/
def ofText (t : Text) : Text := ofBytes (Utf8.encode t)

/-- What a raw text says. -/
def toText (t : Text) : Text := Utf8.decodeLossy (toBytes t)

/-- The number that a text of digits stands for. -/
def natOf (digits : Text) : Nat := digits.foldl (fun n c => n * 10 + (c.toNat - 48)) 0

/-- The number that a text of octal digits stands for. -/
def octalOf (digits : Text) : Nat := digits.foldl (fun n c => n * 8 + (c.toNat - 48)) 0

/-- The number that a text of digits stands for, if it is one. -/
def nat? (t : Text) : Option Nat := if !t.isEmpty && t.all Char.isDigit then some (natOf t) else none

/-- The lines of a raw text without their ends; a line end at the very end begins no further line. -/
def lines (t : Text) : List Text :=
  let rec split (line : Text) : Text → List Text
    | [] => if line.isEmpty then [] else [line.reverse]
    | '\n' :: rest => line.reverse :: split [] rest
    | c :: rest => split (c :: line) rest
  split [] t

/-- Lines as a raw text. -/
def ofLines (lines : List Text) : Text := lines.flatMap (· ++ ['\n'])

/-- A text cut at each of its separators. -/
def fields (separator : Char) (t : Text) : List Text :=
  let rec split (field : Text) : Text → List Text
    | [] => [field.reverse]
    | c :: rest => if c == separator then field.reverse :: split [] rest else split (c :: field) rest
  split [] t

/-- A text without the blanks at its start. -/
def trimStart (t : Text) : Text := t.dropWhile fun c => c == ' ' || c == '\t'

/-- The characters of a raw text that are written with more than one byte, put together; each other byte
stays alone. -/
def chars (t : Text) : List Text :=
  (Utf8.pieces (toBytes t)).flatMap fun piece =>
    match piece with
    | .char c => [ofBytes (String.utf8EncodeChar c)]
    | .broken _ bytes => bytes.map fun b => ofBytes [b]

theorem toBytes_ofBytes (bytes : List UInt8) : toBytes (ofBytes bytes) = bytes := by
  have h (b : UInt8) : UInt8.ofNat (Char.ofNat b.toNat).toNat = b := by
    have hb : b.toNat < 256 := b.toNat_lt
    have hv : Nat.isValidChar b.toNat := Or.inl (by omega)
    have number : (Char.ofNat b.toNat).toNat = b.toNat := by
      rw [Char.ofNat, dif_pos hv]
      rfl
    rw [number, UInt8.ofNat_toNat]
  simp [toBytes, ofBytes, Function.comp_def, h]

end FlowTypes.Raw
