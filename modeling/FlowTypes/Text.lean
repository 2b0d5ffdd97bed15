/-!
# Texts

A text is the list of its code points, so lengths, positions and orders all count code points. String
literals stand for texts wherever one is expected.

This module holds what the other modules share: joining, padding, decimal numbers and the order of
texts. `Text.le` compares code point by code point, and a text comes before its extensions.
-/

namespace FlowTypes

/-- A text is the list of its code points. -/
abbrev Text := List Char

instance : Coe String Text := ⟨String.toList⟩

namespace Text

/-! ## Putting texts together -/

/-- The parts in order, with the separator between neighbours. -/
def join (separator : Text) : List Text → Text
  | [] => []
  | [part] => part
  | part :: next :: rest => part ++ separator ++ join separator (next :: rest)

/-- Blanks on the right until the width is reached; a text that is wide enough stays as it is. -/
def padRight (width : Nat) (t : Text) : Text :=
  t ++ List.replicate (width - t.length) ' '

/-- Blanks on the left until the width is reached; a text that is wide enough stays as it is. -/
def padLeft (width : Nat) (t : Text) : Text :=
  List.replicate (width - t.length) ' ' ++ t

/-! ## Decimal numbers -/

/-- The decimal digits of a natural number. -/
def ofNat (n : Nat) : Text := Nat.toDigits 10 n

/-- The decimal digits of an integer, after a minus sign where it is negative. -/
def ofInt : Int → Text
  | .ofNat n => ofNat n
  | .negSucc n => '-' :: ofNat (n + 1)

/-! ## Order -/

/-- The order of texts by code point; a text comes before its extensions. -/
def le : Text → Text → Bool
  | [], _ => true
  | _ :: _, [] => false
  | c :: s, d :: t => c.toNat < d.toNat || (c == d && le s t)

theorem le_refl : ∀ t : Text, le t t = true
  | [] => rfl
  | _ :: t => by simp [le, le_refl t]

/-- The order of lists of texts, part by part. -/
def leParts : List Text → List Text → Bool
  | [], _ => true
  | _ :: _, [] => false
  | s :: ss, t :: ts => if s = t then leParts ss ts else le s t

/-- The texts in ascending order, each one once. -/
def sortedDistinct (ts : List Text) : List Text := (ts.eraseDups).mergeSort le

end Text

end FlowTypes
