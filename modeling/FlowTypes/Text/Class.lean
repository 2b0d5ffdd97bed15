import FlowTypes.Text
import FlowTypes.Text.Class.Alphanumeric
import FlowTypes.Text.Class.Blank
import FlowTypes.Text.Class.Unprintable

/-!
# Classes of code points

The classes that patterns, numbers and quoting look at. ASCII is decided by its ranges, the rest by the
tables; the two agree on ASCII, so the ranges only save the search.
-/

namespace FlowTypes.Text.Class

/-- A code point is in a class exactly when an odd number of flips lie at or before it. -/
def member (flips : List Nat) (n : Nat) : Bool :=
  (flips.takeWhile (· ≤ n)).length % 2 == 1

/-- ASCII letters and digits. -/
def isAsciiAlphanumeric (c : Char) : Bool :=
  let n := c.toNat
  (48 ≤ n && n ≤ 57) || (65 ≤ n && n ≤ 90) || (97 ≤ n && n ≤ 122)

/-- Letters, numbers and the underscore make up words. -/
def isWord (c : Char) : Bool :=
  c == '_' || (if c.toNat < 128 then isAsciiAlphanumeric c else member alphanumericFlips c.toNat)

/-- Blanks: tabs, line ends, information separators and the space separators. -/
def isBlank (c : Char) : Bool := member blankFlips c.toNat

/-- The value of a decimal digit of any script. -/
def digitValue? (c : Char) : Option Nat :=
  let n := c.toNat
  if 48 ≤ n && n ≤ 57 then some (n - 48)
  else if n < 128 then none
  else (digitZeros.find? (fun first => first ≤ n && n < first + 10)).map (n - ·)

/-- Decimal digits of any script. -/
def isDigit (c : Char) : Bool := (digitValue? c).isSome

/-- Code points with a printed form, the space among them. -/
def isPrintable (c : Char) : Bool :=
  let n := c.toNat
  if n < 128 then 32 ≤ n && n < 127 else !member unprintableFlips n

end FlowTypes.Text.Class
