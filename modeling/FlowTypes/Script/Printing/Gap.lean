import FlowTypes.Decimal.Binary64
import FlowTypes.Script.Raw

/-!
# Gaps of templates

A template for printing has gaps, and a gap says how its value is written: the letter says what kind of
value it is, the flags, the width and the precision say how (`Gap`). Whole numbers are written in some base.
Fractions are written with a fixed number of places, with one place before the point and an exponent, or in
the shorter of both ways; they are rounded from their exact value, ties to even.

Numbers are also read here, from the start of a text as far as it goes (`readWhole`, `readFraction`).
-/

namespace FlowTypes.Script.Printing

/-- How a value is written. -/
structure Gap where
  left : Bool := false
  zeros : Bool := false
  plus : Bool := false
  blank : Bool := false
  /-- Written with what tells the base or keeps the point. -/
  marked : Bool := false
  width : Nat := 0
  precision : Option Nat := none
  letter : Char := 's'
  deriving Repr

namespace Gap

/-- Characters padded to the width. -/
def pad (g : Gap) (t : Text) : Text :=
  let blanks := List.replicate (g.width - t.length) ' '
  if g.left then t ++ blanks else blanks ++ t

/-- A sign or mark and what is behind it, padded to the width; zeros go between them. -/
def padBehind (g : Gap) (sign body : Text) (zeros : Bool) : Text :=
  if zeros && !g.left then
    sign ++ List.replicate (g.width - sign.length - body.length) '0' ++ body
  else g.pad (sign ++ body)

/-- The sign of a number that has one. -/
def signOf (g : Gap) (negative : Bool) : Text :=
  if negative then ['-'] else if g.plus then ['+'] else if g.blank then [' '] else []

/-- A text, cut to the precision. -/
def text (g : Gap) (t : Text) : Text :=
  g.pad (match g.precision with
    | some n => t.take n
    | none => t)

/-- The digits of a number, at least as many as the precision asks for. -/
def digitsOf (g : Gap) (base n : Nat) : Text :=
  let digits := if n = 0 && g.precision = some 0 then [] else Nat.toDigits base n
  List.replicate (g.precision.getD 1 - digits.length) '0' ++ digits

/-- A whole number with its sign. -/
def integer (g : Gap) (n : Int) : Text :=
  g.padBehind (g.signOf (n < 0)) (g.digitsOf 10 n.natAbs) (g.zeros && g.precision.isNone)

/-- A whole number without a sign, in the base that the letter says. -/
def natural (g : Gap) (n : Nat) : Text :=
  let base := if g.letter == 'x' || g.letter == 'X' then 16 else if g.letter == 'o' then 8 else 10
  let digits := g.digitsOf base n
  let digits := if g.marked && base = 8 && digits.head? != some '0' then '0' :: digits else digits
  let mark : Text := if g.marked && base = 16 && n != 0 then ['0', 'x'] else []
  let upper (t : Text) : Text := if g.letter == 'X' then t.map Char.toUpper else t
  g.padBehind (upper mark) (upper digits) (g.zeros && g.precision.isNone)

/-! ## Fractions -/

/-- A positive value as a quotient of whole numbers. -/
def quotientOf (mantissa : Nat) (exponent : Int) : Nat × Nat :=
  if 0 ≤ exponent then (mantissa * Nat.pow 2 exponent.toNat, 1) else (mantissa, Nat.pow 2 (-exponent).toNat)

/-- Digits with a point before the last `places` of them. -/
def withPoint (digits : Text) (places : Nat) (marked : Bool) : Text :=
  let digits := List.replicate (places + 1 - digits.length) '0' ++ digits
  let whole := digits.take (digits.length - places)
  let part := digits.drop (digits.length - places)
  whole ++ (if places = 0 then (if marked then ['.'] else []) else '.' :: part)

/-- A quotient with a fixed number of places. -/
def fixed (n d places : Nat) (marked : Bool) : Text :=
  withPoint (Nat.toDigits 10 (Binary64.roundDiv (n * Nat.pow 10 places) d)) places marked

/-- The exponent of ten of a quotient, and its first digits: one and `places` more. -/
def leading (n d places : Nat) : Int × Nat :=
  if n = 0 then (0, 0)
  else
    let scaled (e : Int) : Nat :=
      let shift := (places : Int) - e
      if 0 ≤ shift then Binary64.roundDiv (n * Nat.pow 10 shift.toNat) d
      else Binary64.roundDiv n (d * Nat.pow 10 (-shift).toNat)
    -- the number of digits before and behind the bar gives the exponent up to one
    let guess : Int := (Nat.toDigits 10 n).length - (Nat.toDigits 10 d).length
    let isLess : Bool := if 0 ≤ guess then n < d * Nat.pow 10 guess.toNat else n * Nat.pow 10 (-guess).toNat < d
    let e := if isLess then guess - 1 else guess
    let m := scaled e
    if Nat.pow 10 (places + 1) ≤ m then (e + 1, m / 10) else (e, m)

/-- An exponent with its sign and at least two digits. -/
def exponentText (letter : Char) (e : Int) : Text :=
  let digits := Text.ofNat e.natAbs
  letter :: (if e < 0 then '-' else '+') :: List.replicate (2 - digits.length) '0' ++ digits

/-- A quotient with one place before the point and an exponent. -/
def scientific (letter : Char) (n d places : Nat) (marked : Bool) : Text :=
  let (e, m) := leading n d places
  withPoint (Nat.toDigits 10 m) places marked ++ exponentText letter e

/-- A text without the zeros at the end of its places, and without the point if nothing is behind it. -/
def trimZeros (t : Text) : Text :=
  if t.contains '.' then
    let u := t.reverse.dropWhile (· == '0')
    (if u.head? = some '.' then u.drop 1 else u).reverse
  else t

/-- A quotient in the shorter way. -/
def general (letter : Char) (n d digits : Nat) (marked : Bool) : Text :=
  let digits := max digits 1
  let (e, m) := leading n d (digits - 1)
  if -4 ≤ e && e < digits then
    let t := fixed n d ((digits : Int) - 1 - e).toNat marked
    if marked then t else trimZeros t
  else
    let t := withPoint (Nat.toDigits 10 m) (digits - 1) marked
    (if marked then t else trimZeros t) ++ exponentText letter e

/-- A value with the digits of its bits in base sixteen and an exponent of two. -/
def hexadecimal (mantissa : Nat) (exponent : Int) (precision : Option Nat) : Text :=
  if mantissa = 0 then "0x" ++ withPoint ['0'] (precision.getD 0) false ++ "p+0"
  else
    let bits := mantissa.log2
    let full := mantissa * Nat.pow 2 (52 - bits)
    let e := exponent + bits
    let (digits, places) := match precision with
      | some p => (if p < 13 then Binary64.roundDiv full (Nat.pow 16 (13 - p)) else full * Nat.pow 16 (p - 13), p)
      | none => (full, 13)
    let t := withPoint (Nat.toDigits 16 digits) places false
    let t := if precision.isNone then trimZeros t else t
    "0x" ++ t ++ ['p', if e < 0 then '-' else '+'] ++ Text.ofNat e.natAbs

/-- A fraction as the letter says. -/
def fraction (g : Gap) (x : Binary64) : Text :=
  let lower := g.letter.toLower
  let upper (t : Text) : Text := if g.letter.isUpper then t.map Char.toUpper else t
  match x with
  | .notANumber => g.padBehind [] (upper "nan") false
  | .infinite negative => g.padBehind (g.signOf negative) (upper "inf") false
  | .finite negative mantissa exponent =>
    let (n, d) := quotientOf mantissa exponent
    let precision := g.precision.getD 6
    let body :=
      if lower == 'f' then fixed n d precision g.marked
      else if lower == 'e' then scientific 'e' n d precision g.marked
      else if lower == 'a' then hexadecimal mantissa exponent g.precision
      else general 'e' n d precision g.marked
    g.padBehind (g.signOf negative) (upper body) g.zeros

end Gap

/-! ## Reading numbers -/

/-- Blanks before a number. -/
def isSpace (c : Char) : Bool := c == ' ' || (9 ≤ c.toNat && c.toNat ≤ 13)

/-- The value of a digit in some base. -/
def digit? (base : Nat) (c : Char) : Option Nat :=
  let n := if c.isDigit then c.toNat - 48 else if c.isLower then c.toNat - 87
    else if c.isUpper then c.toNat - 55 else 99
  if n < base then some n else none

/-- The digits in some base at the start of a text as a number, how many there are, and the rest. -/
def takeDigits (base : Nat) (t : Text) : Nat × Nat × Text :=
  let digits := t.takeWhile fun c => (digit? base c).isSome
  (digits.foldl (fun n c => n * base + (digit? base c).getD 0) 0, digits.length, t.drop digits.length)

/-- Whether a sign is negative, and the rest. -/
def takeSign : Text → Bool × Text
  | '-' :: rest => (true, rest)
  | '+' :: rest => (false, rest)
  | t => (false, t)

/-- The whole number at the start of a text, and the rest; none if there is none. With `bases`, its start
says whether it is hexadecimal, octal or decimal; else it is decimal. -/
def readWhole (bases : Bool) (t : Text) : Option (Int × Text) :=
  let (negative, body) := takeSign (t.dropWhile isSpace)
  let signed (n : Nat) : Int := if negative then -n else n
  let other : Option (Nat × Text) :=
    if !bases then none
    else
      match body with
      | '0' :: x :: rest =>
        if x == 'x' || x == 'X' then
          let (n, count, after) := takeDigits 16 rest
          if count = 0 then none else some (n, after)
        else none
      | _ => none
  match other with
  | some (n, after) => some (signed n, after)
  | none =>
    let (n, count, after) := takeDigits (if bases && body.head? = some '0' then 8 else 10) body
    if count = 0 then none else some (signed n, after)

/-- The exponent behind a mantissa, and the rest. -/
def takeExponent (letter : Char) (t : Text) : Int × Text :=
  match t with
  | c :: rest =>
    if c.toLower == letter then
      let (negative, body) := takeSign rest
      let (n, count, after) := takeDigits 10 body
      if count = 0 then (0, t) else (if negative then -n else n, after)
    else (0, t)
  | [] => (0, t)

/-- The fraction at the start of a text, and the rest; none if there is none. With `bases`, it may be
hexadecimal or a word. -/
def readFraction (bases : Bool) (t : Text) : Option (Binary64 × Text) :=
  let (negative, body) := takeSign (t.dropWhile isSpace)
  let lower := body.map Char.toLower
  if bases && ("infinity" : Text).isPrefixOf lower then some (.infinite negative, body.drop 8)
  else if bases && ("inf" : Text).isPrefixOf lower then some (.infinite negative, body.drop 3)
  else if bases && ("nan" : Text).isPrefixOf lower then some (.notANumber, body.drop 3)
  else
    let hex := bases && ("0x" : Text).isPrefixOf lower
    let base := if hex then 16 else 10
    let (whole, count, after) := takeDigits base (if hex then body.drop 2 else body)
    let (part, places, after) := match after with
      | '.' :: rest => takeDigits base rest
      | _ => (0, 0, after)
    let after := if places = 0 && count = 0 then body else after
    if count = 0 && places = 0 then none
    else
      let (e, after) := takeExponent (if hex then 'p' else 'e') after
      let digits := whole * Nat.pow base places + part
      if hex then
        let e := e - 4 * places
        let e := max (min e 5000) (-5000)
        some (if 0 ≤ e then .nearest negative (digits * Nat.pow 2 e.toNat) 1
          else .nearest negative digits (Nat.pow 2 (-e).toNat), after)
      else some (.ofFraction (.finite negative digits (e - places)), after)

end FlowTypes.Script.Printing
