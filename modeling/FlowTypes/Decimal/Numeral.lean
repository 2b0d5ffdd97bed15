import FlowTypes.Text.Class

/-!
# Numerals

Numbers as they are typed. Blanks around a numeral are dropped, digits of every script count, and a
single underscore may stand between two digits.

* `readInt?` takes a sign and digits, at most `digitLimit` of them.
* `read?` takes a sign and a decimal fraction with or without exponent, an infinity, or a "not a number".
-/

namespace FlowTypes.Numeral

open Text.Class

/-! ## Spelling -/

/-- Digits and blanks of other scripts become those of ASCII, other foreign characters a question mark. -/
def plainChar (c : Char) : Char :=
  if c.toNat < 127 then c
  else if isBlank c then ' '
  else
    match digitValue? c with
    | some d => Char.ofNat (48 + d)
    | none => '?'

/-- The blanks that may stand around a numeral. -/
def isSurrounding (c : Char) : Bool := c == ' ' || (9 ≤ c.toNat && c.toNat ≤ 13)

/-- The numeral in ASCII, without the blanks around it. -/
def plain (t : Text) : Text :=
  (((t.map plainChar).dropWhile isSurrounding).reverse.dropWhile isSurrounding).reverse

/-- ASCII digits. -/
def isPlainDigit (c : Char) : Bool := 48 ≤ c.toNat && c.toNat ≤ 57

/-- The number that a string of ASCII digits stands for. -/
def valueOf (digits : Text) : Nat := digits.foldl (fun n c => n * 10 + (c.toNat - 48)) 0

/-- The numeral without its underscores, each of which must stand between two digits. -/
def dropUnderscores? (previous : Char) : Text → Option Text
  | [] => if previous == '_' then none else some []
  | c :: rest =>
    if c == '_' then
      if isPlainDigit previous then dropUnderscores? c rest else none
    else if previous == '_' && !isPlainDigit c then none
    else (dropUnderscores? c rest).map (c :: ·)

/-- A sign, if there is one: whether it is a minus, and what follows. -/
def takeSign : Text → Bool × Text
  | '-' :: rest => (true, rest)
  | '+' :: rest => (false, rest)
  | t => (false, t)

/-! ## Integers -/

/-- The most digits an integer may be written with. -/
def digitLimit : Nat := 4300

/-- The integer that is written, if one is. -/
def readInt? (t : Text) : Option Int :=
  let (negative, body) := takeSign (plain t)
  match dropUnderscores? ' ' body with
  | none => none
  | some digits =>
    if digits.isEmpty || !digits.all isPlainDigit || digitLimit < digits.length then none
    else some (if negative then -(valueOf digits : Int) else valueOf digits)

/-! ## Decimal fractions -/

/-- What can be written where a fraction is expected: `digits · 10 ^ exponent`, an infinity, or no
number at all. -/
inductive Fraction where
  | notANumber
  | infinite (negative : Bool)
  | finite (negative : Bool) (digits : Nat) (exponent : Int)
  deriving DecidableEq, Repr

/-- An exponent: nothing, or the letter `e`, a sign and digits up to the end. -/
def readExponent? : Text → Option Int
  | [] => some 0
  | c :: rest =>
    if c == 'e' || c == 'E' then
      let (negative, digits) := takeSign rest
      if digits.isEmpty || !digits.all isPlainDigit then none
      else some (if negative then -(valueOf digits : Int) else valueOf digits)
    else none

/-- Digits with or without a point, at least one of them, and an exponent. -/
def readFinite? (negative : Bool) (t : Text) : Option Fraction :=
  let whole := t.takeWhile isPlainDigit
  let rest := t.dropWhile isPlainDigit
  let (part, tail) :=
    match rest with
    | '.' :: after => (after.takeWhile isPlainDigit, after.dropWhile isPlainDigit)
    | _ => ([], rest)
  if whole.isEmpty && part.isEmpty then none
  else (readExponent? tail).map fun e => .finite negative (valueOf (whole ++ part)) (e - part.length)

/-- An ASCII capital in lower case. -/
def plainLower (c : Char) : Char :=
  if 65 ≤ c.toNat && c.toNat ≤ 90 then Char.ofNat (c.toNat + 32) else c

/-- The fraction that is written, if one is. -/
def read? (t : Text) : Option Fraction :=
  match dropUnderscores? ' ' (plain t) with
  | none => none
  | some numeral =>
    let (negative, body) := takeSign numeral
    let word := body.map plainLower
    if word = ("inf" : Text) || word = ("infinity" : Text) then some (.infinite negative)
    else if word = ("nan" : Text) then some .notANumber
    else readFinite? negative body

end FlowTypes.Numeral
