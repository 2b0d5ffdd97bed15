import FlowTypes.Decimal.Numeral

/-!
# Binary fractions of 53 bits

Seconds are kept as the binary fraction nearest to what was typed: an exact multiple of a power of two,
an infinity, or no number. Everything is decided in whole numbers, so orders and roundings can be
reasoned about.

`nearest` rounds a quotient to 53 significant bits, ties to the even neighbour, with the smallest
exponent `-1074` and the largest `971`; beyond the largest lies infinity.
-/

namespace FlowTypes

/-- A binary fraction: `mantissa · 2 ^ exponent` with a sign, an infinity, or no number. -/
inductive Binary64 where
  | notANumber
  | infinite (negative : Bool)
  | finite (negative : Bool) (mantissa : Nat) (exponent : Int)
  deriving DecidableEq, Repr

namespace Binary64

/-- The number before rounding, `n / d`, in units of `2 ^ e`, as a quotient. -/
def inUnits (n d : Nat) (e : Int) : Nat × Nat :=
  if 0 ≤ e then (n, d * Nat.pow 2 e.toNat) else (n * Nat.pow 2 (-e).toNat, d)

/-- A quotient rounded to the nearest whole number, ties to the even one. -/
def roundDiv (n d : Nat) : Nat :=
  let q := n / d
  let twice := 2 * (n % d)
  if twice < d || (twice == d && q % 2 == 0) then q else q + 1

/-- The binary fraction nearest to `n / d`. -/
def nearest (negative : Bool) (n d : Nat) : Binary64 :=
  if n = 0 then .finite negative 0 (-1074)
  else
    let guess : Int := (n.log2 : Int) - d.log2 - 52
    -- the guess is right or one too large, and never below the smallest exponent
    let (a, b) := inUnits n d guess
    let e := max (if a < Nat.pow 2 52 * b then guess - 1 else guess) (-1074)
    let (a, b) := inUnits n d e
    let m := roundDiv a b
    -- rounding up may carry into one more bit
    let (m, e) := if m = Nat.pow 2 53 then (Nat.pow 2 52, e + 1) else (m, e)
    if 971 < e then .infinite negative else .finite negative m e

/-- The binary fraction nearest to a decimal one. Far outside the range the answer is known without
raising ten to the exponent. -/
def ofFraction : Numeral.Fraction → Binary64
  | .notANumber => .notANumber
  | .infinite negative => .infinite negative
  | .finite negative digits exponent =>
    let magnitude := exponent + (Nat.toDigits 10 digits).length
    if digits = 0 || magnitude < -400 then .finite negative 0 (-1074)
    else if 400 < magnitude then .infinite negative
    else if 0 ≤ exponent then nearest negative (digits * Nat.pow 10 exponent.toNat) 1
    else nearest negative digits (Nat.pow 10 (-exponent).toNat)

/-- Zero or less. A value that is no number is neither that nor more than zero. -/
def atMostZero : Binary64 → Bool
  | .notANumber => false
  | .infinite negative => negative
  | .finite negative mantissa _ => negative || mantissa == 0

/-- More than zero. -/
def positive : Binary64 → Bool
  | .notANumber => false
  | .infinite negative => !negative
  | .finite negative mantissa _ => !negative && mantissa != 0

/-- Every number is at most zero or positive, and never both. -/
theorem positive_eq_not_atMostZero {x : Binary64} (h : x ≠ .notANumber) :
    x.positive = !x.atMostZero := by
  cases x with
  | notANumber => exact absurd rfl h
  | infinite n => rfl
  | finite n m e => cases n <;> simp [positive, atMostZero, bne]

/-- Less than `n / d`; nothing is said of a value that is no number. -/
def lessThan (x : Binary64) (n d : Nat) : Bool :=
  match x with
  | .notANumber => false
  | .infinite negative => negative
  | .finite negative mantissa exponent =>
    let (a, b) :=
      if 0 ≤ exponent then (mantissa * Nat.pow 2 exponent.toNat, 1) else (mantissa, Nat.pow 2 (-exponent).toNat)
    if negative then mantissa != 0 || n != 0 else a * d < n * b

/-- A positive number of units, in parts of which `parts` make up a unit, rounded down; zero for all other
values. -/
def floorOf (x : Binary64) (parts : Nat) : Nat :=
  match x with
  | .finite false mantissa exponent =>
    if 0 ≤ exponent then mantissa * parts * Nat.pow 2 exponent.toNat
    else mantissa * parts / Nat.pow 2 (-exponent).toNat
  | _ => 0

end Binary64

end FlowTypes
