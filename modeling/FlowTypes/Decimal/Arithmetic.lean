import FlowTypes.Decimal.Binary64

/-!
# Arithmetic of binary fractions

A sum, a product, a quotient or a remainder of two binary fractions is found exactly in whole numbers and rounded
once. Infinities and what is no number follow the usual rules; a quotient by zero is infinite.

Roots, powers and the other functions that have no exact result are those of the machine (`through`).
-/

namespace FlowTypes.Binary64

/-! ## Whole numbers -/

/-- Zero. -/
def zero : Binary64 := .finite false 0 (-1074)

/-- The binary fraction nearest to a whole number. -/
def ofInt (n : Int) : Binary64 := nearest (n < 0) n.natAbs 1

/-- One. -/
def one : Binary64 := ofInt 1

/-- The binary fraction nearest to `m · 2 ^ e`. -/
def ofScaled (negative : Bool) (m : Nat) (e : Int) : Binary64 :=
  if 0 ≤ e then nearest negative (m * Nat.pow 2 e.toNat) 1 else nearest negative m (Nat.pow 2 (-e).toNat)

/-- A value without its part behind the point; none for what is not finite. -/
def toInt? : Binary64 → Option Int
  | .finite negative m e =>
    let n := if 0 ≤ e then m * Nat.pow 2 e.toNat else m / Nat.pow 2 (-e).toNat
    some (if negative then -n else n)
  | _ => none

/-- The value has no part behind the point. -/
def isWhole : Binary64 → Bool
  | .finite _ m e => 0 ≤ e || m % Nat.pow 2 (-e).toNat = 0
  | _ => false

/-- A value without its part behind the point; what is not finite stays as it is. -/
def truncated : Binary64 → Binary64
  | .finite negative m e =>
    if 0 ≤ e then .finite negative m e else nearest negative (m / Nat.pow 2 (-e).toNat) 1
  | x => x

/-- The value is zero. -/
def isZero : Binary64 → Bool
  | .finite _ m _ => m == 0
  | _ => false

/-! ## Operations -/

/-- A whole number with a sign. -/
def signed (negative : Bool) (m : Nat) : Int := if negative then -m else m

/-- The value with the other sign. -/
def neg : Binary64 → Binary64
  | .notANumber => .notANumber
  | .infinite negative => .infinite !negative
  | .finite negative m e => .finite (!negative) m e

/-- The sum. -/
def add : Binary64 → Binary64 → Binary64
  | .notANumber, _ | _, .notANumber => .notANumber
  | .infinite a, .infinite b => if a = b then .infinite a else .notANumber
  | .infinite a, _ => .infinite a
  | _, .infinite b => .infinite b
  | .finite s m e, .finite t n f =>
    if m = 0 && n != 0 then .finite t n f
    else if n = 0 && m != 0 then .finite s m e
    else
      let low := min e f
      let sum := signed s (m * Nat.pow 2 (e - low).toNat) + signed t (n * Nat.pow 2 (f - low).toNat)
      if sum = 0 then .finite (s && t) 0 (-1074) else ofScaled (sum < 0) sum.natAbs low

/-- The difference. -/
def sub (x y : Binary64) : Binary64 := add x y.neg

/-- The product. -/
def mul : Binary64 → Binary64 → Binary64
  | .notANumber, _ | _, .notANumber => .notANumber
  | .infinite a, .infinite b => .infinite (a != b)
  | .infinite a, .finite t n _ => if n = 0 then .notANumber else .infinite (a != t)
  | .finite s m _, .infinite b => if m = 0 then .notANumber else .infinite (s != b)
  | .finite s m e, .finite t n f => ofScaled (s != t) (m * n) (e + f)

/-- The quotient. -/
def div : Binary64 → Binary64 → Binary64
  | .notANumber, _ | _, .notANumber => .notANumber
  | .infinite _, .infinite _ => .notANumber
  | .infinite a, .finite t _ _ => .infinite (a != t)
  | .finite s _ _, .infinite b => .finite (s != b) 0 (-1074)
  | .finite s m e, .finite t n f =>
    if n = 0 then (if m = 0 then .notANumber else .infinite (s != t))
    else
      let low := min e f
      nearest (s != t) (m * Nat.pow 2 (e - low).toNat) (n * Nat.pow 2 (f - low).toNat)

/-- The remainder of the quotient rounded toward zero; it has the sign of the first value. -/
def rem : Binary64 → Binary64 → Binary64
  | .notANumber, _ | _, .notANumber | .infinite _, _ => .notANumber
  | x, .infinite _ => x
  | .finite s m e, .finite _ n f =>
    if n = 0 then .notANumber
    else
      let low := min e f
      ofScaled s (m * Nat.pow 2 (e - low).toNat % (n * Nat.pow 2 (f - low).toNat)) low

/-- The order of two values; nothing differs from what is no number. -/
def order : Binary64 → Binary64 → Ordering
  | .notANumber, _ | _, .notANumber => .eq
  | .infinite a, .infinite b => if a = b then .eq else if a then .lt else .gt
  | .infinite a, _ => if a then .lt else .gt
  | _, .infinite b => if b then .gt else .lt
  | .finite s m e, .finite t n f =>
    let low := min e f
    compare (signed s (m * Nat.pow 2 (e - low).toNat)) (signed t (n * Nat.pow 2 (f - low).toNat))

/-- A value has the order of itself. -/
theorem order_self (x : Binary64) : order x x = .eq := by
  cases x with
  | notANumber => rfl
  | infinite a => simp [order]
  | finite s m e => simp [order]

/-! ## Functions of the machine -/

/-- The value as the machine keeps it. -/
def toFloat : Binary64 → Float
  | .notANumber => 0.0 / 0.0
  | .infinite negative => if negative then -1.0 / 0.0 else 1.0 / 0.0
  | .finite negative m e =>
    let x := (Float.ofNat m).scaleB e
    if negative then -x else x

/-- A value that the machine keeps. -/
def ofFloat (x : Float) : Binary64 :=
  let bits := x.toBits.toNat
  let negative := bits ≥ Nat.pow 2 63
  let exponent : Nat := bits / Nat.pow 2 52 % Nat.pow 2 11
  let mantissa := bits % Nat.pow 2 52
  if exponent = 2047 then (if mantissa = 0 then .infinite negative else .notANumber)
  else if exponent = 0 then .finite negative mantissa (-1074)
  else .finite negative (mantissa + Nat.pow 2 52) ((exponent : Int) - 1075)

/-- A function of the machine. -/
def through (f : Float → Float) (x : Binary64) : Binary64 := ofFloat (f x.toFloat)

/-- A function of the machine of two values. -/
def through₂ (f : Float → Float → Float) (x y : Binary64) : Binary64 := ofFloat (f x.toFloat y.toFloat)

end FlowTypes.Binary64
