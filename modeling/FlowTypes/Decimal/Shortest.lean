import FlowTypes.Decimal.Binary64

/-!
# Shortest decimal texts

A binary fraction is shown by the fewest digits that read back as the same fraction; among several
texts of that length, by the one nearest to it.

The reals that round to `m · 2 ^ e` make up an interval around it, with its ends if `m` is even. For
one digit, two digits, and so on, the two neighbours of the fraction on that decimal grid are tried.
Seventeen digits always suffice.

From `10 ^ -4` up to `10 ^ 16` the point stands in its place, elsewhere there is an exponent of at
least two digits.
-/

namespace FlowTypes.Binary64

/-! ## Digits -/

/-- The decimal `digits · 10 ^ k` and the binary `quarters · 2 ^ (e - 2)`, brought to whole numbers over
one denominator. -/
def crossed (digits : Nat) (k : Int) (quarters : Nat) (e : Int) : Nat × Nat :=
  let s := e - 2
  (digits * Nat.pow 10 k.toNat * Nat.pow 2 (-s).toNat, quarters * Nat.pow 2 s.toNat * Nat.pow 10 (-k).toNat)

/-- The decimal lies in the interval of reals that round to `m · 2 ^ e`. -/
def readsBack (m : Nat) (e : Int) (digits : Nat) (k : Int) : Bool :=
  let down := if m = Nat.pow 2 52 ∧ -1074 < e then 1 else 2
  let (x, low) := crossed digits k (4 * m - down) e
  let (y, high) := crossed digits k (4 * m + 2) e
  if m % 2 == 0 then low ≤ x && y ≤ high else low < x && y < high

/-- The exponent of the leading decimal digit of `m · 2 ^ e`. -/
def leading (m : Nat) (e : Int) : Int :=
  let scaled := m * Nat.pow 2 e.toNat * Nat.pow 10 400 / Nat.pow 2 (-e).toNat
  ((Nat.toDigits 10 scaled).length : Int) - 401

/-- Of the two neighbours of `m · 2 ^ e` on the grid of `10 ^ k`, one that reads back, the nearer one if
both do and the even one if they are equally near. -/
def onGrid? (m : Nat) (e k : Int) : Option Nat :=
  let low := m * Nat.pow 2 e.toNat * Nat.pow 10 (-k).toNat / (Nat.pow 2 (-e).toNat * Nat.pow 10 k.toNat)
  match readsBack m e low k, readsBack m e (low + 1) k with
  | true, true =>
    let (middle, value) := crossed (2 * low + 1) k (8 * m) e
    if value < middle || (value == middle && low % 2 == 0) then some low else some (low + 1)
  | true, false => some low
  | false, true => some (low + 1)
  | false, false => none

/-- The first grid with a neighbour that reads back, from a grid of this many digits on. -/
def firstGrid (m : Nat) (e top : Int) : (tries digits : Nat) → Nat × Int
  | 0, _ => (0, 0)
  | tries + 1, digits =>
    let k := top - digits + 1
    match onGrid? m e k with
    | some d => (d, k)
    | none => firstGrid m e top tries (digits + 1)

/-- A decimal without zeros at its end, which its exponent counts instead. -/
def trimZeros (fuel : Nat) (digits : Nat) (k : Int) : Nat × Int :=
  match fuel with
  | 0 => (digits, k)
  | fuel + 1 =>
    if digits ≠ 0 ∧ digits % 10 = 0 then trimZeros fuel (digits / 10) (k + 1) else (digits, k)

/-- The shortest decimal that reads back as `m · 2 ^ e`, for a mantissa that is not zero. -/
def shortest (m : Nat) (e : Int) : Nat × Int :=
  let (d, k) := firstGrid m e (leading m e) 17 1
  trimZeros 18 d k

/-! ## Text -/

/-- Where the layout changes: the exponents of the leading digit that are written out in full, and the
fewest digits of a written exponent. -/
structure Layout where
  lowest : Int
  highest : Int
  exponentWidth : Nat

/-- Seconds are written out from `10 ^ -4` to below `10 ^ 16`. -/
def seconds : Layout := ⟨-4, 15, 2⟩

/-- The text of the decimal `digits · 10 ^ k`. -/
def decimalText (form : Layout) (digits : Nat) (k : Int) : Text :=
  let ds := Text.ofNat digits
  let top := k + ds.length - 1
  if form.lowest ≤ top ∧ top ≤ form.highest then
    if top < 0 then "0." ++ List.replicate (-top - 1).toNat '0' ++ ds
    else if 0 ≤ k then ds ++ List.replicate k.toNat '0' ++ ".0"
    else ds.take (top + 1).toNat ++ "." ++ ds.drop (top + 1).toNat
  else
    let fraction : Text := if ds.length ≤ 1 then [] else '.' :: ds.drop 1
    let power := Text.ofNat top.natAbs
    ds.take 1 ++ fraction ++ (if top < 0 then ['e', '-'] else ['e', '+'])
      ++ List.replicate (form.exponentWidth - power.length) '0' ++ power

/-- The shortest text of a binary fraction. -/
def text : Binary64 → Text
  | .notANumber => "nan"
  | .infinite negative => if negative then "-inf" else "inf"
  | .finite negative m e =>
    let body : Text :=
      if m = 0 then "0.0"
      else
        let (d, k) := shortest m e
        decimalText seconds d k
    if negative then '-' :: body else body

end FlowTypes.Binary64
