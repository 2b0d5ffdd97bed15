import FlowTypes.Script.Printing
import FlowTypes.Script.Records

/-!
# Values of records programs

A value is a text or a number, and each can stand for the other. What comes from outside and looks like a number is
both: it is compared as a number with numbers and as a text with texts (`Value.numeral`).

A number without a part behind the point is written with all its digits, other numbers by a template
(`textOfNumber`). Templates for printing are filled from left to right as long as there are values
(`Template.fill`).
-/

namespace FlowTypes.Script.Records

/-- A value. -/
inductive Value where
  | nothing
  | number (x : Binary64)
  | text (t : Text)
  /-- A text that looks like a number, and that number. -/
  | numeral (t : Text) (x : Binary64)
  deriving Inhabited

namespace Value

/-- The number at the start of a text; zero if there is none. -/
def leading (t : Text) : Binary64 :=
  match Printing.readFraction true t with
  | some (x, _) => x
  | none => .zero

/-- A text from outside. It looks like a number if nothing but a number is in it, blanks aside, and if it begins with
a digit, a sign or a point and ends with a digit or a point. -/
def ofInput (t : Text) : Value :=
  let isBlank (c : Char) : Bool := c == ' ' || c == '\t' || c == '\n'
  let body := ((t.dropWhile isBlank).reverse.dropWhile isBlank).reverse
  let begins := body.head?.any fun c => c.isDigit || c == '-' || c == '+' || c == '.'
  let ends := body.getLast?.any fun c => c.isDigit || c == '.'
  if begins && ends then
    match Printing.readFraction true body with
    | some (x, []) => numeral t x
    | _ => text t
  else text t

/-- A whole number. -/
def ofNat (n : Nat) : Value := number (.ofInt n)

/-- A truth value. -/
def ofBool (b : Bool) : Value := ofNat b.toNat

/-- The value as a number. -/
def toNumber : Value → Binary64
  | nothing => .zero
  | number x | numeral _ x => x
  | text t => leading t

/-- The value counts as true. -/
def holds : Value → Bool
  | nothing => false
  | number x | numeral _ x => !x.isZero
  | text t => !t.isEmpty

end Value

/-! ## Templates -/

namespace Template

/-- What is wrong with a template: there are too few values for it, or a gap with this number makes no sense. -/
inductive Fault where
  | tooFew
  | improper (number : Nat)
  deriving DecidableEq, Repr

/-- The letters of gaps. -/
def letters : Text := "csdiouxXeEfFgGaA"

/-- The gap behind a percent sign without the letters that tell the size of a value, and what follows it. -/
def readGap (t : Text) : Printing.Part × Text :=
  let head := t.takeWhile fun c => c.isDigit || (("-+ #*.".toList).contains c)
  let rest := (t.drop head.length).dropWhile fun c => c == 'l' || c == 'h'
  Printing.readGap (head ++ rest)

/-- The most that is printed as a whole number without a sign. -/
def mostNatural : Nat := Nat.pow 2 64 - 1

/-- A number without a sign in place of any number. -/
def naturalOf (x : Binary64) : Nat :=
  match x with
  | .notANumber => Nat.pow 2 63
  | .infinite negative => if negative then Nat.pow 2 63 + 1 else mostNatural
  | _ =>
    let n := x.toInt?.getD 0
    if n < 0 then (Int.pow 2 64 + max n (1 - Int.pow 2 63)).toNat else min n.toNat mostNatural

/-- A whole number in place of any number. -/
def wholeOf (x : Binary64) : Int :=
  match x with
  | .notANumber => -Int.pow 2 63
  | .infinite negative => if negative then 1 - Int.pow 2 63 else mostNatural
  | _ => max (1 - Int.pow 2 63) (min (x.toInt?.getD 0) mostNatural)

/-- A fraction in a gap. What is no number came from an operation that has no result, and is shown as negative. -/
def fraction (g : Printing.Gap) (x : Binary64) : Text :=
  match x with
  | .notANumber => g.padBehind [] (if g.letter.isUpper then "-NAN" else "-nan") false
  | _ => g.fraction x

/-- A value in a gap; `say` gives the text of a number. -/
def place (say : Binary64 → Text) (g : Printing.Gap) (value : Value) : Text :=
  match g.letter with
  | 's' =>
    g.text (match value with
      | .nothing => []
      | .number x => say x
      | .text t | .numeral t _ => t)
  | 'c' =>
    g.pad [match value with
      | .nothing => '\x00'
      | .number x | .numeral _ x => Char.ofNat (naturalOf x % 256)
      | .text t => t.headD '\x00']
  | 'd' | 'i' => g.integer (wholeOf value.toNumber)
  | 'o' | 'u' | 'x' | 'X' => g.natural (naturalOf value.toNumber)
  | _ => fraction g value.toNumber

/-- The value of the next argument for a width or a precision. -/
def given (wanted : Bool) (values : List Value) : Option (Int × List Value) :=
  match wanted, values with
  | false, _ => some (0, values)
  | true, v :: rest => some (wholeOf v.toNumber, rest)
  | true, [] => none

/-- A template filled with values: what is printed by the end or by the first fault. `number` counts the gaps. -/
def fill (say : Binary64 → Text) : (fuel number : Nat) → Text → List Value → Text × Option Fault
  | 0, _, _, _ => ([], none)
  | _, _, [], _ | _, _, '\x00' :: _, _ => ([], none)
  | fuel + 1, number, '%' :: '%' :: rest, values =>
    let (t, fault) := fill say fuel number rest values
    ('%' :: t, fault)
  | fuel + 1, number, '%' :: rest, values =>
    if values.isEmpty then ([], some .tooFew)
    else
      match readGap rest with
      | (.gap g widthGiven precisionGiven, after) =>
        if !letters.contains g.letter then ([], some (.improper number))
        else
          match given widthGiven values with
          | none => ([], some .tooFew)
          | some (width, values) =>
            match given precisionGiven values with
            | none | some (_, []) => ([], some .tooFew)
            | some (precision, value :: others) =>
              let g := if widthGiven then { g with width := width.natAbs, left := g.left || width < 0 } else g
              let g := if precisionGiven && 0 ≤ precision then { g with precision := some precision.toNat } else g
              let (t, fault) := fill say fuel (number + 1) after others
              (place say g value ++ t, fault)
      | _ => ([], some (.improper number))
  | fuel + 1, number, c :: rest, values =>
    let (t, fault) := fill say fuel number rest values
    (c :: t, fault)

end Template

/-! ## Numbers as texts -/

/-- The text of a number that has a part behind the point, if nobody says otherwise. -/
def plainly (x : Binary64) : Text := Template.fraction { letter := 'g' } x

/-- The text of a number by a template, which whole numbers do not need. -/
def textOfNumber (template : Text) (x : Binary64) : Text :=
  let byTemplate := (Template.fill plainly (template.length + 1) 1 template [.number x]).1
  if x.isWhole then
    let n := x.toInt?.getD 0
    if -Int.pow 2 63 ≤ n && n ≤ Int.pow 2 64 then Text.ofInt (min n Template.mostNatural) else byTemplate
  else byTemplate

/-- The text of a value. -/
def Value.toText (template : Text) : Value → Text
  | nothing => []
  | number x => textOfNumber template x
  | text t | numeral t _ => t

/-- The order of texts, byte by byte. -/
def textOrder (s t : Text) : Ordering :=
  if s = t then .eq else if Text.le s t then .lt else .gt

/-- The order of two values: as numbers if both can be numbers, and else as texts. -/
def Value.order (template : Text) (a b : Value) : Ordering :=
  match a, b with
  | text _, _ | _, text _ => textOrder (a.toText template) (b.toText template)
  | _, _ => Binary64.order a.toNumber b.toNumber

/-- A value has the order of itself. -/
theorem Value.order_self (template : Text) (a : Value) : a.order template a = .eq := by
  cases a <;> simp [Value.order, textOrder, Binary64.order_self]

end FlowTypes.Script.Records
