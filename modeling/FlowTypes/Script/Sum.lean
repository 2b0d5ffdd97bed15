import FlowTypes.Script.Command
import FlowTypes.Script.Printing.Gap

/-!
# Sums in scripts

Whole numbers of 64 bits, names, the usual operators with the usual precedence, and assignments. What goes
beyond 64 bits wraps around. A name without a value counts as zero, and so does a truth that does not hold;
one that holds counts as one. What cannot matter for the value is read but not worked out.

## Termination

The readers call each other; their fuel bounds the depth and is computed from the number of tokens.
-/

namespace FlowTypes.Script.Sum

/-- What a sum is made of. -/
inductive Token where
  | number (n : Int)
  | name (t : Text)
  | sign (t : Text)
  /-- Something that no sum has in it. -/
  | other
  deriving DecidableEq, Repr

/-- The signs, the longer ones first. -/
def signs : List Text :=
  (["<<=", ">>=", "<=", ">=", "==", "!=", "&&", "||", "<<", ">>", "+=", "-=", "*=", "/=", "%=", "&=", "|=", "^=",
    "+", "-", "*", "/", "%", "<", ">", "!", "~", "(", ")", "=", "?", ":", "&", "|", "^"] : List String).map String.toList

/-- The largest number; larger numerals stand for it too. -/
def largest : Int := Int.pow 2 63 - 1

/-- A number wrapped around to 64 bits. -/
def wrap (n : Int) : Int := n.bmod (Nat.pow 2 64)

/-- The tokens of a sum. -/
def tokens : (fuel : Nat) → Text → List Token
  | 0, _ => []
  | _ + 1, [] => []
  | fuel + 1, c :: rest =>
    if c == ' ' || c == '\t' || c == '\n' then tokens fuel rest
    else if c.isDigit then
      match Printing.readWhole true (c :: rest) with
      | some (n, after) => .number (min n largest) :: tokens fuel after
      | none => [.other]
    else if startsName c then
      let body := (c :: rest).takeWhile continuesName
      .name body :: tokens fuel ((c :: rest).drop body.length)
    else
      match signs.find? (·.isPrefixOf (c :: rest)) with
      | some sign => .sign sign :: tokens fuel ((c :: rest).drop sign.length)
      | none => [.other]

/-- How strongly an operator of two numbers binds. -/
def strength? (sign : Text) : Option Nat :=
  [(("|" : Text), 3), ("^", 4), ("&", 5), ("==", 6), ("!=", 6), ("<", 7), (">", 7), ("<=", 7), (">=", 7),
    ("<<", 8), (">>", 8), ("+", 9), ("-", 9), ("*", 10), ("/", 10), ("%", 10)].lookup sign

/-- A truth as a number. -/
def ofBool (b : Bool) : Int := if b then 1 else 0

/-- Why a sum has no value: something is divided by zero, something is missing or left over, or a name has a
value that is no number, or none where it needs one. -/
inductive Fault where
  | zeroDivisor
  | missing
  | missingBracket
  | missingColon
  | left
  | illegal (value : Text)
  | unset (name : Text)
  deriving DecidableEq, Repr

/-- The fault of a sum in words. -/
def Fault.message (sum : Text) : Fault → Text
  | zeroDivisor => about "division by zero"
  | missing => about "expecting primary"
  | missingBracket => about "expecting ')'"
  | missingColon => about "expecting ':'"
  | left => about "expecting EOF"
  | illegal value => "Illegal number: " ++ value
  | unset name => name ++ ": parameter not set"
where
  about (words : Text) : Text := "arithmetic expression: " ++ words ++ ": \"" ++ sum ++ "\""

/-- The bits of two numbers combined. -/
def bitwise (f : BitVec 64 → BitVec 64 → BitVec 64) (a b : Int) : Int :=
  (f (BitVec.ofInt 64 a) (BitVec.ofInt 64 b)).toInt

/-- What an operator makes of two numbers; nothing can be divided by zero. -/
def combine (sign : Text) (a b : Int) : Except Fault Int :=
  let places := (b % 64).toNat
  match String.ofList sign with
  | "+" => .ok (wrap (a + b))
  | "-" => .ok (wrap (a - b))
  | "*" => .ok (wrap (a * b))
  | "/" => if b = 0 then .error .zeroDivisor else .ok (wrap (a.tdiv b))
  | "%" => if b = 0 then .error .zeroDivisor else .ok (a.tmod b)
  | "<" => .ok (ofBool (a < b))
  | ">" => .ok (ofBool (b < a))
  | "<=" => .ok (ofBool (a ≤ b))
  | ">=" => .ok (ofBool (b ≤ a))
  | "==" => .ok (ofBool (a = b))
  | "!=" => .ok (ofBool (a ≠ b))
  | "<<" => .ok (wrap (a * Int.pow 2 places))
  | ">>" => .ok (a.fdiv (Int.pow 2 places))
  | "&" => .ok (bitwise (· &&& ·) a b)
  | "|" => .ok (bitwise (· ||| ·) a b)
  | "^" => .ok (bitwise (· ^^^ ·) a b)
  | _ => .error .missing

/-- What is left of a sum, and the values that it gave to names, the last ones first. -/
structure State where
  tokens : List Token
  assigned : List (Text × Int)

/-- Working out a part of a sum. -/
abbrev Work := StateT State (Except Fault)

/-- The values that names have before a sum. -/
abbrev Values := Text → Except Fault Int

/-- The value of a name. -/
def valueOf (values : Values) (name : Text) : Work Int := do
  match (← get).assigned.lookup name with
  | some n => return n
  | none => values name

/-- The next token is this sign, and it is taken. -/
def takes (sign : Text) : Work Bool := do
  let s ← get
  match s.tokens with
  | .sign t :: rest =>
    if t = sign then
      set { s with tokens := rest }
      return true
    else return false
  | _ => return false

/-- The sign of an assignment, and the operator in it. -/
def assigning? (sign : Text) : Option (Option Text) :=
  if sign = (['='] : Text) then some none
  else if sign.getLast? = some '=' && (strength? sign.dropLast).isSome && (strength? sign).isNone then
    some (some sign.dropLast)
  else none

mutual

/-- A sum: an assignment, or a choice. It is only read if it does not `matter`. -/
def whole (values : Values) (fuel : Nat) (matters : Bool) : Work Int :=
  match fuel with
  | 0 => throw .missing
  | fuel + 1 => do
    let s ← get
    match s.tokens with
    | .name name :: .sign sign :: rest =>
      match assigning? sign with
      | none => choice values fuel matters
      | some operator =>
        set { s with tokens := rest }
        let n ← whole values fuel matters
        if !matters then return n
        let n ← match operator with
          | none => pure n
          | some o => do combine o (← valueOf values name) n
        modify fun s => { s with assigned := (name, n) :: s.assigned }
        return n
    | _ => choice values fuel matters

/-- Truths, and a choice between two sums behind them. -/
def choice (values : Values) (fuel : Nat) (matters : Bool) : Work Int :=
  match fuel with
  | 0 => throw .missing
  | fuel + 1 => do
    let n ← anyOf values fuel matters
    if !(← takes ['?']) then return n
    let a ← whole values fuel (matters && n ≠ 0)
    if !(← takes [':']) then throw .missingColon
    let b ← choice values fuel (matters && n = 0)
    return if n ≠ 0 then a else b

/-- Truths of which one has to hold. -/
def anyOf (values : Values) (fuel : Nat) (matters : Bool) : Work Int :=
  match fuel with
  | 0 => throw .missing
  | fuel + 1 => do
    let a ← allOf values fuel matters
    if !(← takes ['|', '|']) then return a
    let b ← anyOf values fuel (matters && a = 0)
    return ofBool (a ≠ 0 || b ≠ 0)

/-- Truths all of which have to hold. -/
def allOf (values : Values) (fuel : Nat) (matters : Bool) : Work Int :=
  match fuel with
  | 0 => throw .missing
  | fuel + 1 => do
    let a ← further values fuel 0 (← single values fuel matters) matters
    if !(← takes ['&', '&']) then return a
    let b ← allOf values fuel (matters && a ≠ 0)
    return ofBool (a ≠ 0 && b ≠ 0)

/-- Operators that bind at least this strongly, behind a first number. -/
def further (values : Values) (fuel : Nat) (least : Nat) (first : Int) (matters : Bool) : Work Int :=
  match fuel with
  | 0 => throw .missing
  | fuel + 1 => do
    let s ← get
    match s.tokens with
    | .sign sign :: rest =>
      match strength? sign with
      | some strength =>
        if strength < least then return first
        set { s with tokens := rest }
        let n ← single values fuel matters
        let n ← further values fuel (strength + 1) n matters
        let n ← if matters then combine sign first n else pure n
        further values fuel least n matters
      | none => return first
    | _ => return first

/-- A number, a name or a sum in brackets, with signs before it. -/
def single (values : Values) (fuel : Nat) (matters : Bool) : Work Int :=
  match fuel with
  | 0 => throw .missing
  | fuel + 1 => do
    let s ← get
    set { s with tokens := s.tokens.drop 1 }
    match s.tokens with
    | .number n :: _ => return n
    | .name name :: _ => if matters then valueOf values name else return 0
    | .sign ['-'] :: _ => return wrap (-(← single values fuel matters))
    | .sign ['+'] :: _ => single values fuel matters
    | .sign ['!'] :: _ => return ofBool ((← single values fuel matters) = 0)
    | .sign ['~'] :: _ => return -(← single values fuel matters) - 1
    | .sign ['('] :: _ =>
      let n ← whole values fuel matters
      if !(← takes [')']) then throw .missingBracket
      return n
    | _ => throw .missing

end

/-- The value of a sum, and the values that it gives to names, the last ones first. -/
def value (values : Values) (t : Text) : Except Fault (Int × List (Text × Int)) :=
  let ts := tokens (t.length + 1) t
  match (whole values (10 * ts.length + 10) true).run ⟨ts, []⟩ with
  | .error fault => .error fault
  | .ok (n, s) => if s.tokens.isEmpty then .ok (n, s.assigned) else .error .left

/-- The number that a value of a name stands for. An empty one counts as zero. -/
def numberOf (t : Text) : Except Fault Int :=
  match Printing.readWhole true t with
  | none => if t.all Printing.isSpace then .ok 0 else .error (.illegal t)
  | some (n, rest) =>
    if rest.all Printing.isSpace && -largest - 1 ≤ n && n ≤ largest then .ok n else .error (.illegal t)

end FlowTypes.Script.Sum
