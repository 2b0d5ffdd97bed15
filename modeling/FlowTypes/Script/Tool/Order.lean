import FlowTypes.Decimal.Binary64
import FlowTypes.Script.Printing.Gap

/-!
# Orders of lines

Lines are compared by keys, which are parts of them, in turn (`Order.compare`). A key says where its part starts
and ends, by fields and characters, and how it is compared: byte by byte, as a number, and so on. Lines whose
keys are all the same are compared byte by byte as a whole.
-/

namespace FlowTypes.Script.Order

/-- How parts are compared. -/
inductive Manner where
  | bytes
  | number
  | general
  | size
  | month
  | version
  deriving DecidableEq, Repr

/-- How a key compares its parts. -/
structure Style where
  manner : Manner := .bytes
  turned : Bool := false
  folded : Bool := false
  /-- Only blanks, letters and digits count; or only characters that can be printed. -/
  dictionary : Bool := false
  printable : Bool := false
  /-- Blanks at the start do not count. -/
  skipsStart : Bool := false
  skipsEnd : Bool := false
  deriving Repr

/-- A key: the field and the character that its part starts with, both from zero, and those it ends with. -/
structure Key where
  field : Nat
  char : Nat
  /-- The last field, and how many characters of it; none means all of it. -/
  last : Option (Nat × Nat)
  style : Style
  deriving Repr

/-- A blank between fields. -/
def isBlank (c : Char) : Bool := c == ' ' || c == '\t'

/-- What is behind so many fields. With `behind`, the separator behind the last one is taken too. -/
def skipFields (separator : Option Char) (behind : Bool) : (count : Nat) → Text → Text
  | 0, t => t
  | count + 1, t =>
    match separator with
    | some s =>
      let rest := t.dropWhile (· != s)
      skipFields separator behind count (if count = 0 && !behind then rest else rest.drop 1)
    | none => skipFields separator behind count ((t.dropWhile isBlank).dropWhile (!isBlank ·))

/-- The part of a line that a key compares. -/
def Key.part (k : Key) (separator : Option Char) (line : Text) : Text :=
  let start := skipFields separator true k.field line
  let start := if k.style.skipsStart then start.dropWhile isBlank else start
  let start := start.drop k.char
  match k.last with
  | none => start
  | some (field, count) =>
    let rest :=
      if count = 0 then skipFields separator false (field + 1) line
      else
        let rest := skipFields separator true field line
        (if k.style.skipsEnd then rest.dropWhile isBlank else rest).drop count
    start.take (start.length - rest.length)

/-- The order of two texts, byte by byte. -/
def ofTexts (a b : Text) : Ordering := if a = b then .eq else if Text.le a b then .lt else .gt

/-- The number at the start of a text, as a whole number and how many places it has. -/
def decimalOf (t : Text) : Int × Nat :=
  let t := t.dropWhile isBlank
  let (negative, t) := match t with
    | '-' :: rest => (true, rest)
    | _ => (false, t)
  let (whole, _, rest) := Printing.takeDigits 10 t
  let (digits, places) := match rest with
    | '.' :: more =>
      let (part, places, _) := Printing.takeDigits 10 more
      (whole * Nat.pow 10 places + part, places)
    | _ => (whole, 0)
  (if negative then -digits else digits, places)

/-- The order of two numbers with places. -/
def ofDecimals (a b : Int × Nat) : Ordering := Ord.compare (a.1 * Int.pow 10 b.2) (b.1 * Int.pow 10 a.2)

/-- The rank of the letter behind a number. -/
def sizeRank (t : Text) : Nat :=
  let t := t.dropWhile isBlank
  let t := match t with
    | '-' :: rest => rest
    | _ => t
  match (t.dropWhile fun c => c.isDigit || c == '.').head? with
  | some c => (("KMGTPEZYRQ".toList.findIdx? (· == c)).map (· + 1)).getD (if c == 'k' then 1 else 0)
  | none => 0

/-- The order of numbers with letters for their size. -/
def ofSizes (a b : Text) : Ordering :=
  let (x, y) := (decimalOf a, decimalOf b)
  let sign (n : Int) : Int := if n < 0 then -1 else if n = 0 then 0 else 1
  let ranked (n : Int × Nat) (t : Text) : Int := sign n.1 * (sizeRank t : Int)
  (Ord.compare (sign x.1) (sign y.1)).then ((Ord.compare (ranked x a) (ranked y b)).then (ofDecimals x y))

/-- The number of the month that a text starts with; zero if it is none. -/
def monthOf (t : Text) : Nat :=
  let name := ((t.dropWhile isBlank).take 3).map Char.toUpper
  let names : List Text := (["JAN", "FEB", "MAR", "APR", "MAY", "JUN", "JUL", "AUG", "SEP", "OCT", "NOV", "DEC"] :
    List String).map String.toList
  ((names.findIdx? (· == name)).map (· + 1)).getD 0

/-- The value of a text as a fraction, for its order: what is no number comes first, then what cannot be compared,
then the numbers. -/
def generalKey (t : Text) : Nat × Int × Nat :=
  match Printing.readFraction true t with
  | none => (0, 0, 1)
  | some (.notANumber, _) => (1, 0, 1)
  | some (.infinite negative, _) => (if negative then 2 else 4, 0, 1)
  | some (.finite negative m e, _) =>
    let (n, d) := Printing.Gap.quotientOf m e
    (3, if negative then -n else n, d)

/-- The order of texts as fractions. -/
def ofGenerals (a b : Text) : Ordering :=
  let (i, n, c) := generalKey a
  let (j, m, d) := generalKey b
  (Ord.compare i j).then (Ord.compare (n * d) (m * c))

/-- The rank of a character among those between numbers: a tilde comes before everything, letters before other
characters. -/
def versionRank (c : Char) : Nat := if c == '~' then 0 else if c.isAlpha then 1 + c.toNat else 300 + c.toNat

/-- The order of texts in which numbers count as numbers. -/
def ofVersions : (fuel : Nat) → Text → Text → Ordering
  | 0, _, _ => .eq
  | fuel + 1, a, b =>
    let rank (t : Text) : Nat := match t with
      | [] => 1
      | c :: _ => if c.isDigit then 1 else versionRank c
    let (x, y) := (a.takeWhile (!·.isDigit), b.takeWhile (!·.isDigit))
    let rec letters : (fuel : Nat) → Text → Text → Ordering
      | 0, _, _ => .eq
      | fuel + 1, s, t =>
        if s.isEmpty && t.isEmpty then .eq
        else (Ord.compare (rank s) (rank t)).then (letters fuel (s.drop 1) (t.drop 1))
    match letters (x.length + y.length + 1) x y with
    | .eq =>
      let (n, _, a) := Printing.takeDigits 10 (a.drop x.length)
      let (m, _, b) := Printing.takeDigits 10 (b.drop y.length)
      if n = m then (if a.isEmpty && b.isEmpty then .eq else ofVersions fuel a b) else Ord.compare n m
    | other => other

/-- The order of two parts. -/
def Style.compare (s : Style) (a b : Text) : Ordering :=
  let prepared (t : Text) : Text :=
    let t := if s.dictionary then t.filter fun c => isBlank c || c.isAlphanum else t
    let t := if s.printable then t.filter fun c => ' ' ≤ c && c ≤ '~' else t
    if s.folded then t.map Char.toUpper else t
  let order := match s.manner with
    | .bytes => ofTexts (prepared a) (prepared b)
    | .number => ofDecimals (decimalOf a) (decimalOf b)
    | .general => ofGenerals a b
    | .size => ofSizes a b
    | .month => Ord.compare (monthOf a) (monthOf b)
    | .version => ofVersions (a.length + b.length + 1) a b
  if s.turned then order.swap else order

/-- The order of two lines by some keys. -/
def byKeys (keys : List Key) (separator : Option Char) (a b : Text) : Ordering :=
  keys.foldl (fun order k => order.then (k.style.compare (k.part separator a) (k.part separator b))) .eq

/-- The order of two lines; those with the same keys are told apart as a whole, unless they are not to be. -/
def compare (keys : List Key) (separator : Option Char) (whole : Bool) (turned : Bool) (a b : Text) :
    Ordering :=
  let order := byKeys keys separator a b
  if whole then order.then (if turned then (ofTexts a b).swap else ofTexts a b) else order

end FlowTypes.Script.Order
