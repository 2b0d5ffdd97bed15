import FlowTypes.Script.Condition
import FlowTypes.Script.Matching.Reader
import FlowTypes.Script.Printing
import FlowTypes.Script.Tool.Streams

/-!
# Tools for words

Tools that work on their words and not on files: they print words or parts of them, numbers and sums, and they
tell by their status whether something holds.
-/

namespace FlowTypes.Script.Tool

open Errand

/-! ## Printing -/

/-- The escape of a hexadecimal number at the start of a text, and what follows. -/
def hexEscape? (t : Text) : Option (Char × Text) :=
  match t with
  | 'x' :: rest =>
    let digits := (rest.take 2).takeWhile fun c => (Printing.digit? 16 c).isSome
    if digits.isEmpty then none
    else some (Char.ofNat (Printing.takeDigits 16 digits).1, rest.drop digits.length)
  | _ => none

/-- A text with hexadecimal escapes too, and whether it is stopped. -/
def withAllEscapes : (fuel : Nat) → Text → Text × Bool
  | 0, _ => ([], false)
  | _ + 1, [] => ([], false)
  | _ + 1, '\\' :: 'c' :: _ => ([], true)
  | fuel + 1, '\\' :: rest =>
    match (hexEscape? rest).or (if rest.head? = some '0' || !(rest.head?.any Char.isDigit) then
        Printing.escape? true rest else none) with
    | some (b, after) =>
      let (t, stopped) := withAllEscapes fuel after
      (b :: t, stopped)
    | none =>
      let (t, stopped) := withAllEscapes fuel rest
      ('\\' :: t, stopped)
  | fuel + 1, c :: rest =>
    let (t, stopped) := withAllEscapes fuel rest
    (c :: t, stopped)

/-- Prints its words. -/
def echo : Tool := fun _ _ words => do
  let isOption (t : Text) : Bool :=
    match t with
    | '-' :: c :: rest => (c :: rest).all (("neE".toList).contains ·)
    | _ => false
  let letters := ((words.drop 1).takeWhile isOption).flatten
  let words := (words.drop 1).dropWhile isOption
  let t := Text.join [' '] words
  let escapes := (letters.filter fun c => c == 'e' || c == 'E').getLast? = some 'e'
  let (t, stopped) := if escapes then withAllEscapes (t.length + 1) t else (t, false)
  write 1 (if letters.contains 'n' || stopped then t else t ++ ['\n'])
  return 0

/-- A template with characters for its hexadecimal escapes. -/
def withHex : (fuel : Nat) → Text → Text
  | 0, t => t
  | _, [] => []
  | fuel + 1, '\\' :: c :: rest =>
    match hexEscape? (c :: rest) with
    | some (b, after) =>
      let shown : Text := if b == '\\' then ['\\', '\\'] else if b == '%' then ['%', '%'] else [b]
      shown ++ withHex fuel after
    | none => '\\' :: c :: withHex fuel rest
  | fuel + 1, c :: rest => c :: withHex fuel rest

/-- Prints words with a template. -/
def printf : Tool := fun _ _ words => do
  let tool := words.headD []
  let operands := match words.drop 1 with
    | ['-', '-'] :: rest => rest
    | rest => rest
  match operands with
  | [] => misused tool 1 "missing operand"
  | template :: rest =>
    let filling := Printing.printf (withHex (template.length + 1) template) rest
    write 1 filling.printed
    for t in filling.complaints do
      let word := t.takeWhile (· != ':')
      complain (tool ++ ": " ++ (
        if (": expected numeric value" : Text).isSuffixOf t then quoted word ++ ": expected a numeric value"
        else if (": not completely converted" : Text).isSuffixOf t then
          quoted word ++ ": value not completely converted"
        else if (": invalid directive" : Text).isSuffixOf t then word ++ ": invalid conversion specification"
        else t))
    return if filling.complaints.isEmpty then 0 else 1

/-! ## Conditions -/

/-- Holds. -/
def yesMan : Tool := fun _ _ _ => return 0

/-- Does not hold. -/
def noMan : Tool := fun _ _ _ => return 1

/-- Tells whether a condition holds. -/
def test : Tool := fun _ _ words => fun next =>
  .look fun tree permitted =>
    let tool := words.headD []
    let bracket := ("[" : Text).isSuffixOf tool
    let given := words.drop 1
    let judge (given : List Text) : Errand Nat :=
      match Condition.holds ⟨tree, permitted⟩ (given.length + 2) given with
      | .ok h => return if h then 0 else 1
      | .error complaint => do
        complain (tool ++ ": " ++ complaint)
        return 2
    (if bracket then
      if given.getLast? = some ([']'] : Text) then judge given.dropLast
      else do
        complain (tool ++ ": missing ‘]’")
        return 2
    else judge given) next

/-! ## Paths -/

/-- The last name of a path, without an ending. -/
def baseOf (ending path : Text) : Text :=
  let bare := (path.reverse.dropWhile (· == '/')).reverse
  if bare.isEmpty then (if path.isEmpty then [] else ['/'])
  else
    let name := (bare.reverse.takeWhile (· != '/')).reverse
    if ending.isSuffixOf name && ending != name then name.take (name.length - ending.length) else name

/-- The path of the directory that a path lies in. -/
def directoryOf (path : Text) : Text :=
  let bare := (path.reverse.dropWhile (· == '/')).reverse
  let above := ((bare.reverse.dropWhile (· != '/')).dropWhile (· == '/')).reverse
  if !above.isEmpty then above
  else if path.head? = some '/' then ['/']
  else ['.']

/-- Prints the last names of paths. -/
def basename : Tool := fun _ _ words => do
  let tool := words.headD []
  let known : Known := ⟨"as:z", [("multiple", 'a'), ("suffix", 's'), ("zero", 'z')]⟩
  let (given, names) ← options known 1 words false
  let several := has given 'a' || has given 's'
  let lineEnd := if has given 'z' then '\x00' else '\n'
  match names with
  | [] => misused tool 1 "missing operand"
  | _ =>
    if !several && 2 < names.length then misused tool 1 ("extra operand " ++ quoted (names.getD 2 []))
    if several then
      write 1 (names.flatMap fun name => baseOf ((argument? given 's').getD []) name ++ [lineEnd])
    else write 1 (baseOf (names.getD 1 []) (names.headD []) ++ [lineEnd])
    return 0

/-- Prints the directories of paths. -/
def dirname : Tool := fun _ _ words => do
  let (given, names) ← options ⟨"z", [("zero", 'z')]⟩ 1 words false
  if names.isEmpty then misused (words.headD []) 1 "missing operand"
  write 1 (names.flatMap fun name => directoryOf name ++ [if has given 'z' then '\x00' else '\n'])
  return 0

/-! ## Numbers -/

/-- A decimal number: its digits as a whole number, and how many of them stand behind the point. -/
structure Decimal where
  digits : Int
  places : Nat

/-- A decimal number as it is written. -/
def Decimal.read? (t : Text) : Option Decimal :=
  let (negative, body) := Printing.takeSign (Raw.trimStart t)
  let whole := body.takeWhile Char.isDigit
  let rest := body.drop whole.length
  let part := match rest with
    | '.' :: more => more.takeWhile Char.isDigit
    | _ => []
  let rest := match rest with
    | '.' :: more => more.drop part.length
    | _ => rest
  if whole.isEmpty && part.isEmpty then none
  else
    let (e, rest) := Printing.takeExponent 'e' rest
    if !rest.isEmpty then none
    else
      let n := Raw.natOf (whole ++ part)
      let signed : Int := if negative then -n else n
      if 0 ≤ e then
        let more := e.toNat
        if part.length ≤ more then some ⟨signed * Int.pow 10 (more - part.length), 0⟩
        else some ⟨signed, part.length - more⟩
      else some ⟨signed, part.length + (-e).toNat⟩

/-- The digits of a number with more places. -/
def Decimal.withPlaces (d : Decimal) (places : Nat) : Int := d.digits * Int.pow 10 (places - d.places)

/-- A number of digits with so many places as it is written. -/
def decimalText (places : Nat) (n : Int) : Text :=
  let digits := Text.ofNat n.natAbs
  let padded := List.replicate (places + 1 - digits.length) '0' ++ digits
  let whole := padded.take (padded.length - places)
  (if n < 0 then ['-'] else []) ++ whole
    ++ (if places = 0 then [] else '.' :: padded.drop (padded.length - places))

/-- Prints numbers in order. -/
def seq : Tool := fun _ _ words => do
  let tool := words.headD []
  -- negative numbers are no options
  let (early, late) := (words.drop 1).span fun t =>
    match t with
    | '-' :: c :: _ => !(c.isDigit || c == '.')
    | _ => false
  let values := early.getLast?.any fun t =>
    t = (['-', 's'] : Text) || t = (['-', 'f'] : Text) || t = ("--separator" : Text)
  let early := if values then early ++ late.take 1 else early
  let late := if values then late.drop 1 else late
  let known : Known := ⟨"f:s:w", [("format", 'f'), ("separator", 's'), ("equal-width", 'w')]⟩
  let (given, before) ← options known 1 (tool :: early) false
  let (given, late) ← match before, late with
    | [], ('-' :: c :: more) :: rest =>
      if c.isDigit || c == '.' then pure (given, ('-' :: c :: more) :: rest)
      else do
        let (others, words) ← options known 1 (tool :: late) false
        pure (given ++ others, words)
    | _, _ => pure (given, before ++ late)
  let number (t : Text) : Errand Decimal :=
    match Decimal.read? t with
    | some d => pure d
    | none => misused tool 1 ("invalid floating point argument: " ++ quoted t)
  match late with
  | [] => misused tool 1 "missing operand"
  | _ :: _ :: _ :: extra :: _ => misused tool 1 ("extra operand " ++ quoted extra)
  | _ =>
    let numbers ← late.mapM number
    let one : Decimal := ⟨1, 0⟩
    let (first, increment, last) := match numbers with
      | [last] => (one, one, last)
      | [first, last] => (first, one, last)
      | first :: increment :: last :: _ => (first, increment, last)
      | [] => (one, one, one)
    if increment.digits = 0 then
      misused tool 1 ("invalid Zero increment value: " ++ quoted (late.getD 1 []))
    let shownPlaces := max first.places increment.places
    let places := max shownPlaces last.places
    let (a, d, b) := (first.withPlaces places, increment.withPlaces places, last.withPlaces places)
    let count := if 0 < d then (if a ≤ b then ((b - a) / d).toNat + 1 else 0)
      else (if b ≤ a then ((a - b) / (-d)).toNat + 1 else 0)
    let text (n : Int) : Text := decimalText shownPlaces (n / Int.pow 10 (places - shownPlaces))
    let ends := [a, a + d * (count - 1)].map fun n => (text n).length
    let width := max (ends.foldl max 0) (max (text a).length (decimalText shownPlaces
      (b / Int.pow 10 (places - shownPlaces))).length)
    let filled (t : Text) : Text :=
      if has given 'w' then
        match t with
        | '-' :: rest => '-' :: (List.replicate (width - t.length) '0' ++ rest)
        | _ => List.replicate (width - t.length) '0' ++ t
      else t
    let shown (t : Text) : Text :=
      match argument? given 'f' with
      | some template => (Printing.printf template [t]).printed
      | none => filled t
    let separator := (argument? given 's').getD ['\n']
    if count = 0 then return 0
    portions (fun n => text (a + d * n)) shown separator count 0
where
  /-- Numbers in portions, so that a reader may stop. -/
  portions (text : Int → Text) (shown : Text → Text) (separator : Text) (count position : Nat) : Errand Nat := do
    let size := 1000
    for k in List.range ((count + size - 1) / size) do
      let from_ := position + k * size
      let here := min size (count - from_)
      let numbers := (List.range here).map fun n => shown (text ((from_ + n : Nat) : Int))
      let last := count ≤ from_ + here
      write 1 (Text.join separator numbers ++ (if last then ['\n'] else separator))
    return 0

/-! ## Sums -/

/-- The value of a sum of words: a text, or what is wrong and the status for that. -/
abbrev SumValue := Except (Nat × Text) (Text × List Text)

/-- A whole number as it is written. -/
def wholeNumber? (t : Text) : Option Int :=
  match t with
  | '-' :: rest => (Raw.nat? rest).map fun n => -(n : Int)
  | _ => (Raw.nat? t).map fun n => (n : Int)

/-- The value is empty or zero. -/
def isNothing (t : Text) : Bool :=
  t.isEmpty || (match wholeNumber? t with
    | some n => n = 0
    | none => false)

/-- The two sides of a comparison in order. -/
def comparison? (sign : Text) (a b : Text) : Option Bool :=
  let (less, same) := match wholeNumber? a, wholeNumber? b with
    | some m, some n => (decide (m < n), decide (m = n))
    | _, _ => (a != b && Text.le a b, decide (a = b))
  match String.ofList sign with
  | "<" => some less
  | "<=" => some (less || same)
  | "=" | "==" => some same
  | "!=" => some (!same)
  | ">=" => some !less
  | ">" => some !(less || same)
  | _ => none

/-- What a pattern that starts where a text starts finds in it. -/
def matchedPart (t pattern : Text) : Except (Nat × Text) Text :=
  match Matching.read ⟨false, false, false, true, true, false⟩ (Matching.symbolsOf pattern) with
  | .error fault => .error (2, fault.message)
  | .ok (shape, groups, _) =>
    let symbols := Matching.symbolsOf t
    let p := Matching.Pattern.ofShape (.seq (.place .textStart) shape) groups false
    match p.search none 0 symbols with
    | none => .ok (if 0 < groups then [] else ['0'])
    | some m =>
      if 0 < groups then
        match m.group? 1 with
        | some range => .ok (Matching.textOf (Matching.part symbols range))
        | none => .ok []
      else .ok (Text.ofNat (m.stop - m.start))

/-- The operators of a level, from those that bind least. -/
def sumOperators : Nat → List Text
  | 0 => [['|']]
  | 1 => [['&']]
  | 2 => ([("<" : Text), "<=", "=", "==", "!=", ">=", ">"] : List Text)
  | 3 => [['+'], ['-']]
  | 4 => [['*'], ['/'], ['%']]
  | _ => [[':']]

/-- Two values put together by an operator. -/
def operate (sign a b : Text) : Except (Nat × Text) Text :=
  let numbers (work : Int → Int → Except (Nat × Text) Int) : Except (Nat × Text) Text :=
    match wholeNumber? a, wholeNumber? b with
    | some m, some n => (work m n).map Text.ofInt
    | _, _ => .error (2, "non-integer argument")
  let divided (work : Int → Int → Int) : Except (Nat × Text) Text :=
    numbers fun m n => if n = 0 then .error (2, "division by zero") else .ok (work m n)
  match sign with
  | ['|'] => .ok (if !isNothing a then a else if isNothing b then ['0'] else b)
  | ['&'] => .ok (if isNothing a || isNothing b then ['0'] else a)
  | ['+'] => numbers fun m n => .ok (m + n)
  | ['-'] => numbers fun m n => .ok (m - n)
  | ['*'] => numbers fun m n => .ok (m * n)
  | ['/'] => divided Int.tdiv
  | ['%'] => divided Int.tmod
  | [':'] => matchedPart a b
  | _ => .ok (if (comparison? sign a b).getD false then ['1'] else ['0'])

mutual

/-- The value of words at a level, and the words behind it. -/
def sumAt (level : Nat) : (fuel : Nat) → (behind : Option Text) → List Text → SumValue
  | 0, _, _ => .error (3, "syntax error")
  | fuel + 1, behind, words =>
    if 5 < level then sumWord fuel behind words
    else
      match sumAt (level + 1) fuel behind words with
      | .error e => .error e
      | .ok (a, rest) => sumMore level fuel a rest

/-- The rest of a row of operators of one level. -/
def sumMore (level : Nat) : (fuel : Nat) → Text → List Text → SumValue
  | 0, a, rest => .ok (a, rest)
  | fuel + 1, a, rest =>
    match rest with
    | sign :: more =>
      if (sumOperators level).contains sign then
        match sumAt (level + 1) fuel (some sign) more with
        | .error e => .error e
        | .ok (b, rest) =>
          match operate sign a b with
          | .error e => .error e
          | .ok c => sumMore level fuel c rest
      else .ok (a, rest)
    | [] => .ok (a, [])

/-- The value of a word, of words in brackets, or of a function and its words. -/
def sumWord : (fuel : Nat) → (behind : Option Text) → List Text → SumValue
  | 0, _, _ => .error (3, "syntax error")
  | fuel + 1, behind, words =>
    let missing (sign : Text) : SumValue := .error (2, "syntax error: missing argument after " ++ quoted sign)
    match words with
    | [] => missing (behind.getD [])
    | word :: rest =>
      match String.ofList word with
      | "(" =>
        match sumAt 0 fuel (some word) rest with
        | .error e => .error e
        | .ok (value, [')'] :: after) => .ok (value, after)
        | .ok (_, other :: _) =>
          .error (2, "syntax error: expecting ')' instead of " ++ quoted other)
        | .ok (_, []) => .error (2, "syntax error: expecting ')' after " ++ quoted (words.getLast?.getD []))
      | ")" => .error (2, "syntax error: unexpected ')'")
      | "+" =>
        match rest with
        | [] => missing word
        | literal :: after => .ok (literal, after)
      | "length" =>
        match rest with
        | [] => missing word
        | _ => (sumWord fuel (some word) rest).map fun (a, after) => (Text.ofNat (Raw.chars a).length, after)
      | "match" => do
        let (a, rest) ← sumWord fuel (some word) rest
        let (b, rest) ← sumWord fuel (some a) rest
        pure (← matchedPart a b, rest)
      | "index" => do
        let (a, rest) ← sumWord fuel (some word) rest
        let (b, rest) ← sumWord fuel (some a) rest
        let chars := Raw.chars a
        let before := (chars.takeWhile fun c => !(Raw.chars b).contains c).length
        pure (if before < chars.length then Text.ofNat (before + 1) else ['0'], rest)
      | "substr" => do
        let (a, rest) ← sumWord fuel (some word) rest
        let (from_, rest) ← sumWord fuel (some a) rest
        let (count, rest) ← sumWord fuel (some from_) rest
        let value := match wholeNumber? from_, wholeNumber? count with
          | some m, some n =>
            if m ≤ 0 || n ≤ 0 then [] else (((Raw.chars a).drop (m.toNat - 1)).take n.toNat).flatten
          | _, _ => []
        pure (value, rest)
      | _ => .ok (word, rest)

end

/-- Prints the value of a sum of words. -/
def expr : Tool := fun _ _ words => do
  let tool := words.headD []
  let given := match words.drop 1 with
    | ['-', '-'] :: rest => rest
    | rest => rest
  if given.isEmpty then misused tool 2 "missing operand"
  let value : Except (Nat × Text) Text := match sumAt 0 (16 * given.length + 16) none given with
    | .ok (value, []) => .ok value
    | .ok (_, other :: _) => .error (2, "syntax error: unexpected argument " ++ quoted other)
    | .error e => .error e
  match value with
  | .ok value =>
    write 1 (value ++ ['\n'])
    return if isNothing value then 1 else 0
  | .error (status, complaint) =>
    complain (tool ++ ": " ++ complaint)
    return status

end FlowTypes.Script.Tool
