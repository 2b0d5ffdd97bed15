import FlowTypes.Script.Field
import FlowTypes.Script.Printing
import FlowTypes.Script.Tool.Streams

/-!
# Parts of lines and single bytes

`cut` prints some of the bytes or fields of lines, and `tr` changes, removes or squeezes single bytes.
-/

namespace FlowTypes.Script.Tool

open Errand

/-! ## Parts of lines -/

/-- A range of places from one on; without an end it goes on to the end of the line. -/
abbrev Range := Nat × Option Nat

/-- Ranges that overlap become one. -/
def mergedRanges : List Range → List Range
  | (a, b) :: (c, d) :: rest =>
    if b.all (c ≤ ·) then
      mergedRanges ((a, match b, d with
        | some x, some y => some (max x y)
        | _, _ => none) :: rest)
    else (a, b) :: mergedRanges ((c, d) :: rest)
  | ranges => ranges
termination_by ranges => ranges.length

/-- What is between the ranges, from a place on. -/
def complementRanges (start : Nat) : List Range → List Range
  | [] => [(start, none)]
  | (a, b) :: rest =>
    (if start < a then [(start, some (a - 1))] else []) ++ match b with
      | some n => complementRanges (n + 1) rest
      | none => []

/-- The ranges that a list names, in order; or what is wrong with it. -/
def readRanges (fields : Bool) (t : Text) : Except Text (List Range) := do
  let parts := Raw.fields ',' (t.map fun c => if c == ' ' || c == '\t' then ',' else c)
  let counted : Text := if fields then "fields are numbered from 1" else "byte/character positions are numbered from 1"
  let misfit (u : Text) : Text :=
    if fields then "invalid field value " ++ quoted u else "invalid byte/character position " ++ quoted u
  let number (u : Text) : Except Text Nat :=
    match Raw.nat? u with
    | some 0 => .error counted
    | some n => .ok n
    | none => .error (misfit (u.dropWhile Char.isDigit))
  let ranges ← parts.mapM fun part => do
    if part.isEmpty then throw counted
    let low := part.takeWhile (· != '-')
    match part.drop low.length with
    | [] => do
      let n ← number low
      pure (n, some n)
    | _ :: high =>
      if high.contains '-' then
        throw (if fields then ("invalid field range" : Text) else "invalid byte or character range")
      if low.isEmpty && high.isEmpty then throw ("invalid range with no endpoint: -" : Text)
      let a ← if low.isEmpty then .ok 1 else number low
      let b ← if high.isEmpty then .ok none else some <$> number high
      if b.any (· < a) then throw ("invalid decreasing range" : Text)
      pure (a, b)
  pure (mergedRanges (ranges.mergeSort fun x y => x.1 ≤ y.1))

/-- The members of a list at the places of some ranges, range by range. -/
def atRanges {α : Type} (ranges : List Range) (items : List α) : List (List α) :=
  (ranges.map fun (a, b) =>
    let rest := items.drop (a - 1)
    match b with
    | some n => rest.take (n + 1 - a)
    | none => rest).filter (!·.isEmpty)

/-- Prints parts of lines. -/
def cut : Tool := fun _ _ words => do
  let tool := words.headD []
  let known : Known := ⟨"b:c:d:f:nszo:C", [("bytes", 'b'), ("characters", 'c'), ("fields", 'f'),
    ("delimiter", 'd'), ("only-delimited", 's'), ("output-delimiter", 'o'), ("complement", 'C'),
    ("zero-terminated", 'z')]⟩
  let (given, names) ← options known 1 words
  let fail {α : Type} (complaint : Text) : Errand α := misused tool 1 complaint
  let lists := given.filter fun g => g.1 == 'b' || g.1 == 'c' || g.1 == 'f'
  match lists with
  | [] => fail "you must specify a list of bytes, characters, or fields"
  | _ :: _ :: _ => fail "only one list may be specified"
  | [(unit, list)] =>
    let byField := unit == 'f'
    if (argument? given 'd').any (1 < ·.length) then fail "the delimiter must be a single character"
    if !byField && has given 'd' then
      fail "an input delimiter may be specified only when operating on fields"
    if !byField && has given 's' then
      fail "suppressing non-delimited lines makes sense\n\tonly when operating on fields"
    let delimiter := (argument? given 'd').elim '\t' (·.headD '\x00')
    match readRanges byField (list.getD []) with
    | .error complaint => fail complaint
    | .ok ranges =>
      let ranges := if has given 'C' then complementRanges 1 ranges else ranges
      let shown := argument? given 'o'
      let part (line : Text) : Option Text :=
        if byField then
          let fields := Raw.fields delimiter line
          if fields.length ≤ 1 then (if has given 's' then none else some line)
          else some (Text.join (shown.getD [delimiter]) (atRanges ranges fields).flatten)
        else some (Text.join (shown.getD []) (atRanges ranges line))
      let lineEnd := if has given 'z' then '\x00' else '\n'
      onAll tool names fun t =>
        ((cutBehind lineEnd t).filterMap fun line =>
          part (if line.getLast? = some lineEnd then line.dropLast else line)).flatMap (· ++ [lineEnd])

/-! ## Bytes -/

/-- A part of a set of bytes as it is written. -/
inductive SetPart where
  | byte (c : Char)
  | range (low high : Char)
  | ofClass (name : Text)
  /-- A byte so many times; without a number, as often as it is needed. -/
  | times (c : Char) (count : Option Nat)
  deriving DecidableEq

/-- The bytes of a set as it is written, each with whether it stood behind a backslash. -/
def unescaped : (fuel : Nat) → Text → List (Char × Bool)
  | 0, _ => []
  | _ + 1, [] => []
  | fuel + 1, '\\' :: c :: rest =>
    let octal := ((c :: rest).take 3).takeWhile Printing.isOctal
    if !octal.isEmpty then
      let octal := if 255 < Raw.octalOf octal then octal.take 2 else octal
      (Char.ofNat (Raw.octalOf octal), true) :: unescaped fuel ((c :: rest).drop octal.length)
    else
      let meaning := [('a', '\x07'), ('b', '\x08'), ('f', '\x0c'), ('n', '\n'), ('r', '\r'), ('t', '\t'),
        ('v', '\x0b')].lookup c
      (meaning.getD c, true) :: unescaped fuel rest
  | fuel + 1, c :: rest => (c, false) :: unescaped fuel rest

/-- The parts of a set; or what is wrong with it. -/
def setParts : (fuel : Nat) → List (Char × Bool) → Except Text (List SetPart)
  | 0, _ => .ok []
  | _ + 1, [] => .ok []
  | fuel + 1, ('[', false) :: (':', false) :: rest =>
    let name := (rest.takeWhile fun c => c != (':', false)).map (·.1)
    match rest.drop name.length with
    | (':', false) :: (']', false) :: after =>
      if (Field.classRanges? name).isSome then do
        let others ← setParts fuel after
        .ok (.ofClass name :: others)
      else .error ("invalid character class " ++ quoted name)
    | _ => do
      let others ← setParts fuel ((':', false) :: rest)
      .ok (.byte '[' :: others)
  | fuel + 1, ('[', false) :: ('=', false) :: c :: ('=', false) :: (']', false) :: rest => do
    let others ← setParts fuel rest
    .ok (.byte c.1 :: others)
  | fuel + 1, ('[', false) :: c :: ('*', false) :: rest =>
    let digits := (rest.takeWhile fun d => d.1.isDigit && !d.2).map (·.1)
    match rest.drop digits.length with
    | (']', false) :: after => do
      let count := if digits.head? = some '0' then Raw.octalOf digits else Raw.natOf digits
      let others ← setParts fuel after
      .ok (.times c.1 (if count = 0 then none else some count) :: others)
    | _ => do
      let others ← setParts fuel (c :: ('*', false) :: rest)
      .ok (.byte '[' :: others)
  | fuel + 1, a :: ('-', false) :: b :: rest =>
    if b.1.toNat < a.1.toNat then
      .error ("range-endpoints of " ++ inQuotes [a.1, '-', b.1]
        ++ " are in reverse collating sequence order")
    else do
      let others ← setParts fuel rest
      .ok (.range a.1 b.1 :: others)
  | fuel + 1, c :: rest => do
    let others ← setParts fuel rest
    .ok (.byte c.1 :: others)

/-- The bytes of a range. -/
def bytesOf (low high : Char) : Text :=
  (List.range (high.toNat + 1 - low.toNat)).map fun n => Char.ofNat (low.toNat + n)

/-- The bytes of a part; `missing` is how often a byte is repeated that is repeated as often as it is needed. -/
def SetPart.bytes (missing : Nat) : SetPart → Text
  | byte c => [c]
  | range low high => bytesOf low high
  | ofClass name =>
    ((((Field.classRanges? name).getD []).map fun (a, b) => bytesOf a b).flatten.mergeSort fun a b => a.toNat ≤ b.toNat)
  | times c count => List.replicate (count.getD missing) c

/-- Bytes that stand next to themselves and are in a set go away. -/
def squeezed (inSet : Char → Bool) (t : Text) : Text :=
  (t.foldl (fun done c => if done.head? = some c && inSet c then done else c :: done) []).reverse

/-- Changes, removes or squeezes bytes. -/
def tr : Tool := fun _ _ words => do
  let tool := words.headD []
  let known : Known := ⟨"cCdst", [("complement", 'c'), ("delete", 'd'), ("squeeze-repeats", 's'),
    ("truncate-set1", 't')]⟩
  let (given, sets) ← options known 1 words false
  let deletes := has given 'd'
  let squeezes := has given 's'
  let translates := !deletes && 1 < sets.length
  let fail {α : Type} (complaint : Text) : Errand α := do
    complain (tool ++ ": " ++ complaint)
    finish 1
  let most := if deletes && !squeezes then 1 else 2
  let least := if deletes != squeezes then 1 else 2
  if sets.isEmpty then misused tool 1 "missing operand"
  if sets.length < least then
    complain (tool ++ ": missing operand after " ++ quoted (sets.getLastD []))
    complain (if squeezes then "Two strings must be given when both deleting and squeezing repeats."
      else "Two strings must be given when translating.")
    complain ("Try '" ++ tool ++ " --help' for more information.")
    finish 1
  if most < sets.length then
    complain (tool ++ ": extra operand " ++ quoted (sets.getD most []))
    if most = 1 then complain "Only one string may be given when deleting without squeezing repeats."
    complain ("Try '" ++ tool ++ " --help' for more information.")
    finish 1
  let partsOf (t : Text) : Errand (List SetPart) := do
    if ((t.reverse.takeWhile (· == '\\')).length) % 2 = 1 then
      complain (tool ++ ": warning: an unescaped backslash at end of string is not portable")
    match setParts (t.length + 1) (unescaped (t.length + 1) t) with
    | .ok parts => pure parts
    | .error complaint => fail complaint
  let firstParts ← partsOf (sets.headD [])
  let secondParts ← partsOf ((sets.drop 1).headD [])
  if firstParts.any fun p => p matches .times _ _ then
    fail "the [c*] repeat construct may not appear in string1"
  let plainFirst := firstParts.flatMap (·.bytes 0)
  let complemented := has given 'c' || has given 'C'
  let first := if complemented then (List.range 256).map Char.ofNat |>.filter (!plainFirst.contains ·) else plainFirst
  let known := (secondParts.map fun p => (p.bytes 0).length).foldl (· + ·) 0
  let second := secondParts.flatMap (·.bytes (first.length - known))
  if translates then
    if second.isEmpty && !has given 't' && !first.isEmpty then
      fail "when not truncating set1, string2 must be non-empty"
    let cases : List Text := ["upper", "lower"]
    if secondParts.any fun p => match p with
      | .ofClass name => !cases.contains name
      | _ => false
    then fail "when translating, the only character classes that may appear in\nstring2 are 'upper' and 'lower'"
    if second.length < first.length && !has given 't' && (match secondParts.getLast? with
      | some (.ofClass _) => true
      | _ => false)
    then fail "when translating with string1 longer than string2,\nthe latter string must not end with a character class"
  let last := second.getLastD '\x00'
  -- of two targets for one byte the later one counts
  let table := (first.mapIdx fun n c => (c, n)).reverse
  let change (c : Char) : Char :=
    match table.lookup c with
    | some n => match second[n]? with
      | some d => d
      | none => if has given 't' then c else last
    | none => c
  let changed : List (Char × Char) := ((List.range 256).map Char.ofNat).map fun c => (c, change c)
  let lookup := (changed.map (·.2)).toArray
  let isFirst := (((List.range 256).map Char.ofNat).map first.contains).toArray
  let inFirst (c : Char) : Bool := isFirst.getD c.toNat false
  match ← readAll 0 readings [] with
  | .error cause => fail ("read error: " ++ cause.words)
  | .ok t =>
    let t := if deletes then t.filter (!inFirst ·)
      else if translates then t.map fun c => lookup.getD c.toNat c
      else t
    let t := if !squeezes then t
      else if translates || deletes then squeezed second.contains t
      else squeezed inFirst t
    write 1 t
    return 0

end FlowTypes.Script.Tool
