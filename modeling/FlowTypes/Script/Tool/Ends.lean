import FlowTypes.Script.Tool.Streams

/-!
# Starts and ends

Tools that print the start or the end of what they read, by lines or by bytes. `head` reads no more than it has
to, and what it has read too much goes back to a file.
-/

namespace FlowTypes.Script.Tool

open Errand

/-- How much of a file is meant: a number of lines or bytes, counted from the other side if `turned`. -/
structure Portion where
  bytes : Bool
  count : Nat
  turned : Bool

/-- An option of the old form: a sign, a number, and letters. -/
def oldForm? (sign : Char) (word : Text) : Option (Text × Text) :=
  match word with
  | c :: d :: rest =>
    if c == sign && d.isDigit then
      let digits := (d :: rest).takeWhile Char.isDigit
      let letters := (d :: rest).drop digits.length
      if letters.all (("clqvbkm".toList).contains ·) then some (digits, letters) else none
    else none
  | _ => none

/-- Options of the old form rewritten to those of today. -/
def modernized (tool : Text) (words : List Text) : List Text :=
  match words with
  | word :: rest =>
    match oldForm? '-' word, (if tool = ("tail" : Text) then oldForm? '+' word else none) with
    | some (digits, letters), _ =>
      let unit := if letters.contains 'c' || letters.contains 'b' || letters.contains 'k' then 'c' else 'n'
      ('-' :: unit :: digits) :: (if letters.contains 'q' then [['-', 'q']] else []) ++ rest
    | none, some (digits, letters) =>
      ('-' :: (if letters.contains 'c' then 'c' else 'n') :: '+' :: digits) :: rest
    | none, none => words
  | [] => []

/-- What an option for a portion says; `turn` is the sign that turns it around. -/
def portionOf (tool : Text) (turn : Char) (given : List Given) : Errand Portion := do
  match (given.filter fun g => g.1 == 'n' || g.1 == 'c').getLast? with
  | none => return ⟨false, 10, false⟩
  | some (letter, argument) =>
    let t := argument.getD []
    let sign := t.head?
    let body := if sign = some '-' || sign = some '+' then t.drop 1 else t
    match sizeOf? body with
    | some n => return ⟨letter == 'c', n, sign = some turn⟩
    | none =>
      complain (tool ++ ": invalid number of " ++ (if letter == 'c' then ("bytes" : Text) else "lines") ++ ": "
        ++ quoted t)
      finish 1

/-- The title of a file. -/
def title (first : Bool) (name : Text) : Text :=
  (if first then [] else ['\n']) ++ "==> " ++ (if name = (['-'] : Text) then ("standard input" : Text) else name)
    ++ " <==\n"

/-- The line ends in a text up to a number of them: how many characters go up to the last one, and how many are
missing. -/
def upToLines : (count : Nat) → Text → Nat × Nat
  | 0, _ => (0, 0)
  | count, [] => (0, count)
  | count + 1, c :: rest =>
    let (n, missing) := upToLines (if c == '\n' then count else count + 1) rest
    (n + 1, missing)

/-- The start of what a channel gives. -/
def startOf (channel : Nat) (bytes : Bool) : (fuel count : Nat) → List Text → Errand (Except Refusal Text)
  | 0, _, chunks => return .ok chunks.reverse.flatten
  | fuel + 1, count, chunks => do
    if count = 0 then return .ok chunks.reverse.flatten
    match ← ask (.read channel (if bytes then min count portion else 1024)) with
    | .refused cause => return .error cause
    | .bytes [] => return .ok chunks.reverse.flatten
    | .bytes t =>
      if bytes then startOf channel bytes fuel (count - t.length) (t :: chunks)
      else
        let (n, missing) := upToLines count t
        if missing = 0 then
          tell (.giveBack channel (t.drop n))
          return .ok (t.take n :: chunks).reverse.flatten
        else startOf channel bytes fuel missing (t :: chunks)
    | _ => return .ok chunks.reverse.flatten

/-- All but the end of a text. -/
def withoutEnd (bytes : Bool) (count : Nat) (t : Text) : Text :=
  if bytes then t.take (t.length - count)
  else
    let lines := cutBehind '\n' t
    (lines.take (lines.length - count)).flatten

/-- The end of a text, or all from a place on. -/
def endOf (p : Portion) (t : Text) : Text :=
  if p.bytes then (if p.turned then t.drop (p.count - 1) else t.drop (t.length - p.count))
  else
    let lines := cutBehind '\n' t
    (if p.turned then lines.drop (p.count - 1) else lines.drop (lines.length - p.count)).flatten

/-- Files in turn, each with its title if there are several. `part` gives what is printed of the one that a channel
leads to. -/
def eachTitled (tool : Text) (titles : Bool) (part : Nat → Errand (Except Refusal Text)) (first : Bool)
    (printed : Text) (status : Nat) : List Text → Errand (Text × Nat)
  | [] => return (printed, status)
  | name :: rest => do
    let channel := if name = (['-'] : Text) then 0 else fileChannel
    let opened ← if channel = 0 then pure none else
      match ← ask (.openFile channel name .reading) with
      | .refused cause => pure (some cause)
      | _ => pure none
    match opened with
    | some cause =>
      complain (tool ++ ": cannot open " ++ inQuotes name ++ " for reading: " ++ cause.words)
      eachTitled tool titles part first printed 1 rest
    | none =>
      let printed := if titles then printed ++ title first name else printed
      match ← part channel with
      | .ok t => eachTitled tool titles part false (printed ++ t) status rest
      | .error cause =>
        complain (tool ++ ": error reading " ++ inQuotes name ++ ": " ++ cause.words)
        eachTitled tool titles part false printed 1 rest

/-- Prints the start of its files. -/
def head : Tool := fun _ _ words => do
  let tool := words.headD []
  let known : Known := ⟨"c:n:qvz", [("bytes", 'c'), ("lines", 'n'), ("quiet", 'q'), ("silent", 'q'),
    ("verbose", 'v'), ("zero-terminated", 'z')]⟩
  let (given, names) ← options known 1 (tool :: modernized "head" (words.drop 1))
  let p ← portionOf tool '-' given
  let names := orInput names
  let titles := has given 'v' || (1 < names.length && !has given 'q')
  let part (channel : Nat) : Errand (Except Refusal Text) := do
    if p.turned then
      match ← readAll channel readings [] with
      | .ok t => return .ok (withoutEnd p.bytes p.count t)
      | .error cause => return .error cause
    else startOf channel p.bytes readings p.count []
  let (printed, status) ← eachTitled tool titles part true [] 0 names
  write 1 printed
  return status

/-- Prints the end of its files. -/
def tail : Tool := fun _ _ words => do
  let tool := words.headD []
  let known : Known := ⟨"c:n:qvzfFs:", [("bytes", 'c'), ("lines", 'n'), ("quiet", 'q'), ("silent", 'q'),
    ("verbose", 'v'), ("zero-terminated", 'z'), ("follow", 'f'), ("retry", 'F'), ("sleep-interval", 's')]⟩
  let (given, names) ← options known 1 (tool :: modernized "tail" (words.drop 1))
  let p ← portionOf tool '+' given
  let names := orInput names
  let titles := has given 'v' || (1 < names.length && !has given 'q')
  let part (channel : Nat) : Errand (Except Refusal Text) := do
    match ← readAll channel readings [] with
    | .ok t => return .ok (endOf p t)
    | .error cause => return .error cause
  let (printed, status) ← eachTitled tool titles part true [] 0 names
  write 1 printed
  if (has given 'f' || has given 'F') && names != [['-']] && status = 0 then tell .hang
  return status

end FlowTypes.Script.Tool
