import FlowTypes.Script.Tool.Order
import FlowTypes.Script.Tool.Streams

/-!
# Sorting and comparing lines

Tools that put lines in order, and tools that work on lines that are in order: they drop or count repeated lines,
and they tell the lines of two files apart.
-/

namespace FlowTypes.Script.Tool

open Errand

/-! ## Sorting -/

/-- A style with one more letter; none if it is no letter of a style. -/
def styleWith (s : Order.Style) (letter : Char) : Option Order.Style :=
  match letter with
  | 'n' => some { s with manner := .number }
  | 'g' => some { s with manner := .general }
  | 'h' => some { s with manner := .size }
  | 'M' => some { s with manner := .month }
  | 'V' => some { s with manner := .version }
  | 'r' => some { s with turned := true }
  | 'f' => some { s with folded := true }
  | 'd' => some { s with dictionary := true }
  | 'i' => some { s with printable := true }
  | 'b' => some { s with skipsStart := true, skipsEnd := true }
  | _ => none

/-- A number at the start of a text and what follows it. -/
def takeNumber? (t : Text) : Option (Nat × Text) :=
  let digits := t.takeWhile Char.isDigit
  if digits.isEmpty then none else some (Raw.natOf digits, t.drop digits.length)

/-- A key as it is written, with the style of those that have none; or what is wrong with it. -/
def readKey (standard : Order.Style) (t : Text) : Except Text Order.Key := do
  let invalid (what : Text) : Text := what ++ ": invalid field specification " ++ quoted t
  let count (what : Text) (u : Text) : Except Text (Nat × Text) :=
    match takeNumber? u with
    | some found => .ok found
    | none => .error ("invalid number " ++ what ++ ": invalid count at start of " ++ quoted u)
  let letters (u : Text) : Text := u.takeWhile (("bdfgiMhnRrV".toList).contains ·)
  let (field, u) ← count "at field start" t
  if field = 0 then throw (invalid "field number is zero")
  let (char, u) ← match u with
    | '.' :: rest => count "after '.'" rest
    | _ => .ok (1, u)
  if char = 0 then throw (invalid "character offset is zero")
  let first := letters u
  let u := u.drop first.length
  let (last, second, u) ← match u with
    | ',' :: rest => do
      let (field, u) ← count "after ','" rest
      if field = 0 then throw (invalid "field number is zero")
      let (char, u) ← match u with
        | '.' :: rest => count "after '.'" rest
        | _ => .ok (0, u)
      let second := letters u
      pure (some (field - 1, char), second, u.drop second.length)
    | _ => pure (none, [], u)
  if !u.isEmpty then throw (invalid "stray character in field spec")
  let style :=
    if first.isEmpty && second.isEmpty then standard
    else
      let all := (first ++ second).foldl (fun s c => (styleWith s c).getD s) {}
      { all with skipsStart := first.contains 'b', skipsEnd := second.contains 'b' }
  pure ⟨field - 1, char - 1, last, style⟩

/-- Lines of which those that compare the same as the one before go away. -/
def dropEqual (compare : Text → Text → Ordering) : List Text → List Text
  | a :: b :: rest => if compare a b = .eq then dropEqual compare (a :: rest) else a :: dropEqual compare (b :: rest)
  | lines => lines
termination_by lines => lines.length

/-- The first line that is out of order, with its number. -/
def disorder? (bad : Text → Text → Bool) (number : Nat) : List Text → Option (Nat × Text)
  | a :: b :: rest => if bad a b then some (number + 1, b) else disorder? bad (number + 1) (b :: rest)
  | _ => none

/-- Puts lines in order. -/
def sort : Tool := fun _ _ words => do
  let tool := words.headD []
  let known : Known := ⟨"bcCdfghik:mMno:rRsS:t:T:uVz", [("ignore-leading-blanks", 'b'), ("check", 'c'),
    ("dictionary-order", 'd'), ("ignore-case", 'f'), ("general-numeric-sort", 'g'),
    ("human-numeric-sort", 'h'), ("ignore-nonprinting", 'i'), ("key", 'k'), ("merge", 'm'), ("month-sort", 'M'),
    ("numeric-sort", 'n'), ("output", 'o'), ("reverse", 'r'), ("stable", 's'), ("field-separator", 't'),
    ("unique", 'u'), ("version-sort", 'V'), ("zero-terminated", 'z')]⟩
  let (given, names) ← options known 2 words
  let fail {α : Type} (complaint : Text) : Errand α := do
    complain (tool ++ ": " ++ complaint)
    finish 2
  let style := given.foldl (fun s g => (styleWith s g.1).getD s) {}
  let separator ← match argument? given 't' with
    | none => pure none
    | some [c] => pure (some c)
    | some ['\\', '0'] => pure (some '\x00')
    | some [] => fail "empty tab"
    | some t => fail ("multi-character tab " ++ quoted t)
  let keys ← (argumentsOf given 'k').mapM fun t =>
    match readKey style t with
    | .ok k => pure k
    | .error complaint => fail complaint
  let keys := if keys.isEmpty then [⟨0, 0, none, style⟩] else keys
  let unique := has given 'u'
  let compare := Order.compare keys separator (!unique && !has given 's') style.turned
  let names := orInput names
  let (found, status) ← contents names (fun name trouble =>
    tool ++ ": " ++ (match trouble with
      | .opening _ => ("cannot read" : Text)
      | .reading _ => "read failed") ++ ": " ++ name ++ ": " ++ trouble.cause.words) 2
  if status != 0 then return 2
  let lineEnd := if has given 'z' then '\x00' else '\n'
  let linesOf (t : Text) : List Text := (cutBehind lineEnd t).map fun line =>
    if line.getLast? = some lineEnd then line.dropLast else line
  if has given 'c' || has given 'C' then
    let bad (a b : Text) : Bool := compare a b = .gt || (unique && compare a b = .eq)
    match disorder? bad 1 (found.flatMap fun (_, t) => linesOf t) with
    | none => return 0
    | some (n, line) =>
      if !has given 'C' then
        complain (tool ++ ": " ++ names.headD [] ++ ":" ++ Text.ofNat n ++ ": disorder: " ++ line)
      return 1
  else
    let lines := (found.flatMap fun (_, t) => linesOf t).mergeSort fun a b => compare a b != .gt
    let lines := if unique then dropEqual compare lines else lines
    let printed := lines.flatMap (· ++ [lineEnd])
    match argument? given 'o' with
    | none =>
      write 1 printed
      return 0
    | some path =>
      match ← ask (.openFile fileChannel path .writing) with
      | .refused cause => fail ("open failed: " ++ path ++ ": " ++ cause.words)
      | _ =>
        write fileChannel printed
        return 0

/-! ## Lines in order -/

/-- Lines that repeat, each run with the first line and how many there are. -/
def runsOf (same : Text → Text → Bool) : List Text → List (List Text)
  | [] => []
  | line :: rest =>
    match runsOf same rest with
    | (next :: more) :: others =>
      if same line next then (line :: next :: more) :: others else [line] :: (next :: more) :: others
    | others => [line] :: others

/-- Prints lines that repeat the one before only once, or counts them. -/
def uniq : Tool := fun _ _ words => do
  let tool := words.headD []
  let known : Known := ⟨"cdDuif:s:w:z", [("count", 'c'), ("repeated", 'd'), ("all-repeated", 'D'),
    ("unique", 'u'), ("ignore-case", 'i'), ("skip-fields", 'f'), ("skip-chars", 's'), ("check-chars", 'w'),
    ("zero-terminated", 'z')]⟩
  let (given, names) ← options known 1 words
  let number (letter : Char) (what : Text) : Errand (Option Nat) := do
    match argument? given letter with
    | none => return none
    | some t =>
      match Raw.nat? t with
      | some n => return some n
      | none =>
        complain (tool ++ ": " ++ t ++ ": invalid number of " ++ what)
        finish 1
  let fields := (← number 'f' "fields to skip").getD 0
  let chars := (← number 's' "bytes to skip").getD 0
  let most ← number 'w' "bytes to compare"
  if 2 < names.length then misused tool 1 ("extra operand " ++ quoted (names.getD 2 []))
  let key (line : Text) : Text :=
    let t := (Order.skipFields none true fields line).drop chars
    let t := match most with
      | some n => t.take n
      | none => t
    if has given 'i' then t.map Char.toUpper else t
  let (found, status) ← contents ((orInput names).take 1) (plainly tool)
  if status != 0 then return status
  let runs := runsOf (fun a b => key a = key b) (Raw.lines (found.flatMap (·.2)))
  let printed := runs.flatMap fun run =>
    let n := run.length
    if has given 'D' then (if 1 < n then Raw.ofLines run else [])
    else if (has given 'd' && n = 1) || (has given 'u' && 1 < n) then []
    else
      (if has given 'c' then Text.padLeft 7 (Text.ofNat n) ++ [' '] else []) ++ run.headD [] ++ ['\n']
  match names with
  | [_, path] =>
    match ← ask (.openFile fileChannel path .writing) with
    | .refused cause =>
      complain (tool ++ ": " ++ path ++ ": " ++ cause.words)
      return 1
    | _ =>
      write fileChannel printed
      return 0
  | _ =>
    write 1 printed
    return 0

/-- The two files that a tool compares. -/
def twoFiles (words names : List Text) (status : Nat) : Errand (Text × Text) := do
  let tool := words.headD []
  match names with
  | [] => misused tool status "missing operand"
  | [only] => misused tool status ("missing operand after " ++ quoted only)
  | [a, b] =>
    let (found, bad) ← contents [a, b] (plainly tool) status
    match bad, found with
    | 0, [(_, s), (_, t)] => return (s, t)
    | _, _ => finish status
  | _ :: _ :: third :: _ => misused tool status ("extra operand " ++ quoted third)

/-- The lines of two sorted lists, and whether each is in the first one, in the second one or in both. -/
def mergedLines : (fuel : Nat) → List Text → List Text → List (Nat × Text)
  | 0, _, _ => []
  | fuel + 1, left, right =>
    match left, right with
    | [], _ => right.map (2, ·)
    | _, [] => left.map (1, ·)
    | a :: rest, b :: others =>
      if a = b then (3, a) :: mergedLines fuel rest others
      else if Text.le a b then (1, a) :: mergedLines fuel rest right
      else (2, b) :: mergedLines fuel left others

/-- Prints lines that are in one of two sorted files, or in both. -/
def comm : Tool := fun _ _ words => do
  let tool := words.headD []
  let (given, names) ← options ⟨"123z", [("output-delimiter", 'o')]⟩ 1 words
  let (s, t) ← twoFiles words names 1
  let (left, right) := (Raw.lines s, Raw.lines t)
  let merged := mergedLines (left.length + right.length + 1) left right
  let tab (letter : Char) : Text := if has given letter then [] else ['\t']
  write 1 (merged.flatMap fun (n, line) =>
    if n = 1 && !has given '1' then line ++ ['\n']
    else if n = 2 && !has given '2' then tab '1' ++ line ++ ['\n']
    else if n = 3 && !has given '3' then tab '1' ++ tab '2' ++ line ++ ['\n']
    else [])
  let unsorted (lines : List Text) : Bool := (disorder? (fun a b => !Text.le a b) 1 lines).isSome
  if unsorted left then complain (tool ++ ": file 1 is not in sorted order")
  if unsorted right then complain (tool ++ ": file 2 is not in sorted order")
  if unsorted left || unsorted right then
    complain (tool ++ ": input is not in sorted order")
    return 1
  else return 0

/-- Joins the lines of two sorted files that have the same key. -/
def join : Tool := fun _ _ words => do
  let (given, names) ← options ⟨"1:2:j:t:a:v:o:e:i", [("ignore-case", 'i')]⟩ 1 words
  let (s, t) ← twoFiles words names 1
  let separator := (argument? given 't').bind (·.head?)
  let fieldsOf (line : Text) : List Text :=
    match separator with
    | some c => Raw.fields c line
    | none => (Raw.fields ' ' (line.map fun c => if c == '\t' then ' ' else c)).filter (!·.isEmpty)
  let place (letter : Char) : Nat :=
    (((argument? given letter).orElse fun _ => argument? given 'j').bind Raw.nat?).getD 1 - 1
  let rows (t : Text) (key : Nat) : List (Text × List Text) :=
    (Raw.lines t).map fun line => ((fieldsOf line).getD key [], fieldsOf line)
  let (left, right) := (rows s (place '1'), rows t (place '2'))
  let empty := (argument? given 'e').getD []
  let others (key : Nat) (fields : List Text) : List Text := fields.eraseIdx key
  let shape := (argument? given 'o').map fun o => (Raw.fields ',' (o.map fun c => if c == ' ' then ',' else c)).map
    fun part => (Raw.fields '.' part).map fun n => (Raw.nat? n).getD 0
  let row (key : Text) (a b : Option (List Text)) : Text :=
    let parts := match shape with
      | none => key :: others (place '1') (a.getD []) ++ others (place '2') (b.getD [])
      | some parts => parts.map fun part =>
        match part with
        | [1, n] => ((a.getD [])[n - 1]?).getD empty
        | [2, n] => ((b.getD [])[n - 1]?).getD empty
        | _ => key
    Text.join [separator.getD ' '] parts ++ ['\n']
  let alone (n : Text) : Bool := (argumentsOf given 'a').contains n || (argumentsOf given 'v').contains n
  let onlyAlone := has given 'v'
  let keys := ((left ++ right).map (·.1)).eraseDups.mergeSort Text.le
  write 1 (keys.flatMap fun key =>
    let (x, y) := (left.filter (·.1 = key), right.filter (·.1 = key))
    if y.isEmpty then (if alone ['1'] then x.flatMap fun r => row key (some r.2) none else [])
    else if x.isEmpty then (if alone ['2'] then y.flatMap fun r => row key none (some r.2) else [])
    else if onlyAlone then []
    else x.flatMap fun r => y.flatMap fun q => row key (some r.2) (some q.2))
  return 0

end FlowTypes.Script.Tool
