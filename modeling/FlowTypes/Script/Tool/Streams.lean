import FlowTypes.Script.Tool
import FlowTypes.Script.Tool.Blanks

/-!
# Tools that pass on what they read

Tools that print what they read, as it is or line by line in another form. Those that print it as it is do so as
soon as they have read it; the others read everything first.
-/

namespace FlowTypes.Script.Tool

open Errand

/-! ## Passing on -/

/-- What is read from a channel goes to other channels, up to its end. -/
def pass (source : Nat) (goals : List Nat) : (fuel : Nat) → Errand (Option Refusal)
  | 0 => return none
  | fuel + 1 => do
    match ← ask (.read source portion) with
    | .bytes [] => return none
    | .bytes t =>
      goals.forM fun goal => write goal t
      pass source goals fuel
    | .refused cause => return some cause
    | _ => return none

/-- A character as it is shown by letters: control characters behind a caret, and those beyond ASCII behind
`M-`. -/
def visible (c : Char) : Text :=
  let n := c.toNat
  let low (n : Nat) : Text :=
    if n < 32 then ['^', Char.ofNat (n + 64)] else if n = 127 then ['^', '?'] else [Char.ofNat n]
  if c == '\t' then [c] else if n < 128 then low n else 'M' :: '-' :: low (n - 128)

/-- How lines are shown. -/
structure Showing where
  numbers : Bool
  numbersFilled : Bool
  ends : Bool
  tabs : Bool
  control : Bool
  squeezed : Bool

/-- A line as it is shown, without its end. -/
def Showing.line (s : Showing) (ended : Bool) (t : Text) : Text :=
  let cut := s.ends && ended && !s.control && t.getLast? = some '\r'
  let shown := (if cut then t.dropLast else t).flatMap fun c =>
    if c == '\t' then (if s.tabs then ['^', 'I'] else [c]) else if s.control then visible c else [c]
  shown ++ (if cut then ['^', 'M'] else []) ++ (if s.ends && ended then ['$'] else [])

/-- Lines as they are shown, from a number on; `empty` says that the line before was empty. -/
def Showing.lines (s : Showing) (number : Nat) (empty : Bool) : List Text → Text
  | [] => []
  | t :: rest =>
    let ended := !rest.isEmpty
    if !ended && t.isEmpty then []
    else if s.squeezed && empty && t.isEmpty then s.lines number true rest
    else
      let counts := if s.numbersFilled then !t.isEmpty else s.numbers
      let label := if counts then Text.padLeft 6 (Text.ofNat number) ++ ['\t'] else []
      label ++ s.line ended t ++ (if ended then ['\n'] else [])
        ++ s.lines (if counts then number + 1 else number) t.isEmpty rest

/-- Prints files one after the other. -/
def cat : Tool := fun _ _ words => do
  let known : Known := ⟨"AbeEnstTuv", [("number-nonblank", 'b'), ("number", 'n'), ("squeeze-blank", 's'),
    ("show-nonprinting", 'v'), ("show-ends", 'E'), ("show-tabs", 'T'), ("show-all", 'A')]⟩
  let (given, names) ← options known 1 words
  let name := words.headD []
  let any (letters : Text) : Bool := letters.any (has given)
  let showing : Showing :=
    ⟨has given 'n', has given 'b', any "AeE", any "AtT", any "Aetv", has given 's'⟩
  if any "AbeEnstTv" then
    let (found, status) ← contents (orInput names) (plainly name)
    write 1 (showing.lines 1 false (Raw.fields '\n' (found.flatMap (·.2))))
    return status
  else each name 0 (orInput names)
where
  /-- Files as they are. -/
  each (tool : Text) (status : Nat) : List Text → Errand Nat
    | [] => return status
    | name :: rest => do
      let channel := if name = (['-'] : Text) then 0 else fileChannel
      let cause ← if channel = 0 then
          match ← ask (.read 0 0) with
          | .closed => do
            complain (tool ++ ": -: Bad file descriptor")
            complain (tool ++ ": closing standard input: Bad file descriptor")
            finish 1
          | _ => pure none
        else
          match ← ask (.openFile channel name .reading) with
          | .refused cause => pure (some cause)
          | _ => pure none
      let cause ← match cause with
        | some cause => pure (some cause)
        | none => pass channel [1] readings
      match cause with
      | some cause =>
        complain (tool ++ ": " ++ name ++ ": " ++ cause.words)
        each tool 1 rest
      | none => each tool status rest

/-- Prints what it reads and writes it to files. -/
def tee : Tool := fun _ _ words => do
  let (given, names) ← options ⟨"aip", [("append", 'a'), ("ignore-interrupts", 'i')]⟩ 1 words
  let mode : OpenMode := if has given 'a' then .adding else .writing
  let (channels, status) ← openAll (words.headD []) mode 100 names
  let _ ← pass 0 (1 :: channels) readings
  return status
where
  /-- Channels that lead to the files. -/
  openAll (tool : Text) (mode : OpenMode) (channel : Nat) : List Text → Errand (List Nat × Nat)
    | [] => return ([], 0)
    | name :: rest => do
      match ← ask (.openFile channel name mode) with
      | .refused cause =>
        complain (tool ++ ": " ++ name ++ ": " ++ cause.words)
        let (channels, _) ← openAll tool mode channel rest
        return (channels, 1)
      | _ =>
        let (channels, status) ← openAll tool mode (channel + 1) rest
        return (channel :: channels, status)

/-- Prints a line over and over, until nobody reads on. -/
def yes : Tool := fun _ _ words => do
  let line := Text.join [' '] (if words.length ≤ 1 then [['y']] else words.drop 1) ++ ['\n']
  let chunk := (List.replicate (8192 / line.length + 1) line).flatten
  again chunk readings
where
  /-- The same again and again. -/
  again (chunk : Text) : (fuel : Nat) → Errand Nat
    | 0 => return 0
    | fuel + 1 => do
      write 1 chunk
      again chunk fuel

/-! ## Line by line -/

/-- Texts cut behind each separator; the last one may go without. -/
def cutBehind (separator : Char) (t : Text) : List Text :=
  let parts := Raw.fields separator t
  parts.dropLast.map (· ++ [separator]) ++ (match parts.getLast? with
    | some [] | none => []
    | some last => [last])

/-- Prints lines from the last one to the first one. -/
def tac : Tool := fun _ _ words => do
  let known : Known := ⟨"bs:", [("before", 'b'), ("separator", 's')]⟩
  let (given, names) ← options known 1 words
  let separator := ((argument? given 's').getD ['\n']).headD '\n'
  let tool := words.headD []
  let complaint (name : Text) : Trouble → Text
    | .opening cause => tool ++ ": failed to open " ++ inQuotes name ++ " for reading: " ++ cause.words
    | .reading cause => tool ++ ": " ++ name ++ ": read error: " ++ cause.words
  let (found, status) ← contents (orInput names) complaint
  write 1 (found.flatMap fun (_, t) => (cutBehind separator t).reverse.flatten)
  return status

/-- Prints lines backwards. -/
def rev : Tool := fun _ _ words => do
  let tool := words.headD []
  let (_, names) ← options ⟨"0", [("zero", '0')]⟩ 1 words
  let (found, status) ← contents (orInput names) fun name trouble =>
    tool ++ ": cannot open " ++ name ++ ": " ++ trouble.cause.words
  let backwards (line : Text) : Text :=
    let ended := line.getLast? = some '\n'
    (Raw.chars (if ended then line.dropLast else line)).reverse.flatten ++ (if ended then ['\n'] else [])
  write 1 (found.flatMap fun (_, t) => (cutBehind '\n' t).flatMap backwards)
  return status

/-- A number for an option; without one the tool is at its end. -/
def numberFor (tool what : Text) (t : Text) : Errand Nat :=
  match Raw.nat? t with
  | some n => pure n
  | none => do
    complain (tool ++ ": invalid " ++ what ++ ": " ++ quoted t)
    finish 1

/-- Numbers lines. -/
def nl : Tool := fun _ _ words => do
  let known : Known := ⟨"b:w:s:v:i:n:h:f:d:l:p", [("body-numbering", 'b'), ("number-width", 'w'),
    ("number-separator", 's'), ("starting-line-number", 'v'), ("line-increment", 'i'), ("number-format", 'n')]⟩
  let (given, names) ← options known 1 words
  let tool := words.headD []
  let style := (argument? given 'b').getD ['t']
  let width ← numberFor tool "line number field width" ((argument? given 'w').getD ['6'])
  let first ← numberFor tool "starting line number" ((argument? given 'v').getD ['1'])
  let increment ← numberFor tool "line number increment" ((argument? given 'i').getD ['1'])
  let separator := (argument? given 's').getD ['\t']
  let format := (argument? given 'n').getD "rn"
  let shown (n : Nat) : Text :=
    let digits := Text.ofNat n
    if format = ("ln" : Text) then Text.padRight width digits
    else if format = ("rz" : Text) then List.replicate (width - digits.length) '0' ++ digits
    else Text.padLeft width digits
  let rec number (n : Nat) : List Text → Text
    | [] => []
    | line :: rest =>
      let counts := style = (['a'] : Text) || (style = (['t'] : Text) && !line.isEmpty)
      if counts then shown n ++ separator ++ line ++ '\n' :: number (n + increment) rest
      else List.replicate (width + separator.length) ' ' ++ line ++ '\n' :: number n rest
  onAll tool names fun t => number first (Raw.lines t)

/-- The column behind a character. -/
def columnBehind (column : Nat) (c : Char) : Nat :=
  if c == '\t' then column + 8 - column % 8
  else if c == '\x08' then column - 1
  else if c == '\r' then 0
  else column + 1

/-- A line folded to a width; `blanks` asks for breaks behind blanks. -/
def foldLine (width : Nat) (bytes blanks : Bool) : (fuel : Nat) → Text → Text
  | 0, t => t
  | fuel + 1, t =>
    let rec fitting (column : Nat) : Text → Nat
      | [] => 0
      | c :: rest =>
        let next := if bytes then column + 1 else columnBehind column c
        if width < next then 0 else 1 + fitting next rest
    let n := max 1 (fitting 0 t)
    if t.length ≤ n then t
    else
      let part := t.take n
      let kept := (part.reverse.dropWhile fun c => !(c == ' ' || c == '\t')).length
      let n := if blanks && 0 < kept then kept else n
      t.take n ++ '\n' :: foldLine width bytes blanks fuel (t.drop n)

/-- Folds lines to a width. -/
def fold : Tool := fun _ _ words => do
  let words := words.map fun t => match t with
    | '-' :: c :: rest => if c.isDigit then '-' :: 'w' :: c :: rest else t
    | _ => t
  let (given, names) ← options ⟨"bsw:", [("bytes", 'b'), ("spaces", 's'), ("width", 'w')]⟩ 1 words
  let tool := words.headD []
  let width ← numberFor tool "number of columns" ((argument? given 'w').getD "80")
  onAll tool names fun t =>
    (cutBehind '\n' t).flatMap fun line =>
      let ended := line.getLast? = some '\n'
      foldLine width (has given 'b') (has given 's') (line.length + 1) (if ended then line.dropLast else line)
        ++ (if ended then ['\n'] else [])

/-- Puts blanks in place of tabs. -/
def expand : Tool := fun _ _ words => do
  let (given, names) ← options ⟨"it:", [("initial", 'i'), ("tabs", 't')]⟩ 1 words
  let size := max 1 (((argument? given 't').bind Raw.nat?).getD 8)
  let initial := has given 'i'
  let rec spread (column : Nat) (start : Bool) : Text → Text
    | [] => []
    | c :: rest =>
      if c == '\n' then c :: spread 0 true rest
      else if c == '\t' && (start || !initial) then
        let n := size - column % size
        List.replicate n ' ' ++ spread (column + n) start rest
      else c :: spread (column + 1) (start && (c == ' ' || c == '\t')) rest
  onAll (words.headD []) names (spread 0 true)

/-- Puts tabs in place of blanks at the start of lines, or everywhere. -/
def unexpand : Tool := fun _ _ words => do
  let (given, names) ← options ⟨"at:", [("all", 'a'), ("first-only", 'f'), ("tabs", 't')]⟩ 1 words
  let size := max 1 (((argument? given 't').bind Raw.nat?).getD 8)
  let everywhere := has given 'a' || has given 't'
  onAll (words.headD []) names fun t =>
    (cutBehind '\n' t).flatMap fun line => Blanks.intoTabs size everywhere line

/-- The separators that a list of them stands for. -/
def pasteSeparators : Text → List Text
  | [] => []
  | '\\' :: 'n' :: rest => ['\n'] :: pasteSeparators rest
  | '\\' :: 't' :: rest => ['\t'] :: pasteSeparators rest
  | '\\' :: '0' :: rest => [] :: pasteSeparators rest
  | '\\' :: c :: rest => [c] :: pasteSeparators rest
  | c :: rest => [c] :: pasteSeparators rest

/-- Rows of lines side by side; a list that is at its end gives empty lines. -/
def sideBySide (separators : List Text) : (fuel : Nat) → List (List Text) → Text
  | 0, _ => []
  | fuel + 1, columns =>
    if columns.all List.isEmpty then []
    else
      let row := columns.map (·.headD [])
      joined 0 row ++ '\n' :: sideBySide separators fuel (columns.map (·.drop 1))
where
  /-- Texts with the separators in turn between them. -/
  joined (n : Nat) : List Text → Text
    | [] => []
    | [t] => t
    | t :: rest => t ++ (separators.getD (n % max 1 separators.length) []) ++ joined (n + 1) rest

/-- The lines of the input shared among so many names that are hyphens. -/
def dealt (count : Nat) (lines : List Text) (n : Nat) : List Text :=
  (lines.mapIdx fun i line => (i, line)).filterMap fun (i, line) => if i % count = n then some line else none

/-- Prints lines of files side by side, or the lines of each file in a row. -/
def paste : Tool := fun _ _ words => do
  let (given, names) ← options ⟨"d:sz", [("delimiters", 'd'), ("serial", 's'), ("zero-terminated", 'z')]⟩ 1 words
  let separators := pasteSeparators ((argument? given 'd').getD ['\t'])
  let tool := words.headD []
  let names := orInput names
  let input ← if names.contains ['-'] then contentOf ['-'] else pure (.ok [])
  let input := match input with
    | .ok t => Raw.lines t
    | .error _ => []
  let others := names.filter (· != ['-'])
  let (found, status) ← contents others (plainly tool)
  if has given 's' then
    let linesOf (n : Nat) (name : Text) : Option (List Text) :=
      if name = (['-'] : Text) then some (if n = 0 then input else [])
      else (found.lookup name).map Raw.lines
    let row (lines : List Text) : Text := sideBySide.joined separators 0 lines ++ ['\n']
    let hyphens := names.mapIdx fun n name => ((names.take n).count ['-'], name)
    write 1 ((hyphens.filterMap fun (n, name) => linesOf n name).flatMap row)
    return status
  else if status != 0 then return status
  else
    let count := names.count ['-']
    let columns := (names.mapIdx fun n name => (n, name)).map fun (n, name) =>
      if name = (['-'] : Text) then dealt count input ((names.take n).count ['-'])
      else Raw.lines ((found.lookup name).getD [])
    write 1 (sideBySide separators ((columns.map List.length).foldl max 0 + 1) columns)
    return 0

end FlowTypes.Script.Tool
