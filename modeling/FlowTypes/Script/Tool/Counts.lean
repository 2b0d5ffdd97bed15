import FlowTypes.Script.Tool

/-!
# Counting

`wc` counts lines, words, characters and bytes. Its columns are as wide as the number of bytes in all files,
or seven characters wide if something is read that is no file.
-/

namespace FlowTypes.Script.Tool

open Errand

/-- A blank between words. -/
def endsCount (c : Char) : Bool := c == ' ' || (9 ≤ c.toNat && c.toNat ≤ 13)

/-- The number of words in a text. -/
def wordCount (t : Text) : Nat :=
  (t.foldl (fun (n, inside) c =>
    (if !endsCount c && !inside then n + 1 else n, !endsCount c)) (0, false)).1

/-- The width of the widest line. -/
def widest (t : Text) : Nat :=
  (t.foldl (fun (best, column) c =>
    let n := c.toNat
    let next :=
      if c == '\n' || c == '\x0c' || c == '\r' then 0
      else if c == '\t' then column + 8 - column % 8
      -- bytes that go on with a character have no width
      else if n < 32 || n = 127 || (128 ≤ n && n < 192) then column
      else column + 1
    (max best next, next)) (0, 0)).1

/-- The counts of a text: lines, words, characters, bytes, and the width of the widest line. -/
def countsOf (t : Text) : List Nat :=
  let characters := (Utf8.pieces (Raw.toBytes t)).countP fun p => match p with
    | .char _ => true
    | .broken _ _ => false
  [t.count '\n', wordCount t, characters, t.length, widest t]

/-- Counts lines, words and bytes. -/
def wc : Tool := fun _ _ words => do
  let tool := words.headD []
  let known : Known := ⟨"clwmL", [("bytes", 'c'), ("chars", 'm'), ("lines", 'l'), ("words", 'w'),
    ("max-line-length", 'L')]⟩
  let (given, names) ← options known 1 words
  let wanted := (['l', 'w', 'm', 'c', 'L']).map fun c =>
    if given.isEmpty then c == 'l' || c == 'w' || c == 'c' else has given c
  let single := names.length ≤ 1 && wanted.count true = 1
  let width ← if single then pure 1 else widthOf 0 1 (orInput names)
  let row (counts : List Nat) : Text :=
    Text.join [' '] ((counts.zip wanted).filterMap fun (n, w) =>
      if w then some (Text.padLeft width (Text.ofNat n)) else none)
  let (printed, total, status) ← each tool row [] [0, 0, 0, 0, 0] 0 (orInput names) (!names.isEmpty)
  write 1 (printed ++ (if 1 < names.length then row total ++ " total\n" else []))
  return status
where
  /-- The width of the columns for some files. -/
  widthOf (total least : Nat) : List Text → Errand Nat
    | [] => return max least (Text.ofNat total).length
    | name :: rest => do
      let channel := if name = (['-'] : Text) then 0 else fileChannel
      let opened ← if channel = 0 then pure true else
        match ← ask (.openFile channel name .reading) with
        | .refused _ => pure false
        | _ => pure true
      if !opened then widthOf total least rest
      else
        match ← ask (.size channel) with
        | .number n =>
          if channel != 0 then tell (.close channel)
          widthOf (total + n) least rest
        | _ => widthOf total 7 rest
  /-- The rows of the files, and the counts of all together. -/
  each (tool : Text) (row : List Nat → Text) (printed : Text) (total : List Nat) (status : Nat) :
      List Text → Bool → Errand (Text × List Nat × Nat)
    | [], _ => return (printed, total, status)
    | name :: rest, named => do
      let line (counts : List Nat) : Text := row counts ++ (if named then ' ' :: name else []) ++ ['\n']
      match ← contentOf name with
      | .ok t =>
        let counts := countsOf t
        let sum := (total.zip counts).mapIdx fun n (a, b) => if n = 4 then max a b else a + b
        each tool row (printed ++ line counts) sum status rest named
      | .error trouble =>
        complain (tool ++ ": " ++ name ++ ": " ++ trouble.cause.words)
        let counted := match trouble with
          | .opening _ => []
          | .reading _ => line [0, 0, 0, 0, 0]
        each tool row (printed ++ counted) total 1 rest named

end FlowTypes.Script.Tool
