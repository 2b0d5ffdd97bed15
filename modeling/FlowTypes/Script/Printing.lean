import FlowTypes.Script.Printing.Gap

/-!
# What scripts print

Two commands print their words: `echo`, which understands escapes, and `printf`, which fills a template
with its words and starts over while words are left.

## Termination

A template is read with as much fuel as it has characters, and a round without a gap for a word is the
last one.
-/

namespace FlowTypes.Script.Printing

/-! ## Escapes -/

/-- The character of an escape with one letter. -/
def letterEscape? (c : Char) : Option Char :=
  [('a', '\x07'), ('b', '\x08'), ('e', '\x1b'), ('f', '\x0c'), ('n', '\n'), ('r', '\x0d'), ('t', '\t'),
    ('v', '\x0b'), ('\\', '\\')].lookup c

/-- An octal digit. -/
def isOctal (c : Char) : Bool := '0' ≤ c && c ≤ '7'

/-- The byte that octal digits stand for. -/
def octalByte (digits : Text) : Char := Char.ofNat (Raw.octalOf digits % 256)

/-- A character and what follows it, for the text behind a backslash; none if there is no escape. With
`zero`, octal digits may stand behind a zero that does not count. -/
def escape? (zero : Bool) (t : Text) : Option (Char × Text) :=
  match t with
  | [] => none
  | c :: rest =>
    match letterEscape? c with
    | some b => some (b, rest)
    | none =>
      if isOctal c then
        let start := if zero && c == '0' then rest else c :: rest
        let digits := (start.take 3).takeWhile isOctal
        some (octalByte digits, start.drop digits.length)
      else none

/-- A text with its escapes, and whether an escape `\c` stopped it. -/
def withEscapes : (fuel : Nat) → Text → Text × Bool
  | 0, _ => ([], false)
  | _ + 1, [] => ([], false)
  | _ + 1, '\\' :: 'c' :: _ => ([], true)
  | fuel + 1, '\\' :: rest =>
    match escape? true rest with
    | some (b, after) =>
      let (t, stopped) := withEscapes fuel after
      (b :: t, stopped)
    | none =>
      let (t, stopped) := withEscapes fuel rest
      ('\\' :: t, stopped)
  | fuel + 1, c :: rest =>
    let (t, stopped) := withEscapes fuel rest
    (c :: t, stopped)

/-- What `echo` prints. -/
def echo (words : List Text) : Text :=
  let (ends, words) := match words with
    | ['-', 'n'] :: rest => (false, rest)
    | _ => (true, words)
  let t := Text.join [' '] words
  let (t, stopped) := withEscapes (t.length + 1) t
  if ends && !stopped then t ++ ['\n'] else t

/-! ## Templates -/

/-- What a template is made of: text, gaps whose width or precision may be words, and a gap with a letter
that means nothing or without a letter. -/
inductive Part where
  | text (t : Text)
  | gap (g : Gap) (widthGiven precisionGiven : Bool)
  | misfit (t : Text)
  | unfinished
  deriving Inhabited

/-- The letters that say what fills a gap. -/
def letters : Text := "bcsdiouxXaAeEfFgG"

/-- The gap behind a percent sign, and what follows it. -/
def readGap (t : Text) : Part × Text :=
  let flags := t.takeWhile (("-0+ #".toList).contains ·)
  let u := t.drop flags.length
  let (widthGiven, width, u) : Bool × Nat × Text := match u with
    | '*' :: rest => (true, 0, rest)
    | _ => (false, Raw.natOf (u.takeWhile Char.isDigit), u.dropWhile Char.isDigit)
  let (precisionGiven, precision, u) : Bool × Option Nat × Text := match u with
    | '.' :: '*' :: rest => (true, none, rest)
    | '.' :: rest => (false, some (Raw.natOf (rest.takeWhile Char.isDigit)), rest.dropWhile Char.isDigit)
    | _ => (false, none, u)
  match u with
  | [] => (.unfinished, [])
  | c :: rest =>
    if letters.contains c then
      let g : Gap :=
        { left := flags.contains '-'
          zeros := flags.contains '0'
          plus := flags.contains '+'
          blank := flags.contains ' '
          marked := flags.contains '#'
          width := width
          precision := precision
          letter := c }
      (.gap g widthGiven precisionGiven, rest)
    else (.misfit ('%' :: t.take (t.length - rest.length)), rest)

/-- The parts of a template. -/
def parts : (fuel : Nat) → Text → List Part
  | 0, _ => []
  | _ + 1, [] => []
  | fuel + 1, '%' :: '%' :: rest => .text ['%'] :: parts fuel rest
  | fuel + 1, '%' :: rest =>
    let (part, after) := readGap rest
    part :: parts fuel after
  | fuel + 1, '\\' :: rest =>
    match escape? false rest with
    | some (b, after) => .text [b] :: parts fuel after
    | none => .text ['\\'] :: parts fuel rest
  | fuel + 1, c :: rest =>
    let run := rest.takeWhile fun d => d != '%' && d != '\\'
    .text (c :: run) :: parts fuel (rest.drop run.length)

/-- What comes of filling gaps with words. -/
structure Filling where
  printed : Text
  /-- Complaints about words that do not fit their gaps. -/
  complaints : List Text
  /-- Printing stops here, with this status if it is a failure. -/
  stopped : Option Nat

/-- One filling after another, where the first one did not stop. -/
def Filling.append (f g : Filling) : Filling :=
  ⟨f.printed ++ g.printed, f.complaints ++ g.complaints, g.stopped⟩

/-- What is wrong with a number that goes on with this rest, if something is. -/
def leftover (word rest : Text) : List Text :=
  if rest.isEmpty then [] else [word ++ ": not completely converted"]

/-- The whole number that a word stands for, and complaints about it. -/
def wholeOf (word : Text) (low high : Int) : Int × List Text :=
  match word with
  | [] => (0, [])
  | '\'' :: rest | '"' :: rest => ((rest.headD '\x00').toNat, [])
  | _ =>
    match readWhole true word with
    | none => (0, [word ++ ": expected numeric value"])
    | some (n, rest) =>
      if n < low || high < n then
        (max low (min high n), [word ++ ": Numerical result out of range"])
      else (n, leftover word rest)

/-- The fraction that a word stands for, and complaints about it. -/
def fractionOf (word : Text) : Binary64 × List Text :=
  match word with
  | [] => (.finite false 0 (-1074), [])
  | '\'' :: rest | '"' :: rest => (.nearest false (rest.headD '\x00').toNat 1, [])
  | _ =>
    match readFraction true word with
    | none => (.finite false 0 (-1074), [word ++ ": expected numeric value"])
    | some (x, rest) => (x, leftover word rest)

/-- A gap filled with a word. -/
def fill (g : Gap) (word : Text) : Filling :=
  match g.letter with
  | 's' => ⟨g.text word, [], none⟩
  | 'b' =>
    let (t, stopped) := withEscapes (word.length + 1) word
    ⟨g.text t, [], if stopped then some 0 else none⟩
  | 'c' => ⟨g.pad [word.headD '\x00'], [], none⟩
  | 'd' | 'i' =>
    let (n, complaints) := wholeOf word (-Int.pow 2 63) (Int.pow 2 63 - 1)
    ⟨g.integer n, complaints, none⟩
  | 'o' | 'u' | 'x' | 'X' =>
    let (n, complaints) := wholeOf word (-Int.pow 2 64 + 1) (Int.pow 2 64 - 1)
    ⟨g.natural (n % Int.pow 2 64).toNat, complaints, none⟩
  | _ =>
    let (x, complaints) := fractionOf word
    ⟨g.fraction x, complaints, none⟩

/-- A number that is given as a word, for a width or a precision. -/
def givenNumber (given : Bool) (words : List Text) : Int × List Text × List Text :=
  if given then
    let (n, complaints) := wholeOf (words.headD []) (-Int.pow 2 31) (Int.pow 2 31 - 1)
    (n, complaints, words.drop 1)
  else (0, [], words)

/-- One round over the parts, and the words that are left. -/
def oneRound : List Part → List Text → Filling × List Text
  | [], words => (⟨[], [], none⟩, words)
  | .text t :: rest, words =>
    let (filling, left) := oneRound rest words
    (⟨t ++ filling.printed, filling.complaints, filling.stopped⟩, left)
  | .misfit t :: _, _ => (⟨[], [t ++ ": invalid directive"], some 2⟩, [])
  | .unfinished :: _, _ => (⟨[], ["missing format character"], some 2⟩, [])
  | .gap g widthGiven precisionGiven :: rest, words =>
    let (width, faults, words) := givenNumber widthGiven words
    let (precision, others, words) := givenNumber precisionGiven words
    let g := if widthGiven then { g with width := width.natAbs, left := g.left || width < 0 } else g
    let g := if precisionGiven && 0 ≤ precision then { g with precision := some precision.toNat } else g
    let first := fill g (words.headD [])
    let first := { first with complaints := faults ++ others ++ first.complaints }
    if first.stopped.isSome then (first, [])
    else
      let (filling, left) := oneRound rest (words.drop 1)
      (first.append filling, left)

/-- Rounds until no words are left. -/
def rounds (template : List Part) : (fuel : Nat) → List Text → Filling
  | 0, _ => ⟨[], [], none⟩
  | fuel + 1, words =>
    let (filling, left) := oneRound template words
    if filling.stopped.isSome || left.isEmpty || left.length = words.length then filling
    else filling.append (rounds template fuel left)

/-- What `printf` prints. -/
def printf (template : Text) (words : List Text) : Filling :=
  rounds (parts (template.length + 1) template) (words.length + 1) words

end FlowTypes.Script.Printing
