import FlowTypes.Script.Printing.Gap
import FlowTypes.Script.System

/-!
# Conditions in scripts

What `test` asks: about files, about texts, and about numbers, with "not", "and" and "or" and with
brackets. Words that make no condition give a complaint.

## Termination

Every reader takes words from the list it is given; the fuel is the number of words.
-/

namespace FlowTypes.Script.Condition

/-- The files that a condition asks about, and which of them may be run. -/
structure Ground where
  tree : FileTree
  permitted : List Location

/-- What a path leads to, if something is there. -/
def Ground.entry? (g : Ground) (path : Text) : Option (Location × Entry) :=
  match System.locate g.tree path with
  | .ok (loc, some entry) => some (loc, entry)
  | _ => none

/-- Paths that the system knows and that are no files of the tree. -/
def isDevice (path : Text) : Bool :=
  ([("/dev/null" : Text), "/dev/zero", "/dev/stdin", "/dev/stdout", "/dev/stderr"]).contains path

/-- The questions about one word. -/
def questions : List (Text × (Ground → Text → Bool)) := [
  ("-n", fun _ t => !t.isEmpty),
  ("-z", fun _ t => t.isEmpty),
  ("-e", fun g t => isDevice t || (g.entry? t).isSome),
  ("-r", fun g t => isDevice t || (g.entry? t).isSome),
  ("-w", fun g t => isDevice t || (g.entry? t).isSome),
  ("-O", fun g t => (g.entry? t).isSome),
  ("-G", fun g t => (g.entry? t).isSome),
  ("-f", fun g t => (g.entry? t).any fun e => e.2 != .directory),
  ("-d", fun g t => (g.entry? t).any fun e => e.2 = .directory),
  ("-x", fun g t => (g.entry? t).any fun e => e.2 = .directory || g.permitted.contains e.1),
  ("-s", fun g t => (g.entry? t).any fun e => e.2 != .file []),
  ("-c", fun _ t => isDevice t),
  ("-L", fun _ _ => false), ("-h", fun _ _ => false), ("-p", fun _ _ => false), ("-b", fun _ _ => false),
  ("-S", fun _ _ => false), ("-t", fun _ _ => false), ("-u", fun _ _ => false), ("-g", fun _ _ => false),
  ("-k", fun _ _ => false)]

/-- The questions between two numbers. -/
def comparisons : List (Text × (Int → Int → Bool)) := [
  ("-eq", (· == ·)), ("-ne", (· != ·)), ("-lt", fun m n => decide (m < n)),
  ("-le", fun m n => decide (m ≤ n)), ("-gt", fun m n => decide (n < m)),
  ("-ge", fun m n => decide (n ≤ m))]

/-- The questions between two texts or two files. -/
def relations : List (Text × (Ground → Text → Text → Bool)) := [
  ("=", fun _ a b => a = b),
  ("!=", fun _ a b => a ≠ b),
  ("<", fun _ a b => !Text.le b a),
  (">", fun _ a b => !Text.le a b),
  ("-ef", fun g a b => (g.entry? a).isSome && (g.entry? a).map (·.1) = (g.entry? b).map (·.1)),
  ("-nt", fun _ _ _ => false),
  ("-ot", fun _ _ _ => false)]

/-- The question between two words is one. -/
def isDouble (question : Text) : Bool :=
  (comparisons.lookup question).isSome || (relations.lookup question).isSome

/-- The number that a word stands for. -/
def numberOf (word : Text) : Except Text Int :=
  match Printing.readWhole false word with
  | some (n, rest) =>
    if rest.all Printing.isSpace && -Int.pow 2 63 ≤ n && n < Int.pow 2 63 then .ok n
    else .error ("Illegal number: " ++ word)
  | none => .error ("Illegal number: " ++ word)

/-- What a question between two words asks. -/
def double (g : Ground) (question a b : Text) : Except Text Bool :=
  match comparisons.lookup question with
  | some compare => do
    let m ← numberOf a
    let n ← numberOf b
    pure (compare m n)
  | none => pure ((relations.lookup question).any fun relates => relates g a b)

/-- What a word is among the others: a question about the next one, a sign, or just a word. A question is
just a word if a question between two words follows it. -/
inductive Role where
  | question
  | double
  | sign
  | operand
  deriving DecidableEq

/-- The role of the first of some words. -/
def roleOf : List Text → Role
  | [] => .operand
  | t :: rest =>
    if (questions.lookup t).isSome then
      match rest with
      | [] => .operand
      | [_] => .question
      | u :: v :: _ => if isDouble u && v ≠ ([')'] : Text) then .operand else .question
    else if isDouble t || t = ("-a" : Text) || t = ("-o" : Text) then .double
    else if t = (['('] : Text) then if rest.isEmpty then .operand else .sign
    else if t = ([')'] : Text) || t = (['!'] : Text) then .sign
    else .operand

/-- A reader gives a truth and the words from the last one it took on, or what is wrong. -/
abbrev Reading := Except Text (Bool × List Text)

mutual

/-- Conditions of which one has to hold. -/
def anyOf (g : Ground) : (fuel : Nat) → List Text → Reading
  | 0, words => .ok (false, words)
  | fuel + 1, words => do
    let (first, left) ← allOf g fuel words
    match left with
    | last :: ['-', 'o'] :: rest =>
      let (second, left) ← anyOf g fuel rest
      -- nothing behind the sign leaves the sign as the last word
      pure (first || second, if rest.isEmpty then [last] else left)
    | _ => pure (first, left)

/-- Conditions all of which have to hold. -/
def allOf (g : Ground) : (fuel : Nat) → List Text → Reading
  | 0, words => .ok (false, words)
  | fuel + 1, words => do
    let (first, left) ← one g fuel words
    match left with
    | last :: ['-', 'a'] :: rest =>
      let (second, left) ← allOf g fuel rest
      pure (first && second, if rest.isEmpty then [last] else left)
    | _ => pure (first, left)

/-- One condition. -/
def one (g : Ground) : (fuel : Nat) → List Text → Reading
  | 0, words => .ok (false, words)
  | fuel + 1, words =>
    match words with
    | [] => .ok (false, [])
    | ['!'] :: rest =>
      if rest.isEmpty then .ok (true, words)
      else (one g fuel rest).map fun (h, left) => (!h, left)
    | t :: rest =>
      if t = (['('] : Text) && roleOf words = .sign then
        if rest.head? = some ([')'] : Text) then .ok (false, rest)
        else do
          let (h, left) ← anyOf g fuel rest
          match left with
          | _ :: [')'] :: after => pure (h, [')'] :: after)
          | _ => .error "closing paren expected"
      else
        match rest with
        | question :: b :: _ =>
          if roleOf words = .question then .ok ((questions.lookup t).any (fun ask => ask g question), rest)
          else if isDouble question then (double g question t b).map (·, rest.drop 1)
          else .ok (!t.isEmpty, words)
        | [word] =>
          if roleOf words = .question then .ok ((questions.lookup t).any (fun ask => ask g word), rest)
          else if isDouble word then .error (word ++ ": argument expected")
          else .ok (!t.isEmpty, words)
        | [] => .ok (!t.isEmpty, words)

end

/-- Whether the condition of some words holds, or what is wrong with it. Few words are taken as they come. -/
def holds (g : Ground) : (fuel : Nat) → List Text → Except Text Bool
  | 0, _ => .ok false
  | _ + 1, [] => .ok false
  | fuel + 1, words =>
    match words with
    | [a, question, b] =>
      if isDouble question then double g question a b else few fuel words
    | _ => few fuel words
where
  /-- Three or four words may stand in brackets or behind a "not". -/
  few (fuel : Nat) (words : List Text) : Except Text Bool :=
    let short := words.length = 3 || words.length = 4
    if short && words.head? = some (['('] : Text) && words.getLast? = some ([')'] : Text) then
      whole (words.drop 1).dropLast
    else if short && words.head? = some (['!'] : Text) then (holds g fuel (words.drop 1)).map (!·)
    else whole words
  /-- All words as one condition. -/
  whole (words : List Text) : Except Text Bool :=
    match anyOf g (4 * words.length + 4) words with
    | .ok (h, left) =>
      match left with
      | _ :: _ :: _ => .error ((left.headD []) ++ ": unexpected operator")
      | _ => .ok h
    | .error complaint => .error complaint

end FlowTypes.Script.Condition
