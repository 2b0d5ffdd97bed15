import FlowTypes.Script.Editing
import FlowTypes.Script.Matching.Reader

/-!
# Written editing commands

Commands are written one after the other, with semicolons or line ends between them. A command has up to two
addresses, a letter, and what the letter asks for. What is wrong is told with the number of characters that were
read up to there (`Trouble`).

Texts between slashes end at the first slash that is not in brackets and not behind a backslash.

## Termination

Readers take a piece off the text; the fuel of the loops is its length.
-/

namespace FlowTypes.Script.Editing

/-- What is wrong with written commands, and how many characters are left behind it; none if that does not
matter. -/
structure Trouble where
  left : Option Nat
  message : Text

/-- Something is wrong in front of a text. -/
def wrong {α : Type} (rest : Text) (message : Text) : Except Trouble α := .error ⟨some rest.length, message⟩

/-- A blank or a line end. -/
def isSpace (c : Char) : Bool := c == ' ' || (9 ≤ c.toNat && c.toNat ≤ 13)

/-- A text without the blanks at its start. -/
def skipBlanks (t : Text) : Text := t.dropWhile fun c => isSpace c && c != '\n'

/-! ## Escapes -/

/-- A number in some base, written with so many digits at most behind a letter. -/
def coded? (t : Text) : Option (Char × Text) :=
  let digits (base most : Nat) (rest : Text) : Option (Char × Text) :=
    let value (c : Char) : Option Nat :=
      let n := if c.isDigit then c.toNat - 48 else if c.isAlpha then c.toLower.toNat - 87 else 99
      if n < base then some n else none
    let found := (rest.take most).takeWhile fun c => (value c).isSome
    if found.isEmpty then none
    else some (Char.ofNat ((found.foldl (fun n c => n * base + (value c).getD 0) 0) % 256), rest.drop found.length)
  match t with
  | 'd' :: rest => digits 10 3 rest
  | 'o' :: rest => digits 8 3 rest
  | 'x' :: rest => digits 16 2 rest
  | 'c' :: c :: rest =>
    let n := c.toUpper.toNat
    some (Char.ofNat (if n < 64 then n + 64 else n - 64), rest)
  | _ => none

/-- The control character of a letter. -/
def controlLetter? (c : Char) : Option Char :=
  [('a', '\x07'), ('f', '\x0c'), ('n', '\n'), ('r', '\r'), ('t', '\t'), ('v', '\x0b')].lookup c

/-- A written pattern with characters for the numbers in it. -/
def withCodes : (fuel : Nat) → Text → Text
  | 0, t => t
  | _, [] => []
  | fuel + 1, '\\' :: rest =>
    match coded? rest, rest with
    | some (c, after), _ => c :: withCodes fuel after
    | none, c :: after => '\\' :: c :: withCodes fuel after
    | none, [] => ['\\']
  | fuel + 1, c :: rest => c :: withCodes fuel rest

/-! ## Between slashes -/

/-- Where a reader is in brackets: outside, right behind their opening, or inside. -/
inductive Bracket where
  | outside
  | opened
  | negated
  | inside
  | inClass (mark : Char)
  deriving DecidableEq, Repr

/-- Where a reader is after one more character of a pattern. -/
def Bracket.after (b : Bracket) (c : Char) (next : Option Char) : Bracket :=
  match b with
  | outside => if c == '[' then opened else outside
  | opened => if c == '^' then negated else if c == ']' then inside else within
  | negated => if c == ']' then inside else within
  | inside => if c == ']' then outside else within
  | inClass mark => if c == mark && next == some ']' then inside else inClass mark
where
  within : Bracket :=
    match next with
    | some n => if c == '[' && (n == ':' || n == '.' || n == '=') then inClass n else inside
    | none => inside

/-- The text up to a slash, without the backslashes that only keep slashes from ending it, and what is left behind
the slash. None if there is no slash on the line. -/
def upTo (slash : Char) (pattern : Bool) (bracket : Bracket) : Text → Option (Text × Text)
  | [] => none
  | '\\' :: c :: rest =>
    let next := if bracket = .outside then bracket else bracket.after '\\' (some c)
    let next := if bracket != .outside && next != .outside && c == ']' then .outside else next
    let kept : Text :=
      if c == '\n' then (if pattern then ['\n'] else ['\\', '\n'])
      else if c == slash && (pattern || c != '&') then (if c == 'n' && pattern then ['n'] else [c])
      else if c == 'n' && pattern then ['\n']
      else ['\\', c]
    (upTo slash pattern next rest).map fun (t, after) => (kept ++ t, after)
  | c :: rest =>
    if c == slash && bracket = .outside then some ([], rest)
    else if c == '\n' then none
    else
      let next := if pattern then bracket.after c rest.head? else .outside
      (upTo slash pattern next rest).map fun (t, after) => (c :: t, after)

/-- The text from the next line end on, or the end; where a reader stops that has found no slash. -/
def unclosed (t : Text) : Text := t.dropWhile (· != '\n')

/-- The way in which patterns are written. -/
def dialect (extended : Bool) : Matching.Dialect := { extended := extended, lenient := false, controls := true }

/-- A pattern as it is written, with the letters that stand behind it. -/
def compile (extended folded byLines : Bool) (rest : Text) (t : Text) : Except Trouble Sought :=
  if t.isEmpty then .ok .last
  else
    match Matching.read (dialect extended) (Matching.symbolsOf (withCodes (t.length + 1) t)) with
    | .ok (shape, groups, _) => .ok (.pattern (.ofShape shape groups folded byLines))
    | .error fault => wrong rest fault.message

/-! ## Addresses -/

/-- A number, zero if there is none. -/
def takeNumber (t : Text) : Nat × Text :=
  let digits := t.takeWhile Char.isDigit
  (Raw.natOf digits, t.drop digits.length)

/-- The letters behind a pattern of an address: whether case counts, and whether lines do. -/
def addressLetters (folded byLines : Bool) : (fuel : Nat) → Text → Bool × Bool × Text
  | 0, t => (folded, byLines, t)
  | fuel + 1, t =>
    match skipBlanks t with
    | 'I' :: rest => addressLetters true byLines fuel rest
    | 'M' :: rest => addressLetters folded true fuel rest
    | rest => (folded, byLines, rest)

/-- What a text may begin with that tells lines. -/
inductive Written where
  | address (a : Address)
  | further (n : Nat)
  | multiple (n : Nat)

/-- The address at the start of a text, if there is one. -/
def readAddress (extended : Bool) (t : Text) : Except Trouble (Option Written × Text) := do
  let pattern (slash : Char) (rest : Text) : Except Trouble (Option Written × Text) :=
    match upTo slash true .outside rest with
    | none => wrong [] "unterminated address regex"
    | some (written, after) => do
      let (folded, byLines, after) := addressLetters false false (after.length + 1) after
      let sought ← compile extended folded byLines after written
      pure (some (.address (.sought sought)), after)
  match t with
  | '/' :: rest => pattern '/' rest
  | '\\' :: c :: rest => pattern c rest
  | '$' :: rest => pure (some (.address .lastLine), rest)
  | '+' :: rest =>
    let (n, after) := takeNumber (skipBlanks rest)
    pure (some (.further n), after)
  | '~' :: rest =>
    let (n, after) := takeNumber (skipBlanks rest)
    pure (some (.multiple n), after)
  | c :: _ =>
    if c.isDigit then
      let (n, after) := takeNumber t
      match skipBlanks after with
      | '~' :: rest =>
        let (step, after) := takeNumber (skipBlanks rest)
        pure (some (.address (.steps n step)), after)
      | rest => pure (some (.address (.line n)), rest)
    else pure (none, t)
  | [] => pure (none, t)

/-- The range in front of a command, and what is left from its letter on. -/
def readRange (extended : Bool) (t : Text) : Except Trouble (Range × Text) := do
  let (first, rest) ← readAddress extended t
  match first with
  | none => pure (⟨none, none, false⟩, t)
  | some (.further _) | some (.multiple _) => wrong rest "invalid usage of +N or ~N as first address"
  | some (.address a) =>
    let rest := skipBlanks rest
    let (second, rest) ← match rest with
      | ',' :: more => do
        let more := skipBlanks more
        let (goal, after) ← readAddress extended more
        match goal with
        | none => wrong (more.drop 1) "unexpected `,'"
        | some (.address a) => pure (some (Goal.address a), skipBlanks after)
        | some (.further n) => pure (some (Goal.further n), skipBlanks after)
        | some (.multiple n) => pure (some (Goal.multiple n), skipBlanks after)
      | _ => pure (none, rest)
    match a, second with
    | .line 0, some (.address (.sought _)) => pure ()
    | .line 0, _ => wrong (rest.drop 1) "invalid usage of line address 0"
    | _, _ => pure ()
    pure (⟨some a, second, false⟩, rest)

/-! ## Parts of commands -/

/-- The end of a command: a line end, a semicolon, a closing brace or a remark. -/
def endOfCommand (t : Text) : Except Trouble Text :=
  match skipBlanks t with
  | [] => .ok []
  | c :: rest =>
    if c == '\n' || c == ';' then .ok rest
    else if c == '\x7d' || c == '#' then .ok (c :: rest)
    else wrong rest "extra characters after command"

/-- A label or another word. -/
def readLabel (t : Text) : Text × Text :=
  let t := skipBlanks t
  let label := t.takeWhile fun c => !(isSpace c || c == ';' || c == '\x7d')
  (label, t.drop label.length)

/-- The name of a file, up to the line end. -/
def readName (t : Text) : Except Trouble (Text × Text) :=
  let t := skipBlanks t
  let name := t.takeWhile (· != '\n')
  if name.isEmpty then wrong t "missing filename in r/R/w/W commands" else .ok (name, t.drop (name.length + 1))

/-- A text up to a line end that is not behind a backslash. Other backslashes go away, with control characters for
some letters. -/
def readLines : (fuel : Nat) → Text → Text × Text
  | 0, t => ([], t)
  | _, [] => ([], [])
  | _, ['\\'] => ([], [])
  | _ + 1, '\n' :: rest => ([], rest)
  | fuel + 1, '\\' :: c :: rest =>
    match controlLetter? c, coded? (c :: rest) with
    | some control, _ =>
      let (t, after) := readLines fuel rest
      (control :: t, after)
    | none, some (b, more) =>
      let (t, after) := readLines fuel more
      (b :: t, after)
    | none, none =>
      let (t, after) := readLines fuel rest
      (c :: t, after)
  | fuel + 1, c :: rest =>
    let (t, after) := readLines fuel rest
    (c :: t, after)

/-- The text of a command that adds lines. It stands behind a backslash and a line end, or on the line itself. -/
def readText (t : Text) : Except Trouble (Text × Text) :=
  let full (t : Text) : Text × Text :=
    let (lines, rest) := readLines (t.length + 1) t
    (lines ++ ['\n'], rest)
  match skipBlanks t with
  | [] => wrong [] "expected \\ after `a', `c' or `i'"
  | '\\' :: rest =>
    match skipBlanks rest with
    | [] => .ok ([], [])
    | '\n' :: after => .ok (full after)
    | _ =>
      -- the first character stands for itself
      match rest with
      | c :: after =>
        let (t, after) := full after
        .ok (c :: t, after)
      | [] => .ok ([], [])
  | line => .ok (full line)

/-- What replaces a match. -/
def readPieces : (fuel : Nat) → Text → List Piece
  | 0, _ => []
  | _, [] => []
  | fuel + 1, '&' :: rest => .group 0 :: readPieces fuel rest
  | _ + 1, ['\\'] => [.text ['\\']]
  | fuel + 1, '\\' :: c :: rest =>
    if c.isDigit then .group (c.toNat - 48) :: readPieces fuel rest
    else
      match [('U', Casing.upper), ('L', .lower), ('E', .plain), ('u', .nextUpper), ('l', .nextLower)].lookup c,
        controlLetter? c, coded? (c :: rest) with
      | some casing, _, _ => .casing casing :: readPieces fuel rest
      | none, some control, _ => .text [control] :: readPieces fuel rest
      | none, none, some (b, after) => .text [b] :: readPieces fuel after
      | none, none, none => .text [c] :: readPieces fuel rest
  | fuel + 1, c :: rest =>
    let run := rest.takeWhile fun d => d != '\\' && d != '&'
    .text (c :: run) :: readPieces fuel (rest.drop run.length)

/-- The letters behind a replacement. -/
structure Letters where
  folded : Bool
  byLines : Bool
  everywhere : Bool
  printed : Bool
  number : Option Nat
  file : Option Text

/-- The letters behind a replacement, and what is left behind the command. -/
def readLetters (letters : Letters) : (fuel : Nat) → Text → Except Trouble (Letters × Text)
  | 0, t => .ok (letters, t)
  | _, [] => .ok (letters, [])
  | fuel + 1, c :: rest =>
    if c == 'i' || c == 'I' then readLetters { letters with folded := true } fuel rest
    else if c == 'm' || c == 'M' then readLetters { letters with byLines := true } fuel rest
    else if c == 'p' then
      if letters.printed then wrong rest "multiple `p' options to `s' command"
      else readLetters { letters with printed := true } fuel rest
    else if c == 'g' then
      if letters.everywhere then wrong rest "multiple `g' options to `s' command"
      else readLetters { letters with everywhere := true } fuel rest
    else if c.isDigit then
      let (n, after) := takeNumber (c :: rest)
      if letters.number.isSome then wrong after "multiple number options to `s' command"
      else if n = 0 then wrong after "number option to `s' command may not be zero"
      else readLetters { letters with number := some n } fuel after
    else if c == 'w' then do
      let (name, after) ← readName rest
      pure ({ letters with file := some name }, after)
    else if c == '\n' || c == ';' then .ok (letters, rest)
    else if c == '\x7d' || c == '#' then .ok (letters, c :: rest)
    else if isSpace c then readLetters letters fuel rest
    else wrong rest "unknown option to `s'"

/-- A replacement, behind its letter. -/
def readSubstitution (extended : Bool) (t : Text) : Except Trouble (Substitution × Text) := do
  let unterminated (t : Text) : Trouble := ⟨some (unclosed t).length, "unterminated `s' command"⟩
  match t with
  | [] => throw (unterminated [])
  | slash :: rest =>
    match upTo slash true .outside rest with
    | none => throw (unterminated rest)
    | some (pattern, rest) =>
      match upTo slash false .outside rest with
      | none => throw (unterminated rest)
      | some (new, rest) =>
        let (letters, rest) ← readLetters ⟨false, false, false, false, none, none⟩ (rest.length + 1) rest
        let sought ← compile extended letters.folded letters.byLines rest pattern
        let pieces := readPieces (new.length + 1) new
        let highest := pieces.foldl (fun n piece => match piece with
          | .group m => max n m
          | _ => n) 0
        match sought with
        | .pattern p =>
          if p.groups < highest then
            wrong rest ("invalid reference \\" ++ Text.ofNat highest ++ " on `s' command's RHS")
        | .last => pure ()
        pure (⟨sought, pieces, letters.everywhere, letters.number.getD 1, letters.printed, letters.file⟩, rest)

/-- The letters of an exchange: a backslash stands before itself, a slash or a letter for a control character. -/
def exchangeLetters : Text → Text
  | '\\' :: '\\' :: rest => '\\' :: exchangeLetters rest
  | '\\' :: c :: rest => (controlLetter? c).getD c :: exchangeLetters rest
  | c :: rest => c :: exchangeLetters rest
  | [] => []

/-- An exchange of letters, behind its letter. -/
def readExchange (t : Text) : Except Trouble (List (Text × Text) × Text) := do
  let unterminated (t : Text) : Trouble := ⟨some (unclosed t).length, "unterminated `y' command"⟩
  match t with
  | [] => throw (unterminated [])
  | slash :: rest =>
    match upTo slash false .outside rest with
    | none => throw (unterminated rest)
    | some (old, rest) =>
      match upTo slash false .outside rest with
      | none => throw (unterminated rest)
      | some (new, rest) =>
        let (old, new) := (Raw.chars (exchangeLetters old), Raw.chars (exchangeLetters new))
        if old.length != new.length then wrong rest "strings for `y' command are different lengths"
        let rest ← endOfCommand rest
        pure (old.zip new, rest)

/-! ## Commands -/

/-- Commands under way: those that are read, the blocks that are open, and the labels. -/
structure Draft where
  commands : Array Command
  blocks : List Nat
  labels : List (Text × Nat)

/-- A draft with one more command. -/
def Draft.add (d : Draft) (range : Range) (deed : Deed) : Draft :=
  { d with commands := d.commands.push ⟨range, deed⟩ }

/-- Letters that stand for a deed by themselves. -/
def simpleDeed? (c : Char) : Option Deed :=
  match c with
  | '=' => some .number
  | 'd' => some .delete
  | 'D' => some .deleteLine
  | 'F' => some .fileName
  | 'g' => some .get
  | 'G' => some .getAdd
  | 'h' => some .hold
  | 'H' => some .holdAdd
  | 'n' => some .next
  | 'N' => some .nextAdd
  | 'p' => some .print
  | 'P' => some .printLine
  | 'x' => some .exchange
  | 'z' => some .clear
  | _ => none

/-- A command from its letter on. -/
def readCommand (extended : Bool) (d : Draft) (range : Range) (c : Char) (rest : Text) : Except Trouble (Draft × Text) := do
  let named (deed : Text → Deed) : Except Trouble (Draft × Text) := do
    let (name, after) ← readName rest
    pure (d.add range (deed name), after)
  let written (deed : Text → Deed) : Except Trouble (Draft × Text) := do
    let (t, after) ← readText rest
    pure (d.add range (deed t), after)
  let jump (when_ : Jump) : Except Trouble (Draft × Text) := do
    let (label, after) := readLabel rest
    pure (d.add range (.jump when_ label), ← endOfCommand after)
  let counted (deed : Option Nat → Deed) : Except Trouble (Draft × Text) := do
    let t := skipBlanks rest
    let (n, after) := takeNumber t
    pure (d.add range (deed (if after.length < t.length then some n else none)), ← endOfCommand after)
  match simpleDeed? c with
  | some deed => pure (d.add range deed, ← endOfCommand rest)
  | none =>
    match c with
    | '#' =>
      if range.first.isSome then wrong rest "comments don't accept any addresses"
      pure (d, (rest.dropWhile (· != '\n')).drop 1)
    | '\x7b' => pure ({ d.add range (.block 0) with blocks := d.commands.size :: d.blocks }, rest)
    | '\x7d' =>
      match d.blocks with
      | [] => wrong rest "unexpected `\x7d'"
      | start :: blocks =>
        if range.first.isSome then wrong rest "\x7d doesn't want any addresses"
        let commands := d.commands.modify start fun command =>
          { command with deed := .block d.commands.size }
        pure ({ d with commands := commands, blocks := blocks }, ← endOfCommand rest)
    | ':' =>
      if range.first.isSome then wrong rest ": doesn't want any addresses"
      let (label, after) := readLabel rest
      if label.isEmpty then wrong after "\":\" lacks a label"
      pure ({ d with labels := d.labels ++ [(label, d.commands.size)] }, after)
    | 'a' => written .append
    | 'i' => written .insert
    | 'c' => written .change
    | 'b' => jump .always
    | 't' => jump .ifReplaced
    | 'T' => jump .unlessReplaced
    | 'l' => counted .list
    | 'q' | 'Q' =>
      if range.second.isSome then wrong rest "command only uses one address"
      counted fun n => .quit (n.getD 0) (c == 'q')
    | 'r' => named .readFile
    | 'R' => named .readLine
    | 'w' => named .writeFile
    | 'W' => named .writeLine
    | 's' =>
      let (s, after) ← readSubstitution extended rest
      pure (d.add range (.substitute s), after)
    | 'y' =>
      let (table, after) ← readExchange rest
      pure (d.add range (.exchangeLetters table), after)
    | 'v' =>
      let (version, after) := readLabel rest
      if version.takeWhile Char.isDigit > "4" then wrong after "expected newer version of sed"
      pure (d, ← endOfCommand after)
    | _ => wrong rest ("unknown command: `" ++ [c] ++ "'")

/-- Commands in turn. -/
def readCommands (extended : Bool) : (fuel : Nat) → Draft → Text → Except Trouble Draft
  | 0, d, _ => .ok d
  | fuel + 1, d, t => do
    let t := t.dropWhile fun c => isSpace c || c == ';'
    if t.isEmpty then return d
    let (range, rest) ← readRange extended t
    let rest := if range.first.isSome then skipBlanks rest else rest
    let (range, rest) ← match rest with
      | '!' :: more => do
        match skipBlanks more with
        | '!' :: after => wrong after "multiple `!'s"
        | after => pure ({ range with negated := true }, after)
      | _ => pure (range, rest)
    match rest with
    | [] => wrong [] "missing command"
    | c :: after =>
      let (d, left) ← readCommand extended d range c after
      readCommands extended fuel d left

/-- A piece of a written script, with how it is called when something is wrong with it. -/
structure Source where
  /-- The text, and what its troubles start with, given the characters up to there. -/
  text : Text
  title : Text → Text

/-- The title of a text that is the `n`th one given as a word. -/
def wordTitle (n : Nat) (read : Text) : Text :=
  "-e expression #" ++ Text.ofNat n ++ ", char " ++ Text.ofNat read.length ++ ": "

/-- The title of a text that is in a file. -/
def fileTitle (name : Text) (read : Text) : Text :=
  "file " ++ name ++ " line " ++ Text.ofNat (read.count '\n' + (if read.getLast? = some '\n' then 0 else 1)) ++ ": "

/-- The text ends in a backslash that takes in the next text. -/
def continues (t : Text) : Bool :=
  ((t.reverse.takeWhile (· == '\\')).length % 2 == 1)

/-- Sources with those put together of which the first one goes on in the next. -/
def joinSources : List Source → List Source
  | a :: b :: rest =>
    if continues a.text then
      joinSources ({ a with text := a.text ++ '\n' :: b.text } :: rest)
    else a :: joinSources (b :: rest)
  | sources => sources
termination_by sources => sources.length

/-- The commands of some sources; or what is wrong with them, in words. -/
def readAll (extended : Bool) (sources : List Source) : Except Text Edit := do
  let silent := match sources with
    | first :: _ => ("#n" : Text).isPrefixOf first.text
    | [] => false
  let d ← (joinSources sources).foldlM (fun d source =>
    match readCommands extended (source.text.length + 1) d source.text with
    | .ok d => .ok d
    | .error trouble =>
      let read := source.text.take (source.text.length - trouble.left.getD source.text.length)
      .error (source.title read ++ trouble.message)) (⟨#[], [], []⟩ : Draft)
  if !d.blocks.isEmpty then throw ("-e expression #1, char 0: unmatched `\x7b'" : Text)
  let edit : Edit := ⟨d.commands, d.labels, silent⟩
  let missing := edit.commands.toList.findSome? fun c =>
    match c.deed with
    | .jump _ label => if label.isEmpty || (d.labels.lookup label).isSome then none else some label
    | _ => none
  match missing with
  | some label => throw ("can't find label for jump to `" ++ label ++ "'")
  | none => pure edit

end FlowTypes.Script.Editing
