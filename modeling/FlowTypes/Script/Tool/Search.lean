import FlowTypes.Script.Field
import FlowTypes.Script.Matching.Reader
import FlowTypes.Script.Tool.Files

/-!
# Searching lines

`grep` prints the lines in which a pattern occurs, or those in which it does not. It reads its input in portions
and stops when it knows enough (`scan`). A line that is no text is not shown: there is a message instead. A file
with zeros in it is no text from there on.
-/

namespace FlowTypes.Script.Tool

open Errand

/-- What is looked for, and how lines are shown. -/
structure Search where
  /-- None if there is no pattern at all. -/
  pattern : Option Matching.Pattern
  inverted : Bool
  counted : Bool
  listed : Bool
  unlisted : Bool
  quiet : Bool
  onlyMatches : Bool
  numbered : Bool
  offsets : Bool
  named : Bool
  asText : Bool
  most : Option Nat
  linesBefore : Nat
  linesAfter : Nat
  /-- What stands between groups of lines, if groups are told apart. -/
  gap : Option Text
  lineEnd : Char
  nameEnd : Text

/-- How far a search is in a file. -/
structure Progress where
  /-- The lines so far, and their bytes. -/
  number : Nat
  offset : Nat
  selected : Nat
  /-- The lines before this one that may be shown, last first. -/
  kept : List (Nat × Nat × Text)
  /-- How many lines are still shown because of the one before. -/
  owed : Nat
  /-- The number of the last line that was shown. -/
  shown : Nat
  /-- The file is no text, and this has been found out. -/
  binary : Bool
  stopped : Bool

namespace Search

/-- No lines are shown. -/
def silent (s : Search) : Bool := s.quiet || s.counted || s.listed || s.unlisted

/-- What stands before a line or a match. -/
def label (s : Search) (name : Text) (mark : Char) (number offset : Nat) : Text :=
  (if s.named then (if s.nameEnd.isEmpty then name ++ [mark] else name ++ s.nameEnd) else [])
    ++ (if s.numbered then Text.ofNat number ++ [mark] else [])
    ++ (if s.offsets then Text.ofNat offset ++ [mark] else [])

/-- The line is a text. -/
def isText (s : Search) (line : Text) : Bool :=
  s.asText || (line.all (·.toNat < 128) && !line.contains '\x00')
    || (!line.contains '\x00' && (Matching.symbolsOf line).all (· < Matching.strayStart))

/-- The matches in a line that are not empty, with their offsets. -/
def matchesIn (p : Matching.Pattern) : (fuel : Nat) → (offset : Nat) → Option Matching.Symbol →
    List Matching.Symbol → List (Nat × Text)
  | 0, _, _, _ => []
  | fuel + 1, offset, before, symbols =>
    match p.search before 0 symbols with
    | none => []
    | some m =>
      let length := max 1 (m.stop - m.start)
      let skipped := symbols.take m.start
      let found := (symbols.drop m.start).take length
      let at_ := offset + (Matching.textOf skipped).length
      let written := Matching.textOf found
      let others := matchesIn p fuel (at_ + written.length) (found.getLast?.or before)
        (symbols.drop (m.start + length))
      if m.stop = m.start then (if found.isEmpty then [] else others) else (at_, written) :: others

/-- Lines before the one that is shown, with what tells groups apart. -/
def context (s : Search) (name : Text) (p : Progress) (here : Nat) : Text :=
  let lines := (p.kept.takeWhile (p.shown < ·.1)).reverse
  let first := (lines.head?.map (·.1)).getD here
  let gap : Text := match s.gap with
    | some t => if 0 < p.shown && p.shown + 1 < first then t ++ ['\n'] else []
    | none => []
  gap ++ (if s.onlyMatches then [] else
    lines.flatMap fun (number, offset, line) => s.label name '-' number offset ++ line ++ [s.lineEnd])

/-- One line more, and what is shown. -/
def line (s : Search) (name : Text) (p : Progress) (t : Text) : Progress × Text :=
  let number := p.number + 1
  let p' := { p with number := number, offset := p.offset + t.length + 1 }
  let full := s.most.any (· ≤ p.selected)
  let symbols := Matching.symbolsOf t
  let hit := !full && ((s.pattern.any (·.occursIn symbols)) != s.inverted)
  let readable := s.isText t
  if hit then
    let p' := { p' with selected := p.selected + 1, owed := s.linesAfter }
    let enough := s.most.any (· ≤ p'.selected) && s.linesAfter = 0
    if s.silent then ({ p' with stopped := enough || s.quiet || s.listed || s.unlisted }, [])
    else if !readable && !s.onlyMatches then ({ p' with binary := true, stopped := enough }, [])
    else
      let before := s.context name p number
      let shown :=
        if s.onlyMatches then
          if s.inverted then []
          else
            match s.pattern with
            | none => []
            | some pattern =>
              (matchesIn pattern (symbols.length + 1) p.offset none symbols).flatMap fun (offset, found) =>
                if s.isText found then s.label name ':' number offset ++ found ++ [s.lineEnd] else []
        else s.label name ':' number p.offset ++ t ++ [s.lineEnd]
      ({ p' with kept := [], shown := number, stopped := enough }, before ++ shown)
  else if 0 < p.owed && !s.silent then
    let p' := { p' with owed := p.owed - 1, shown := number, stopped := full && p.owed = 1 }
    if s.onlyMatches then (p', [])
    else if !readable then ({ p' with binary := true }, [])
    else (p', s.label name '-' number p.offset ++ t ++ [s.lineEnd])
  else if full then ({ p' with stopped := true }, [])
  else ({ p' with kept := ((number, p.offset, t) :: p.kept).take s.linesBefore }, [])

/-- Lines in turn until the search stops, what is shown, and the lines that are left. -/
def lines (s : Search) (name : Text) (p : Progress) (shown : List Text) : List Text → Progress × Text × List Text
  | [] => (p, shown.reverse.flatten, [])
  | t :: rest =>
    if p.stopped then (p, shown.reverse.flatten, t :: rest)
    else
      let (p, more) := s.line name p t
      s.lines name p (more :: shown) rest

/-- A file that a channel leads to, searched from what is `left` of it on; or why it cannot be read. -/
def scan (s : Search) (name : Text) (channel : Nat) : (fuel : Nat) → (left : Text) → Progress →
    Errand (Except Text Progress)
  | 0, _, p => return .ok p
  | fuel + 1, left, p => do
    if p.stopped then return .ok p
    match ← ask (.read channel portion) with
    | .bytes [] =>
      if left.isEmpty then return .ok p
      else
        let (p, shown, _) := s.lines name p [] [left]
        write 1 shown
        return .ok p
    | .bytes t =>
      -- zeros say at once that this is no text
      let p := if t.contains '\x00' && !s.asText && s.lineEnd != '\x00' then { p with binary := true } else p
      let parts := Raw.fields s.lineEnd (left ++ t)
      let quiet := { s with quiet := s.quiet || (p.binary && !s.silent) }
      let (p, shown, unread) := quiet.lines name p [] parts.dropLast
      write 1 shown
      let last := parts.getLast?.getD []
      if p.stopped then
        if channel = 0 then
          tell (.giveBack 0 (unread.flatMap (· ++ [s.lineEnd]) ++ last))
        return .ok p
      else quiet.scan name channel fuel last p
    | .refused cause => return .error cause.words
    | .closed => return .error "Bad file descriptor"
    | _ => return .ok p

/-- What is told of a file at its end. -/
def conclusion (s : Search) (name : Text) (p : Progress) : Text :=
  let head : Text := if s.named then (if s.nameEnd.isEmpty then name ++ [':'] else name ++ s.nameEnd) else []
  let nameLine : Text := name ++ (if s.nameEnd.isEmpty then ['\n'] else s.nameEnd)
  (if s.counted && !s.quiet then head ++ Text.ofNat p.selected ++ ['\n'] else [])
    ++ (if s.listed && !s.quiet && 0 < p.selected then nameLine else [])
    ++ (if s.unlisted && !s.quiet && p.selected = 0 then nameLine else [])

/-- Files in turn. `found` says that a line was selected, and `bad` that a file could not be read. -/
def files (s : Search) (tool : Text) (standardName : Text) (hushed skipping : Bool) (found bad : Bool)
    (shown : Nat) : List Text → Errand Nat
  | [] => return if found && (s.quiet || !bad) then 0 else if bad then 2 else 1
  | name :: rest => do
    let isInput := name = (['-'] : Text)
    let title := if isInput then standardName else name
    let refuse (cause : Text) : Errand Nat := do
      let skipped := skipping && cause = Refusal.isDirectory.words
      if !(hushed || skipped) then complain (tool ++ ": " ++ title ++ ": " ++ cause)
      s.files tool standardName hushed skipping found (bad || !skipped) shown rest
    let opened ← if isInput then pure none else
      match ← ask (.openFile fileChannel name .reading) with
      | .refused cause => pure (some cause)
      | _ => pure none
    match opened with
    | some cause => refuse cause.words
    | none =>
      let start : Progress := ⟨0, 0, 0, [], 0, shown, false, s.most = some 0⟩
      match ← s.scan title (if isInput then 0 else fileChannel) readings [] start with
      | .error cause => refuse cause
      | .ok p =>
        if p.binary && 0 < p.selected && !s.silent then
          complain (tool ++ ": " ++ title ++ ": binary file matches")
        write 1 (s.conclusion title p)
        let found := found || 0 < p.selected
        if s.quiet && found then return 0
        -- groups of different files are told apart too
        let shown := if 0 < shown || 0 < p.shown then 1 else 0
        s.files tool standardName hushed skipping found bad shown rest

end Search

/-! ## Words -/

/-- The way in which `grep` reads its patterns. -/
def searchDialect (extended : Bool) : Matching.Dialect := { extended := extended, lenient := true, controls := false }

/-- A pattern for words or lines only. -/
def restricted (words lines : Bool) (shape : Matching.Shape) : Matching.Shape :=
  if lines then .seq (.place .textStart) (.seq shape (.place .textEnd))
  else if words then .seq (.place .noWordBefore) (.seq shape (.place .noWordAfter))
  else shape

/-- `grep` is called in a way that it does not know. -/
def misusedSearch {α : Type} (tool : Text) (complaint : Option Text) : Errand α := do
  match complaint with
  | some t => complain (tool ++ ": " ++ t)
  | none => pure ()
  complain ("Usage: " ++ tool ++ " [OPTION]... PATTERNS [FILE]...")
  complain ("Try '" ++ tool ++ " --help' for more information.")
  finish 2

/-- The files below directories, in order. -/
def filesBelow (tree : FileTree) (names included excluded excludedDirectories : List Text) (bare : Bool) :
    List Text :=
  let fits (patterns : List Text) (name : Text) : Bool :=
    patterns.any fun p => Field.fits (p.map fun c => (c, false)) name
  names.flatMap fun name =>
    match System.locate tree name with
    | .ok (loc, some .directory) =>
      (below tree loc).filterMap fun (found, entry) =>
        let parts := found.drop loc.length
        let hidden := parts.dropLast.any fun part => fits excludedDirectories (Raw.ofText part)
        let last := Raw.ofText (parts.getLast?.getD [])
        let chosen := (included.isEmpty || fits included last) && !fits excluded last
        if entry != .directory && chosen && !hidden then
          some (if bare then Text.join ['/'] (parts.map Raw.ofText) else pathBelow name parts)
        else none
    | _ => [name]

/-- The long names of the options. -/
def searchNames : List (String × Char) :=
  [("after-context", 'A'), ("before-context", 'B'), ("context", 'C'), ("extended-regexp", 'E'),
    ("fixed-strings", 'F'), ("basic-regexp", 'G'), ("with-filename", 'H'), ("files-without-match", 'L'),
    ("perl-regexp", 'P'), ("initial-tab", 'T'), ("null", 'Z'), ("text", 'a'), ("byte-offset", 'b'),
    ("count", 'c'), ("directories", 'd'), ("regexp", 'e'), ("file", 'f'), ("no-filename", 'h'),
    ("ignore-case", 'i'), ("files-with-matches", 'l'), ("max-count", 'm'), ("line-number", 'n'),
    ("only-matching", 'o'), ("quiet", 'q'), ("silent", 'q'), ("dereference-recursive", 'R'),
    ("recursive", 'r'), ("no-messages", 's'), ("invert-match", 'v'), ("word-regexp", 'w'),
    ("line-regexp", 'x'), ("null-data", 'z'), ("include", 'α'), ("exclude", 'β'), ("exclude-dir", 'γ'),
    ("label", 'δ'), ("no-group-separator", 'ε'), ("color", 'ζ'), ("colour", 'ζ'), ("line-buffered", 'η')]

/-- Prints lines in which a pattern occurs. -/
def grep : Tool := fun _ _ words => do
  let tool := words.headD []
  let known : Known := ⟨"0123456789A:B:C:D:EFGHILPTUVXZabcd:e:f:hilm:noqRrsuvwxyzα:β:γ:δ:εζ::η",
    searchNames.map fun e => (e.1.toList, e.2)⟩
  let (given, operands) ← match readOptions known true (words.drop 1) with
    | .ok found => pure found
    | .error complaint => misusedSearch tool (some complaint)
  let fail {α : Type} (complaint : Text) : Errand α := do
    complain (tool ++ ": " ++ complaint)
    finish 2
  if has given 'X' then misusedSearch tool (some "option requires an argument -- 'X'")
  if 1 < (("EFGP".toList).filter (has given)).length then fail "conflicting matchers specified"
  -- the digits of an option stand for lines around
  let digits := given.filterMap fun g => if g.1.isDigit then some g.1 else none
  let count (letter : Char) : Errand (Option Nat) := do
    match argument? given letter with
    | none => return none
    | some t =>
      match Raw.nat? t with
      | some n => return some n
      | none => fail (t ++ ": invalid context length argument")
  let around := (← count 'C').or (if digits.isEmpty then none else some (Raw.natOf digits))
  let after := (← count 'A').or around
  let before := (← count 'B').or around
  let most ← match argument? given 'm' with
    | none => pure none
    | some t =>
      match Raw.nat? t with
      | some n => pure (some n)
      | none => fail "invalid max count"
  -- patterns, each on a line
  let fromFiles ← (argumentsOf given 'f').mapM fun name => do
    match ← contentOf name with
    | .ok t => return Raw.lines t
    | .error trouble => fail (name ++ ": " ++ trouble.cause.words)
  let fromWords := (argumentsOf given 'e').flatMap (Raw.fields '\n')
  let asOption := has given 'e' || has given 'f'
  if !asOption && operands.isEmpty then misusedSearch tool none
  let patterns :=
    if asOption then fromWords ++ fromFiles.flatten else Raw.fields '\n' (operands.headD [])
  let names := if asOption then operands else operands.drop 1
  let dialect := searchDialect (has given 'E' || has given 'P')
  let fixed := has given 'F'
  let shapes ← patterns.mapM fun t => do
    let symbols := Matching.symbolsOf t
    if fixed then
      return symbols.foldr (fun s shape => .seq (Matching.literal s) shape) Matching.Shape.empty
    match Matching.read dialect symbols with
    | .ok (shape, _, passed) =>
      passed.forM fun sign => complain (tool ++ ": warning: " ++ sign ++ " at start of expression")
      return shape
    | .error fault => fail fault.message
  let pattern := match shapes with
    | [] => none
    | first :: others =>
      let all := others.foldl (fun a b => Matching.Shape.either a b) first
      some (Matching.Pattern.ofShape (restricted (has given 'w') (has given 'x') all) 0
        (has given 'i' || has given 'y'))
  let deep := has given 'r' || has given 'R'
  let tree ← Errand.files
  let searched :=
    if !deep then orInput names
    else filesBelow tree (if names.isEmpty then [['.']] else names) (argumentsOf given 'α') (argumentsOf given 'β')
      (argumentsOf given 'γ') names.isEmpty
  let several := 1 < searched.length || (deep && (names.isEmpty ||
    names.any fun name => entryAt tree name = some .directory))
  let lastName := (given.filter fun g => g.1 == 'H' || g.1 == 'h').getLast?.map (·.1)
  let s : Search :=
    { pattern := pattern
      inverted := has given 'v'
      counted := has given 'c' && !has given 'l' && !has given 'L'
      listed := has given 'l' && !has given 'L'
      unlisted := has given 'L'
      quiet := has given 'q'
      onlyMatches := has given 'o'
      numbered := has given 'n'
      offsets := has given 'b'
      named := lastName == some 'H' || (several && lastName != some 'h')
      asText := has given 'a'
      most := most
      linesBefore := before.getD 0
      linesAfter := after.getD 0
      gap := if has given 'ε' || (before.getD 0 = 0 && after.getD 0 = 0) then none else some "--"
      lineEnd := if has given 'z' then '\x00' else '\n'
      nameEnd := if has given 'Z' then ['\x00'] else [] }
  s.files tool ((argument? given 'δ').getD "(standard input)") (has given 's')
    (argument? given 'd' == some "skip") false false 0 searched

/-- Searches for patterns in their extended form. -/
def egrep : Tool := fun launch environment words =>
  grep launch environment (("grep" : Text) :: ['-', 'E'] :: words.drop 1)

/-- Searches for texts as they are. -/
def fgrep : Tool := fun launch environment words =>
  grep launch environment (("grep" : Text) :: ['-', 'F'] :: words.drop 1)

end FlowTypes.Script.Tool
