import FlowTypes.Script.Editing.Reader
import FlowTypes.Script.Tool.Streams

/-!
# The stream editor

`sed` reads its input line by line and runs its commands on each line (`Editor.cycle`). What it prints is held back
until it reads on or is at its end, as long as nobody asks for more.

The last line of a file may go without a line end. It is printed without one, too, unless something follows.

## Termination

Cycles and commands count on fuel that no script uses up: a jump takes time, so a script that goes round for ever is
stopped from outside.
-/

namespace FlowTypes.Script.Tool

open Errand Editing

/-- A line with or without its end. -/
structure Line where
  text : Text
  ended : Bool

/-- What is being read: the files that follow, the channel of the file that is open, the lines that are ready, and
the start of a line behind them. -/
structure Intake where
  names : List Text
  name : Text
  channel : Option Nat
  ready : List Line
  left : Text

/-- What is printed at the end of a cycle. -/
inductive Later where
  | text (t : Text)
  | file (name : Text)

/-- How far a range is. -/
inductive RangeState where
  | inactive
  /-- Up to a line, or as long as the second address does not match. -/
  | active (last : Option Nat)
  | closed
  deriving DecidableEq

/-- The state of an editor. -/
structure Editor where
  space : Line
  kept : Text
  number : Nat
  intake : Intake
  later : List Later
  replaced : Bool
  ranges : List (Nat × RangeState)
  last : Option Matching.Pattern
  /-- What goes to a channel, last first. -/
  printed : List Text
  /-- The channels whose last line has no end. -/
  unended : List Nat
  /-- Files that lines are taken from. -/
  sources : List (Text × List Line)
  status : Nat

/-- What an editor is told. -/
structure Instructions where
  edit : Editing.Edit
  tool : Text
  silent : Bool
  lineEnd : Char
  width : Nat
  /-- The channel for what is printed. -/
  output : Nat
  /-- The channels of the files that are written to. -/
  files : List (Text × Nat)

/-- How a round of commands ends. -/
inductive CycleEnd where
  | over
  | skipped
  /-- The rest of the line is next. -/
  | again
  | quit (status : Nat) (printing : Bool)

namespace Editor

/-- Work on the state of an editor. -/
abbrev Work (α : Type) := StateT Editor Errand α

/-! ## Printing -/

/-- What is held back is printed. -/
def flush (c : Instructions) : Work Unit := do
  let s ← get
  let t := s.printed.reverse.flatten
  set { s with printed := [] }
  write c.output t

/-- A text goes to a channel; with `ended`, a line end follows. -/
def emit (c : Instructions) (channel : Nat) (t : Text) (ended : Bool) : Work Unit := do
  let s ← get
  let start : Text := if s.unended.contains channel then [c.lineEnd] else []
  let others := s.unended.filter (· != channel)
  let t := start ++ t ++ (if ended then [c.lineEnd] else [])
  set { s with unended := if ended then others else channel :: others }
  if channel = c.output then modify fun s => { s with printed := t :: s.printed }
  else write channel t

/-- A text that brings its own line ends. -/
def emitRaw (c : Instructions) (channel : Nat) (t : Text) : Work Unit := do
  let s ← get
  let start : Text := if s.unended.contains channel then [c.lineEnd] else []
  set { s with unended := s.unended.filter (· != channel), printed := t :: start :: s.printed }

/-! ## Reading -/

/-- The lines at the start of a text, and what is left behind the last line end. -/
def linesOf (lineEnd : Char) (t : Text) : List Line × Text :=
  let parts := Raw.fields lineEnd t
  (parts.dropLast.map fun text => ⟨text, true⟩, parts.getLast?.getD [])

/-- Reads until a line is ready, if there is one. -/
def fill (c : Instructions) : (fuel : Nat) → Work Unit
  | 0 => return
  | fuel + 1 => do
    let s ← get
    if !s.intake.ready.isEmpty then return
    match s.intake.channel with
    | some channel =>
      flush c
      match ← ask (.read channel portion) with
      | .bytes [] =>
        if channel != 0 then tell (.close channel)
        let last : List Line := if s.intake.left.isEmpty then [] else [⟨s.intake.left, false⟩]
        modify fun s => { s with intake := { s.intake with channel := none, ready := last, left := [] } }
        fill c fuel
      | .bytes t =>
        let (lines, left) := linesOf c.lineEnd (s.intake.left ++ t)
        modify fun s => { s with intake := { s.intake with ready := lines, left := left } }
        fill c fuel
      | .refused cause =>
        complain (c.tool ++ ": read error on " ++ s.intake.name ++ ": " ++ cause.words)
        flush c
        finish 4
      | _ =>
        modify fun s => { s with intake := { s.intake with channel := none } }
        fill c fuel
    | none =>
      match s.intake.names with
      | [] => return
      | name :: rest =>
        let intake := { s.intake with names := rest, name := name }
        if name = (['-'] : Text) then
          set { s with intake := { intake with channel := some 0 } }
          fill c fuel
        else
          match ← ask (.openFile fileChannel name .reading) with
          | .refused cause =>
            complain (c.tool ++ ": can't read " ++ name ++ ": " ++ cause.words)
            set { s with intake := intake, status := 2 }
          | _ => set { s with intake := { intake with channel := some fileChannel } }
          fill c fuel

/-- The next line, if there is one. -/
def take (c : Instructions) : Work (Option Line) := do
  fill c readings
  let s ← get
  match s.intake.ready with
  | [] => return none
  | line :: rest =>
    set { s with intake := { s.intake with ready := rest }, number := s.number + 1 }
    return some line

/-- There is no line behind this one. -/
def atEnd (c : Instructions) : Work Bool := do
  fill c readings
  return (← get).intake.ready.isEmpty

/-! ## Ranges -/

/-- The pattern that is looked for. -/
def patternOf (c : Instructions) : Sought → Work Matching.Pattern
  | .pattern p => do
    modify fun s => { s with last := some p }
    return p
  | .last => do
    match (← get).last with
    | some p => return p
    | none =>
      flush c
      complain (c.tool ++ ": -e expression #1, char 0: no previous regular expression")
      finish 1

/-- The line has the address. -/
def isAt (c : Instructions) : Address → Work Bool
  | .line n => do return (← get).number = n
  | .steps first step => do
    let n := (← get).number
    return if step = 0 then n = first else first ≤ n && (n - first) % step = 0
  | .lastLine => atEnd c
  | .sought s => do
    let p ← patternOf c s
    return p.occursIn (Matching.symbolsOf (← get).space.text)

/-- The command at a place applies to the line. -/
def applies (c : Instructions) (place : Nat) (r : Editing.Range) : Work Bool := do
  let held ← match r.first, r.second with
    | none, _ => pure true
    | some a, none => isAt c a
    | some a, some goal => do
      let n := (← get).number
      let put (state : RangeState) : Work Unit :=
        modify fun s => { s with ranges := (place, state) :: s.ranges.filter (·.1 != place) }
      let fromZero := match a with
        | .line 0 => true
        | _ => false
      let state := ((← get).ranges.lookup place).getD (if fromZero then .active none else .inactive)
      match state with
      | .active (some last) =>
        if last ≤ n then put .closed
        pure (decide (n ≤ last))
      | .active none =>
        let reached ← match goal with
          | .address b => isAt c b
          | _ => pure true
        if reached then put .closed
        pure true
      | .inactive | .closed =>
        let spent : Bool := match a with
          | .line _ => state == .closed
          | _ => false
        if spent then pure false
        else if !(← isAt c a) then pure false
        else
          let upTo (last : Nat) : Work Unit := if n < last then put (.active (some last)) else pure ()
          match goal with
          | .address (.line last) => upTo last
          | .address _ => put (.active none)
          | .further count => upTo (n + count)
          | .multiple count => if count = 0 then pure () else upTo (n + count - n % count)
          pure true
  return held != r.negated

/-- The range of a command goes on behind this line. -/
def goesOn (place : Nat) : Work Bool := do
  match (← get).ranges.lookup place with
  | some (.active _) => return true
  | _ => return false

/-! ## Commands -/

/-- Texts and files that were put off are printed. -/
def printLater (c : Instructions) : Work Unit := do
  let s ← get
  set { s with later := [] }
  for item in s.later do
    match item with
    | .text t => emitRaw c c.output t
    | .file name =>
      match ← (contentOf (if name = ("/dev/stdin" : Text) then ['-'] else name) : Errand _) with
      | .ok t => if t.isEmpty then pure () else emitRaw c c.output t
      | .error _ => pure ()

/-- The next line of a file that lines are taken from. -/
def lineFrom (c : Instructions) (name : Text) : Work (Option Line) := do
  let lines ← match (← get).sources.lookup name with
    | some lines => pure lines
    | none => do
      match ← (contentOf name : Errand _) with
      | .ok t =>
        let (lines, left) := linesOf c.lineEnd t
        pure (if left.isEmpty then lines else lines ++ [⟨left, false⟩])
      | .error _ => pure []
  modify fun s => { s with sources := (name, lines.drop 1) :: s.sources.filter (·.1 != name) }
  return lines.head?

/-- The line as it is goes to a channel. -/
def printSpace (c : Instructions) (channel : Nat) : Work Unit := do
  let s ← get
  emit c channel s.space.text s.space.ended

/-- The channel of a file that is written to. -/
def channelOf (c : Instructions) (name : Text) : Nat := (c.files.lookup name).getD c.output

/-- The text of the line changed. -/
def withText (change : Text → Text) : Work Unit :=
  modify fun s => { s with space := { s.space with text := change s.space.text } }

/-- The first line of a text. -/
def firstLine (c : Instructions) (t : Text) : Text := t.takeWhile (· != c.lineEnd)

/-- Microseconds that a jump takes. -/
def jumpTime : Nat := 2

/-- The commands from a place on. -/
def commands (c : Instructions) : (fuel : Nat) → (place : Nat) → Work CycleEnd
  | 0, _ => return .over
  | fuel + 1, place => do
    match c.edit.commands[place]? with
    | none => return .over
    | some command =>
      let onward : Work CycleEnd := commands c fuel (place + 1)
      let going := ← applies c place command.range
      if !going then
        match command.deed with
        | .block stop => commands c fuel stop
        | _ => onward
      else
        match command.deed with
        | .block _ | .nothing => onward
        | .append t =>
          modify fun s => { s with later := s.later ++ [.text t] }
          onward
        | .insert t =>
          emitRaw c c.output t
          onward
        | .change t =>
          let inRange := command.range.second.isSome && !command.range.negated
          if !(inRange && (← goesOn place)) then emitRaw c c.output t
          return .skipped
        | .jump when_ label =>
          let replaced := (← get).replaced
          let made := match when_ with
            | .always => true
            | .ifReplaced => replaced
            | .unlessReplaced => !replaced
          if when_ != .always then modify fun s => { s with replaced := false }
          if made then
            tell (.pass jumpTime)
            commands c fuel ((c.edit.labels.lookup label).getD c.edit.commands.size)
          else onward
        | .delete => return .skipped
        | .deleteLine =>
          if (← get).space.text.contains c.lineEnd then
            withText fun t => t.drop ((firstLine c t).length + 1)
            return .again
          else return .skipped
        | .get =>
          let kept := (← get).kept
          withText fun _ => kept
          onward
        | .getAdd =>
          let kept := (← get).kept
          withText (· ++ c.lineEnd :: kept)
          onward
        | .hold =>
          modify fun s => { s with kept := s.space.text }
          onward
        | .holdAdd =>
          modify fun s => { s with kept := s.kept ++ c.lineEnd :: s.space.text }
          onward
        | .exchange =>
          modify fun s => { s with kept := s.space.text, space := { s.space with text := s.kept } }
          onward
        | .next =>
          if ← atEnd c then return .quit (← get).status true
          if !c.silent then printSpace c c.output
          printLater c
          match ← take c with
          | none => return .quit (← get).status true
          | some line =>
            modify fun s => { s with space := line }
            onward
        | .nextAdd =>
          if ← atEnd c then return .quit (← get).status true
          printLater c
          match ← take c with
          | none => return .quit (← get).status true
          | some line =>
            modify fun s => { s with space := ⟨s.space.text ++ c.lineEnd :: line.text, line.ended⟩ }
            onward
        | .print =>
          printSpace c c.output
          onward
        | .printLine =>
          emit c c.output (firstLine c (← get).space.text) true
          onward
        | .quit status printing => return .quit status printing
        | .number =>
          emitRaw c c.output (Text.ofNat (← get).number ++ ['\n'])
          onward
        | .list width =>
          emitRaw c c.output (shownLine (width.getD c.width) (← get).space.text)
          onward
        | .readFile name =>
          modify fun s => { s with later := s.later ++ [.file name] }
          onward
        | .readLine name =>
          match ← lineFrom c name with
          | some line => modify fun s => { s with later := s.later ++ [.text (line.text ++ [c.lineEnd])] }
          | none => pure ()
          onward
        | .writeFile name =>
          printSpace c (channelOf c name)
          onward
        | .writeLine name =>
          emit c (channelOf c name) (firstLine c (← get).space.text) true
          onward
        | .substitute s =>
          let p ← patternOf c s.sought
          match s.apply? p (← get).space.text with
          | none => onward
          | some new =>
            withText fun _ => new
            modify fun s => { s with replaced := true }
            if s.printed then printSpace c c.output
            match s.file with
            | some name => printSpace c (channelOf c name)
            | none => pure ()
            onward
        | .exchangeLetters table =>
          withText fun t => (Raw.chars t).flatMap fun letter => (table.lookup letter).getD letter
          onward
        | .fileName =>
          emitRaw c c.output ((← get).intake.name ++ ['\n'])
          onward
        | .clear =>
          withText fun _ => []
          onward

/-- What has been read too much goes back. -/
def restore (c : Instructions) : Work Unit := do
  let s ← get
  if s.intake.channel = some 0 then
    tell (.giveBack 0 (s.intake.ready.flatMap (fun line => line.text ++ [c.lineEnd]) ++ s.intake.left))

/-- Cycles until there is no line left; some status if the editor is to quit. -/
def cycles (c : Instructions) : (fuel : Nat) → (fresh : Bool) → Work (Option Nat)
  | 0, _ => return none
  | fuel + 1, fresh => do
    let line ← if fresh then take c else pure (some (← get).space)
    match line with
    | none => return none
    | some line =>
      modify fun s => { s with space := line, replaced := if fresh then false else s.replaced }
      let autoprint : Work Unit := if c.silent then pure () else printSpace c c.output
      match ← commands c readings 0 with
      | .over =>
        autoprint
        printLater c
        cycles c fuel true
      | .skipped =>
        printLater c
        cycles c fuel true
      | .again =>
        printLater c
        cycles c fuel false
      | .quit status printing =>
        if printing then
          autoprint
          printLater c
        restore c
        return some status

/-- An editor before it has read anything. -/
def start (names : List Text) : Editor :=
  ⟨⟨[], true⟩, [], 0, ⟨names, ['-'], none, [], []⟩, [], false, [], none, [], [], [], 0⟩

end Editor

/-! ## Words -/

/-- A channel for the file that is edited in place. -/
def placeChannel : Nat := 4

/-- Files edited one after the other, each as if it were the only one; `place` says that the result takes the place
of the file, with the ending of the name of a copy. -/
def editEach (c : Instructions) (place : Option Text) (state : Editor) : List Text → Errand Nat
  | [] => return state.status
  | name :: rest => do
    let state := { state with number := 0, ranges := [], intake := ⟨[name], ['-'], none, [], []⟩ }
    match place with
    | none =>
      let (ending, state) ← (Editor.cycles c readings true).run state
      let ((), state) ← (Editor.flush c).run state
      match ending with
      | some status => return status
      | none => editEach c place state rest
    | some ending =>
      let tree ← files
      match entryOf tree name with
      | none =>
        complain (c.tool ++ ": can't read " ++ name ++ ": No such file or directory")
        editEach c place { state with status := 2 } rest
      | some .directory =>
        complain (c.tool ++ ": couldn't edit " ++ name ++ ": not a regular file")
        editEach c place { state with status := 4 } rest
      | some (.file old) =>
        let _ ← ask (.openFile fileChannel name .reading)
        let content ← readAll fileChannel readings []
        let t := match content with
          | .ok t => t
          | .error _ => []
        let (lines, left) := Editor.linesOf c.lineEnd t
        let lines := if left.isEmpty then lines else lines ++ [⟨left, false⟩]
        let state := { state with intake := ⟨[], name, none, lines, []⟩, unended := state.unended.filter (· != c.output) }
        let (quit, state) ← (Editor.cycles c readings true).run state
        -- after a command to quit, the other lines stay as they are
        let unread := match quit with
          | some _ => state.intake.ready.flatMap fun line => line.text ++ (if line.ended then [c.lineEnd] else [])
          | none => []
        let printed := state.printed.reverse.flatten ++ unread
        if !ending.isEmpty then
          let copy := if ending.contains '*' then ending.flatMap fun d => if d == '*' then name else [d]
            else name ++ ending
          let _ ← ask (.openFile placeChannel copy .writing)
          write placeChannel (Raw.ofBytes old)
        let _ ← ask (.openFile placeChannel name .writing)
        write placeChannel printed
        tell (.close placeChannel)
        let state := { state with printed := [] }
        match quit with
        | some status => return status
        | none => editEach c place state rest
where
  /-- What is at a path. -/
  entryOf (tree : FileTree) (path : Text) : Option Entry :=
    match System.locate tree path with
    | .ok (_, entry) => entry
    | .error _ => none

/-- Channels for the files that are written to; they are empty at first. -/
def openTargets (tool : Text) (channel : Nat) : List Text → Errand (List (Text × Nat))
  | [] => return []
  | name :: rest => do
    if name = ("/dev/stdout" : Text) then return (name, 1) :: (← openTargets tool channel rest)
    if name = ("/dev/stderr" : Text) then return (name, 2) :: (← openTargets tool channel rest)
    match ← ask (.openFile channel name .writing) with
    | .refused cause =>
      complain (tool ++ ": couldn't open file " ++ name ++ ": " ++ cause.words)
      finish 4
    | _ => return (name, channel) :: (← openTargets tool (channel + 1) rest)

/-- Edits what it reads, line by line. -/
def sed : Tool := fun _ _ words => do
  let tool := words.headD []
  let known : Known := ⟨"nsuzErf:e:l:i::α", [("quiet", 'n'), ("silent", 'n'), ("expression", 'e'), ("file", 'f'),
    ("in-place", 'i'), ("line-length", 'l'), ("regexp-extended", 'E'), ("separate", 's'), ("unbuffered", 'u'),
    ("null-data", 'z'), ("zero-terminated", 'z'), ("posix", 'α'), ("sandbox", 'α'), ("follow-symlinks", 'α')]⟩
  let usage {α : Type} : Errand α := do
    complain ("Usage: " ++ tool ++ " [OPTION]... \x7bscript-only-if-no-other-script\x7d [input-file]...")
    finish 1
  let (given, operands) ← match readOptions known true (words.drop 1) with
    | .ok found => pure found
    | .error complaint => do
      complain (tool ++ ": " ++ complaint)
      usage
  let scripts := given.filter fun g => g.1 == 'e' || g.1 == 'f'
  let (scripts, names) ← match scripts, operands with
    | [], [] => usage
    | [], script :: names => pure ([('e', some script)], names)
    | _, _ => pure (scripts, operands)
  let sources ← (scripts.mapIdx fun n g => (n + 1, g)).mapM fun (n, letter, argument) => do
    let t := argument.getD []
    if letter == 'e' then return (⟨t, wordTitle n⟩ : Source)
    match ← contentOf t with
    | .ok content =>
      let content := if content.getLast? = some '\n' then content.dropLast else content
      return ⟨content, fileTitle t⟩
    | .error trouble =>
      complain (tool ++ ": couldn't open file " ++ t ++ ": " ++ trouble.cause.words)
      finish 4
  match readAll (has given 'E' || has given 'r') sources with
  | .error complaint =>
    complain (tool ++ ": " ++ complaint)
    finish (if ("can't find label" : Text).isPrefixOf complaint then 4 else 1)
  | .ok edit =>
    let targets ← openTargets tool 200 (edit.commands.toList.filterMap Editing.Command.file?).eraseDups
    let place := if has given 'i' then some ((argument? given 'i').getD []) else none
    let c : Instructions :=
      { edit := edit
        tool := tool
        silent := has given 'n' || edit.silent
        lineEnd := if has given 'z' then '\x00' else '\n'
        width := (((argument? given 'l').bind Raw.nat?).map fun n => if n = 1 then 0 else n).getD 70
        output := if place.isSome then placeChannel else 1
        files := targets }
    if place.isSome && names.isEmpty then
      complain (tool ++ ": no input files")
      finish 4
    if place.isSome || has given 's' then editEach c place (Editor.start []) (orInput names)
    else
      let (ending, state) ← (Editor.cycles c readings true).run (Editor.start (orInput names))
      let ((), state) ← (Editor.flush c).run state
      return ending.getD state.status

end FlowTypes.Script.Tool
