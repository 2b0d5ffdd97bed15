import FlowTypes.Script.Printing
import FlowTypes.Script.Shell
import FlowTypes.Script.Shell.Signal

/-!
# Commands of the shell itself

The commands that a shell does without starting a program, apart from those that run scripts. Each one takes
its words, does its work and gives a status (`Builtin.plain?`).

Some of them are special: what goes wrong in them ends the shell, and assignments before them stay.
-/

namespace FlowTypes.Script.Builtin

open Work

/-- Commands that belong to the language of scripts. -/
def special : List Text :=
  [(".": Text), ":", "break", "continue", "eval", "exec", "exit", "export", "local", "readonly", "return", "set",
    "shift", "times", "trap", "unset"]

/-- Commands whose words may be assignments. -/
def assigning : List Text := [("alias" : Text), "export", "local", "readonly"]

/-- The other commands of the shell. -/
def ordinary : List Text :=
  [("[" : Text), "alias", "bg", "cd", "chdir", "command", "echo", "false", "fg", "getopts", "hash", "jobs",
    "kill", "printf", "pwd", "read", "test", "true", "type", "ulimit", "umask", "unalias", "wait"]

/-- The name is one of a command of the shell. -/
def isBuiltin (name : Text) : Bool := special.contains name || ordinary.contains name

/-! ## Words -/

/-- What a command prints. Its status is bad if that cannot be done. -/
def print (t : Text) (status : Nat := 0) : Work Nat := do
  if ← send 1 t then return status
  let name := (← get).within.getD []
  complain (name ++ ": I/O error")
  return 1

/-- The letters of the options at the start of the words, and the words behind them. -/
def optionsOf (letters : Text) : List Text → Work (Text × List Text)
  | ['-', '-'] :: rest => return ([], rest)
  | ('-' :: c :: more) :: rest => do
    match (c :: more).find? (!letters.contains ·) with
    | some bad => fail ("Illegal option -" ++ [bad])
    | none =>
      let (others, words) ← optionsOf letters rest
      return (c :: more ++ others, words)
  | words => return ([], words)

/-- The number that a word stands for; it must not be negative. -/
def numberOf (t : Text) : Work Nat := do
  match Printing.readWhole false t with
  | some (n, rest) =>
    if rest.all Printing.isSpace && 0 ≤ n && n < Int.pow 2 31 then return n.toNat
    else fail ("Illegal number: " ++ t)
  | none => fail ("Illegal number: " ++ t)

/-- The name and the value in a word that may be an assignment. -/
def nameAndValue (word : Text) : Work (Text × Option Text) := do
  let name := word.takeWhile (· != '=')
  if !isName name then fail (name ++ ": bad variable name")
  return (name, if name.length < word.length then some (word.drop (name.length + 1)) else none)

/-- A value in quotes, so that a shell reads it back. Quotes in it stand in double quotes. -/
def quoted (fuel : Nat) (t : Text) : Text :=
  match fuel with
  | 0 => []
  | fuel + 1 =>
    let part := t.takeWhile (· != '\'')
    let rest := t.drop part.length
    let quotes := rest.takeWhile (· == '\'')
    let after := rest.drop quotes.length
    '\'' :: part ++ ['\''] ++ (if quotes.isEmpty then [] else '"' :: quotes ++ ['"'])
      ++ (if after.isEmpty then [] else quoted fuel after)

/-- A value in quotes. -/
def shown (t : Text) : Text := quoted (t.length + 1) t

/-- The names that satisfy a condition with their values, in order, each on a line. -/
def listing (s : Shell) (start : Text) (condition : Holding → Bool) (bare : Bool) : Text :=
  let chosen := s.holdings.filter fun (_, h) => condition h && (bare || h.value.isSome)
  let sorted := chosen.mergeSort fun a b => Text.le a.1 b.1
  sorted.flatMap fun (name, h) =>
    start ++ name ++ (match h.value with
      | some v => '=' :: shown v
      | none => []) ++ ['\n']

/-! ## Conditions and printing -/

/-- A condition. -/
def test (words : List Text) : Work Nat := do
  let (tree, permitted) ← look
  match Condition.holds ⟨tree, permitted⟩ (words.length + 2) words with
  | .ok h => return if h then 0 else 1
  | .error complaint => fail complaint

/-- A condition whose last word closes it. -/
def bracket (words : List Text) : Work Nat := do
  if words.getLast? = some ([']'] : Text) then test words.dropLast else fail "missing ]"

/-- A template filled with words. -/
def printf (words : List Text) : Work Nat := do
  let (_, words) ← optionsOf [] words
  match words with
  | [] => fail "usage: printf format [arg ...]"
  | template :: rest =>
    let filling := Printing.printf template rest
    filling.complaints.forM complain
    print filling.printed (match filling.stopped with
      | some n => if n = 0 && !filling.complaints.isEmpty then 1 else n
      | none => if filling.complaints.isEmpty then 0 else 1)

/-! ## Directories -/

/-- A location as a path. -/
def pathOf (loc : Location) : Text := Raw.ofText ('/' :: Text.join ['/'] loc)

/-- The path of the working directory. -/
def directory : Work Text := do
  let (tree, _) ← look
  return pathOf tree.workDir

/-- Another working directory. -/
def cd (words : List Text) : Work Nat := do
  let (_, words) ← optionsOf "LP" words
  let s ← get
  let back := words.head? = some (['-'] : Text)
  let goal := match words with
    | [] => (s.value? "HOME").getD []
    | word :: _ => if back then (s.value? "OLDPWD").getD [] else word
  let (tree, _) ← look
  let loc? := if goal.isEmpty then some tree.workDir else
    match System.locate tree goal with
    | .ok (loc, some .directory) => some loc
    | _ => none
  match loc? with
  | none => fail ("can't cd to " ++ goal)
  | some loc =>
    tell (.enter loc)
    assign "OLDPWD" (pathOf tree.workDir) true
    assign "PWD" (pathOf loc) true
    if back then print (pathOf loc ++ ['\n']) else return 0

/-- The working directory. -/
def pwd (words : List Text) : Work Nat := do
  let _ ← optionsOf "LP" words
  print ((← directory) ++ ['\n'])

/-! ## Names -/

/-- Names that programs see, or that keep their values. -/
def declare (verb : Text) (change : Holding → Holding) (condition : Holding → Bool) (words : List Text) :
    Work Nat := do
  let (letters, words) ← optionsOf "p" words
  if words.isEmpty || letters.contains 'p' then
    print (listing (← get) (verb ++ [' ']) condition true)
  else
    words.forM fun word => do
      let (name, value) ← nameAndValue word
      if let some v := value then assign name v
      modify fun s => s.hold name (change ((s.holdings.lookup name).getD ⟨none, false, false⟩))
    return 0

/-- Names that a function has for its own. -/
def ownNames (words : List Text) : Work Nat := do
  if (← get).scopes.isEmpty then fail "not in a function"
  words.forM fun word => do
    if word = (['-'] : Text) then
      let options := (← get).options
      modify fun s => { s with scopes := s.scopes.modifyHead (((['-'] : Text), some ⟨some options, false, false⟩) :: ·) }
    else
      let (name, value) ← nameAndValue word
      modify fun s => { s with scopes := s.scopes.modifyHead ((name, s.holdings.lookup name) :: ·) }
      if let some v := value then assign name v
  return 0

/-- Names or functions are forgotten. -/
def unset (words : List Text) : Work Nat := do
  let (letters, words) ← optionsOf "fv" words
  words.forM fun word => do
    let s ← get
    if letters.contains 'f' then
      set { s with functions := s.functions.filter (·.1 != word) }
    else
      if !isName word then fail (word ++ ": bad variable name")
      if (s.holdings.lookup word).any (·.fixed) then fail (word ++ ": is read only")
      set (s.forget word)
  return 0

/-! ## Reading -/

/-- A line of the input: its characters, and whether a backslash took their meaning; and whether the line had
an end. -/
def readChars (plain : Bool) : (fuel : Nat) → Work (List (Char × Bool) × Bool)
  | 0 => return ([], false)
  | fuel + 1 => do
    match ← ask (.readLine 0) with
    | .bytes t =>
      let ended := t.getLast? = some '\n'
      let line := (if ended then t.dropLast else t).filter (· != '\x00')
      if plain then return (line.map (·, false), ended)
      let (chars, joins) := escapes line
      if joins && ended then
        let (more, ended) ← readChars plain fuel
        return (chars ++ more, ended)
      return (chars, ended)
    | _ => return ([], false)
where
  /-- The characters behind backslashes; and whether the last backslash stands before the end. -/
  escapes : Text → List (Char × Bool) × Bool
    | [] => ([], false)
    | ['\\'] => ([], true)
    | '\\' :: c :: rest =>
      let (chars, joins) := escapes rest
      ((c, true) :: chars, joins)
    | c :: rest =>
      let (chars, joins) := escapes rest
      ((c, false) :: chars, joins)

/-- A line cut at separators for a number of names. The last name gets what is left, without the separators at
its end if they are blanks, or if there is only one field left. -/
def share (separators : Text) : (count : Nat) → List (Char × Bool) → List Text
  | 0, _ => []
  | 1, chars =>
    let chars := chars.dropWhile isBlank
    let first := chars.takeWhile fun c => !isSeparator c
    let rest := chars.drop first.length
    let onlyOne := rest.all isSeparator && ((rest.filter fun c => !isBlank c).length ≤ 1)
    let kept := if onlyOne then first else (chars.reverse.dropWhile isBlank).reverse
    [kept.map (·.1)]
  | count + 1, chars =>
    let chars := chars.dropWhile isBlank
    let first := chars.takeWhile fun c => !isSeparator c
    let rest := (chars.drop first.length).dropWhile isBlank
    let rest := match rest with
      | c :: after => if isSeparator c then after.dropWhile isBlank else rest
      | [] => []
    first.map (·.1) :: share separators count rest
where
  isSeparator (c : Char × Bool) : Bool := !c.2 && separators.contains c.1
  isBlank (c : Char × Bool) : Bool := isSeparator c && Field.isBlank c.1

/-- Names get the values of the next line. -/
def read (words : List Text) : Work Nat := do
  let (plain, words) ← letters false words
  if words.isEmpty then fail "arg count"
  let (chars, ended) ← readChars plain patience
  let s ← get
  let values := share s.separators words.length chars
  (words.zip values).forM fun (name, v) => do
    if !isName name then fail (name ++ ": bad variable name")
    assign name v
  return if ended then 0 else 1
where
  /-- Whether backslashes mean nothing, and the words behind the options. -/
  letters (plain : Bool) : List Text → Work (Bool × List Text)
    | ['-', '-'] :: rest => return (plain, rest)
    | ['-', 'r'] :: rest => letters true rest
    | ['-', 'p'] :: _ :: rest => letters plain rest
    | ['-', 'r', 'p'] :: _ :: rest => letters true rest
    | ('-' :: 'p' :: _) :: rest => letters plain rest
    | ('-' :: c :: _) :: _ => fail ("Illegal option -" ++ [c])
    | words => return (plain, words)

/-! ## Options -/

/-- The options by their names, in the order in which they are shown, with their letters. -/
def optionNames : List (Text × Char) :=
  [(("errexit" : Text), 'e'), ("noglob", 'f'), ("ignoreeof", 'I'), ("interactive", 'i'), ("monitor", 'm'),
    ("noexec", 'n'), ("stdin", 's'), ("xtrace", 'x'), ("verbose", 'v'), ("vi", 'V'), ("emacs", 'E'),
    ("noclobber", 'C'), ("allexport", 'a'), ("notify", 'b'), ("nounset", 'u'), ("privileged", 'p'),
    ("nolog", 'L'), ("debug", 'D')]

/-- An option goes on or off. -/
def switch (on : Bool) (letter : Char) : Work Unit := modify fun s =>
  let others := s.options.filter (· != letter)
  { s with options := if on then letter :: others else others }

/-- New arguments. -/
def setArguments (words : List Text) : Work Unit :=
  modify fun s => { s with arguments := words, index := 1, offset := 0 }

/-- Options at the start of words, and the words behind them; none if the arguments stay as they are. -/
def switches : List Text → Work (Option (List Text))
  | [] => return none
  | ['-', '-'] :: rest => return some rest
  | ['-'] :: rest => do
    switch false 'x'
    switch false 'v'
    return if rest.isEmpty then none else some rest
  | ['-', 'o'] :: name :: rest => do
    named true name
    switches rest
  | ['+', 'o'] :: name :: rest => do
    named false name
    switches rest
  | (c :: letter :: letters) :: rest => do
    if c == '-' || c == '+' then
      (letter :: letters).forM fun l => do
        if ("efIimnsxvVECabup".toList).contains l then switch (c == '-') l
        else if l == 'o' then print (table (← get) (c == '-')) >>= fun _ => pure ()
        else fail ("Illegal option -" ++ [l])
      switches rest
    else return some ((c :: letter :: letters) :: rest)
  | words => return some words
where
  /-- An option by its name. -/
  named (on : Bool) (name : Text) : Work Unit := do
    match optionNames.lookup name with
    | some letter => switch on letter
    | none => fail ("Illegal option -o " ++ name)
  /-- All options, to be read by people or by shells. -/
  table (s : Shell) (people : Bool) : Text :=
    (if people then ("Current option settings\n" : Text) else []) ++ optionNames.flatMap fun (name, letter) =>
      let on := s.options.contains letter
      if people then Text.padRight 16 name ++ (if on then ("on\n" : Text) else "off\n")
      else (if on then ("set -o " : Text) else "set +o ") ++ name ++ "\n"

/-- Options and arguments of the shell. -/
def setCommand (words : List Text) : Work Nat := do
  if words.isEmpty then print (listing (← get) [] (fun _ => true) false)
  else
    if let some arguments ← switches words then setArguments arguments
    return 0

/-- Arguments go away at the start. -/
def shift (words : List Text) : Work Nat := do
  let n ← match words with
    | [] => pure 1
    | word :: _ => numberOf word
  let s ← get
  if s.arguments.length < n then fail "can't shift that many"
  setArguments (s.arguments.drop n)
  return 0

/-- The next option among words, for a script that looks for its own options. -/
def getopts (words : List Text) : Work Nat := do
  match words with
  | letters :: name :: given =>
    let s ← get
    let arguments := if given.isEmpty then s.arguments else given
    let before := (arguments[s.index - 2]?).getD []
    let rest := if s.index ≤ 1 || s.offset = 0 then [] else before.drop s.offset
    let quiet := letters.head? = some ':'
    -- the option under way, or the next word
    let next? : Option (Text × Nat) :=
      if !rest.isEmpty then some (rest, s.index)
      else match arguments[s.index - 1]? with
        | some ('-' :: c :: more) => some (c :: more, s.index + 1)
        | _ => none
    match next? with
    | none => settle name s.index 0 ['?'] 1
    | some (['-'], index) =>
      if rest.isEmpty then settle name index 0 ['?'] 1 else option letters name quiet arguments '-' [] index
    | some (c :: more, index) => option letters name quiet arguments c more index
    | some ([], index) => settle name index 0 ['?'] 1
  | _ => fail "Usage: getopts optstring var [arg...]"
where
  /-- The state after a round. -/
  settle (name : Text) (index offset : Nat) (value : Text) (status : Nat) : Work Nat := do
    assign "OPTIND" (Text.ofNat index)
    if !isName name then fail (name ++ ": bad variable name")
    assign name value
    modify fun s => { s with index := index, offset := offset }
    return status
  /-- The option with this letter; `more` is what is behind it in its word. -/
  option (letters name : Text) (quiet : Bool) (arguments : List Text) (c : Char) (more : Text) (index : Nat) :
      Work Nat := do
    let offset (index : Nat) : Nat := ((arguments[index - 2]?).getD []).length - more.length
    let forgetArgument : Work Unit := modify (·.forget "OPTARG")
    match (if c == ':' then [] else letters.dropWhile (· != c)) with
    | [] =>
      if quiet then assign "OPTARG" [c]
      else
        let _ ← send 2 ("Illegal option -" ++ [c, '\n'])
        forgetArgument
      settle name index (offset index) ['?'] 0
    | _ :: ':' :: _ =>
      if !more.isEmpty then
        assign "OPTARG" more
        settle name index 0 [c] 0
      else match arguments[index - 1]? with
        | some argument =>
          assign "OPTARG" argument
          settle name (index + 1) 0 [c] 0
        | none =>
          if quiet then
            assign "OPTARG" [c]
            settle name index (offset index) [':'] 0
          else
            let _ ← send 2 ("No arg for -" ++ [c] ++ " option\n")
            forgetArgument
            settle name index (offset index) ['?'] 0
    | _ =>
      assign "OPTARG" []
      settle name index (offset index) [c] 0

/-! ## Loops and ends -/

/-- Loops are left, or go on with the next round. -/
def leave (stop : Nat → Stop) (words : List Text) : Work Nat := do
  let n ← match words with
    | [] => pure 1
    | word :: _ => numberOf word
  if n = 0 then fail ("Illegal number: " ++ words.headD [])
  let loops := min n (← get).loops
  setStatus 0
  if 0 < loops then throw (stop loops)
  return 0

/-- The end of a function or of the shell, with a status if one is given. -/
def endWith (stop : Stop) (words : List Text) : Work Nat := do
  if let word :: _ := words then setStatus (← numberOf word)
  throw stop

/-! ## Signals -/

/-- What is done when signals come. -/
def trap (words : List Text) : Work Nat := do
  let (_, words) ← optionsOf [] words
  match words with
  | [] =>
    let s ← get
    let known := (List.range Signal.count).filterMap fun n => (s.traps.lookup n).map (n, ·)
    print (known.flatMap fun (n, action) => "trap -- " ++ shown action ++ " " ++ Signal.name n ++ "\n")
  | [name] => settle none [name]
  | action :: names => settle (if action = (['-'] : Text) then none else some action) names
where
  /-- An action for signals; none if they are taken as usual. -/
  settle (action : Option Text) : List Text → Work Nat
    | [] => return 0
    | name :: rest => do
      match Signal.read? name with
      | none =>
        let _ ← send 2 ("trap: " ++ name ++ ": bad trap\n")
        return 1
      | some n =>
        modify fun s =>
          let others := s.traps.filter (·.1 != n)
          { s with traps := match action with
              | some t => (n, t) :: others
              | none => others }
        if n != 0 then
          tell (.mind n (match action with
            | none => .default
            | some t => if t.isEmpty then .ignored else .caught))
        settle action rest

/-- How the command is called that sends signals. -/
def killUsage : Text :=
  "Usage: kill [-s sigspec | -signum | -sigspec] [pid | job]... or\nkill -l [exitstatus]"

/-- The job that a word with a percent sign names. -/
def jobOf (word : Text) : Work Job := do
  let s ← get
  let slot? := match word.drop 1 with
    | [] | ['%'] | ['+'] => s.jobs.head?
    | rest => s.jobs.find? fun j => Raw.nat? rest = some j.slot
  match slot? with
  | some job => return job
  | none => fail ("No such job: " ++ word)

/-- Signals are sent to programs. -/
def kill (words : List Text) : Work Nat := do
  match words with
  | [] => fail killUsage
  | ('-' :: name) :: rest =>
    match Signal.read? name with
    | some signal => if rest.isEmpty then fail killUsage else sendAll signal 0 rest
    | none =>
      match name with
      | 's' :: more =>
        let (name, rest) := if more.isEmpty then (rest.headD [], rest.drop 1) else (more, rest)
        match Signal.read? name with
        | none => fail ("invalid signal number or name: " ++ name)
        | some signal => if rest.isEmpty then fail killUsage else sendAll signal 0 rest
      | ['l'] => names rest
      | ['-'] => if rest.isEmpty then fail killUsage else sendAll 15 0 rest
      | c :: _ => fail ("Illegal option -" ++ [c])
      | [] => sendAll 15 0 words
  | _ => sendAll 15 0 words
where
  /-- A signal goes to each of the programs. -/
  sendAll (signal status : Nat) : List Text → Work Nat
    | [] => return status
    | word :: rest => do
      -- a job is no group of programs that a signal could reach
      let numbers ← if word.head? = some '%' then do
          let _ ← jobOf word
          pure []
        else do pure [← numberOf word]
      let mut found := false
      for n in numbers do
        if (← ask (.kill n signal)) matches .done then found := true
      if found then sendAll signal status rest
      else
        complain "No such process\n"
        sendAll signal 1 rest
  /-- The names of signals. -/
  names : List Text → Work Nat
    | [] => print (Raw.ofLines (['0'] :: Signal.names))
    | word :: _ => do
      let n ← numberOf word
      let n := if 128 < n then n - 128 else n
      if 0 < n && n < Signal.count then print (Signal.name n ++ ['\n'])
      else fail ("invalid signal number or exit status: " ++ word)

/-! ## Jobs -/

/-- A program of a job is at its end. -/
def noteEnding (number : Nat) (ending : Ending) : Work Unit := modify fun s =>
  { s with jobs := s.jobs.map fun j =>
      if j.processes.contains number then { j with endings := (number, ending) :: j.endings } else j }

/-- A job that somebody has waited for. -/
def noteWait (slot : Nat) : Work Unit := modify fun s =>
  { s with jobs := s.jobs.map fun j => if j.slot = slot then { j with waited := true } else j }

/-- The end of programs that were started aside; the work stops early, with a status, if a signal comes that is
caught. What killed the last one is said if it is asked for. -/
def waitFor (told : Bool) (job : Job) (status : Nat) : List Nat → Work (Nat × Bool)
  | [] => return (status, false)
  | number :: rest => do
    match job.endings.lookup number with
    | some ending => waitFor told job ending.code rest
    | none =>
      match ← ask (.wait (some number)) with
      | .ended _ ending =>
        noteEnding number ending
        if let .signal signal := ending then
          if told then
            let _ ← send 2 (epitaph signal)
        waitFor told job ending.code rest
      | .interrupted =>
        noteSignals
        return (128 + (← get).caught.getLastD 0, true)
      | _ => waitFor told job 127 rest

/-- Programs that were started aside are waited for. -/
def wait (words : List Text) : Work Nat := do
  let (_, words) ← optionsOf [] words
  if words.isEmpty then everyone (← get).jobs.reverse else each 0 words
where
  /-- All jobs in turn. -/
  everyone : List Job → Work Nat
    | [] => return 0
    | job :: rest => do
      let (status, interrupted) ← waitFor false job 0 job.processes
      if interrupted then return status
      noteWait job.slot
      everyone rest
  /-- The jobs that are named. -/
  each (status : Nat) : List Text → Work Nat
    | [] => return status
    | word :: rest => do
      let job? ← if word.head? = some '%' then some <$> jobOf word else do
        let n ← numberOf word
        pure ((← get).jobs.find? fun j => j.processes.getLast? = some n)
      match job? with
      | none => each 127 rest
      | some job =>
        let (status, interrupted) ← waitFor true job 0 job.processes
        if interrupted then return status
        noteWait job.slot
        each status rest

/-- The ends of all programs that are at their end are noted. -/
def collectAll : (fuel : Nat) → Work Unit
  | 0 => return
  | fuel + 1 => do
    match ← ask .collect with
    | .ended number ending =>
      noteEnding number ending
      collectAll fuel
    | _ => return

/-- A job on a line. -/
def jobLine (letters : Text) (sign : Char) (j : Job) : Text :=
  let state : Text := match j.ending? with
    | none => "Running"
    | some (.status 0) => "Done"
    | some (.status n) => "Done(" ++ Text.ofNat n ++ ")"
    | some (.signal n) => (epitaph n).takeWhile (· != '\n')
  let start := '[' :: Text.ofNat j.slot ++ "] " ++ [sign, ' ']
  let first := Text.ofNat (j.processes.headD 0)
  let others := j.processes.drop 1
  if letters.contains 'p' then first ++ ['\n']
  else if letters.contains 'l' then
    start ++ first ++ [' '] ++ Text.padRight 27 state
      ++ others.flatMap (fun n => (" |\n      " : Text) ++ Text.ofNat n ++ List.replicate 27 ' ') ++ ['\n']
  else start ++ Text.padRight 27 state ++ others.flatMap (fun _ => (" | " : Text)) ++ ['\n']

/-- The jobs that are known. One that is at its end is forgotten once it has been shown. -/
def jobs (words : List Text) : Work Nat := do
  let (letters, words) ← optionsOf "lp" words
  collectAll patience
  let chosen ← if words.isEmpty then pure (← get).jobs else words.mapM jobOf
  print (← shown letters chosen)
where
  /-- Jobs in turn. -/
  shown (letters : Text) : List Job → Work Text
    | [] => return []
    | job :: rest => do
      let s ← get
      let sign := match s.jobs.findIdx? (·.slot == job.slot) with
        | some 0 => '+'
        | some 1 => '-'
        | _ => ' '
      if job.ending?.isSome && !letters.contains 'p' then
        set { s with jobs := s.jobs.filter (·.slot != job.slot) }
      return jobLine letters sign job ++ (← shown letters rest)

/-! ## Nicknames -/

/-- Where a nickname stands in the table of them. -/
def nicknameKey (name : Text) : Nat :=
  ((name.headD '\x00').toNat * 16 + (name.map Char.toNat).foldl (· + ·) 0) % 39

/-- Words that stand for other texts. -/
def nickname (words : List Text) : Work Nat := do
  let shownOne (entry : Text × Text) : Text := entry.1 ++ '=' :: shown entry.2 ++ ['\n']
  if words.isEmpty then
    let s ← get
    let sorted := s.nicknames.reverse.mergeSort fun a b => nicknameKey a.1 ≤ nicknameKey b.1
    print (sorted.flatMap shownOne)
  else
    let mut status := 0
    for word in words do
      let name := word.takeWhile (· != '=')
      if name.length < word.length && !name.isEmpty then
        modify fun s => { s with
          nicknames := (name, word.drop (name.length + 1)) :: s.nicknames.filter (·.1 != name) }
      else
        match (← get).nicknames.lookup word with
        | some t => let _ ← print (shownOne (word, t))
        | none =>
          let _ ← send 2 ("alias: " ++ word ++ " not found\n")
          status := 1
    return status

/-- Words stand for themselves again. -/
def forgetNickname (words : List Text) : Work Nat := do
  let (letters, words) ← optionsOf "a" words
  if letters.contains 'a' then
    modify fun s => { s with nicknames := [] }
    return 0
  else
    let mut status := 0
    for word in words do
      if ((← get).nicknames.lookup word).isNone then
        let _ ← send 2 ("unalias: " ++ word ++ " not found\n")
        status := 1
      modify fun s => { s with nicknames := s.nicknames.filter (·.1 != word) }
    return status

/-! ## Programs -/

/-- What a name calls, in short or in words; none if it calls nothing. -/
def description (launch : Launch) (inWords : Bool) (name : Text) : Work (Option Text) := do
  let s ← get
  let say (words : Text) : Option Text := some (if inWords then name ++ words else name)
  if Reader.keywords.contains name then return say " is a shell keyword"
  match s.nicknames.lookup name with
  | some t =>
    return some (if inWords then name ++ " is an alias for " ++ t else "alias " ++ name ++ '=' :: shown t)
  | none =>
    if (s.functions.lookup name).isSome then return say " is a shell function"
    else if special.contains name then return say " is a special shell builtin"
    else if ordinary.contains name then return say " is a shell builtin"
    else
      let (tree, permitted) ← look
      if name.contains '/' then
        return if (Condition.Ground.entry? ⟨tree, permitted⟩ name).isSome || (launch.systemProgram? name).isSome then
          say (" is " ++ name) else none
      match launch.pathOf tree permitted s.places name with
      | none => return none
      | some path =>
        let known := s.met.contains name
        set { s with met := name :: s.met.filter (· != name) }
        return some (if inWords then
          name ++ (if known then " is a tracked alias for " else " is ") ++ path else path)

/-- What names call, in words. -/
def describe (launch : Launch) (words : List Text) : Work Nat := do
  let mut status := 0
  for word in words do
    match ← description launch true word with
    | some t => let _ ← print (t ++ ['\n'])
    | none =>
      let _ ← print (word ++ ": not found\n")
      status := 127
  return status

/-- Names of programs are looked for, or those that were found are shown. -/
def hash (launch : Launch) (words : List Text) : Work Nat := do
  let (letters, words) ← optionsOf "rv" words
  if letters.contains 'r' then
    modify fun s => { s with met := [] }
    return 0
  else if words.isEmpty then
    let s ← get
    let (tree, permitted) ← look
    print (Raw.ofLines (s.met.reverse.filterMap (launch.pathOf tree permitted s.places)))
  else
    let mut status := 0
    for word in words do
      let s ← get
      let (tree, permitted) ← look
      if isBuiltin word || (s.functions.lookup word).isSome then pure ()
      else if (launch.pathOf tree permitted s.places word).isSome then
        set { s with met := word :: s.met.filter (· != word) }
      else
        complain (word ++ ": not found")
        status := 1
    return status

/-- What names call, with options of the command that passes over functions. -/
def describeFirst (launch : Launch) (inWords : Bool) (words : List Text) : Work Nat := do
  match words with
  | [] => return 0
  | ['-', '-'] :: rest => describeFirst launch inWords rest
  | word :: _ =>
    match ← description launch inWords word with
    | some t => print (t ++ ['\n'])
    | none => if inWords then print (word ++ ": not found\n") 127 else return 127

/-! ## New files -/

/-- The mask as digits. -/
def maskDigits (mask : Nat) : Text :=
  let digits := Nat.toDigits 8 mask
  List.replicate (4 - digits.length) '0' ++ digits

/-- The mask in letters. -/
def maskLetters (mask : Nat) : Text :=
  let part (name : Char) (bits : Nat) : Text :=
    name :: '=' :: [('r', 4), ('w', 2), ('x', 1)].filterMap fun (letter, bit) =>
      if bits / bit % 2 = 0 then some letter else none
  part 'u' (mask / 64 % 8) ++ ',' :: part 'g' (mask / 8 % 8) ++ ',' :: part 'o' (mask % 8)

/-- Who may not do what with new files. -/
def umask (words : List Text) : Work Nat := do
  let (letters, words) ← optionsOf "S" words
  let s ← get
  match words with
  | [] => print ((if letters.contains 'S' then maskLetters s.mask else maskDigits s.mask) ++ ['\n'])
  | word :: _ =>
    if (word.headD 'x').isDigit then
      if word.all Printing.isOctal then
        set { s with mask := Raw.octalOf word % 512 }
        return 0
      else fail ("Illegal number: " ++ word)
    else
      match symbolic s.mask (Raw.fields ',' word) with
      | some mask =>
        set { s with mask := mask }
        return 0
      | none => fail ("Illegal mode: " ++ word)
where
  /-- The mask after changes in letters. -/
  symbolic (mask : Nat) : List Text → Option Nat
    | [] => some mask
    | change :: rest => do
      let who := change.takeWhile (("ugoa".toList).contains ·)
      let who : Text := if who.isEmpty || who.contains 'a' then "ugo" else who
      match change.drop (change.takeWhile (("ugoa".toList).contains ·)).length with
      | sign :: letters =>
        if !("=+-".toList).contains sign || !letters.all (("rwx".toList).contains ·) then none
        else
          let bits := (if letters.contains 'r' then 4 else 0) + (if letters.contains 'w' then 2 else 0)
            + (if letters.contains 'x' then 1 else 0)
          let part (name : Char) (unit : Nat) : Nat :=
            let old := 7 - mask / unit % 8
            let new := if !who.contains name then old
              else if sign == '=' then bits
              else if sign == '+' then old ||| bits
              else old - (old &&& bits)
            (7 - new) * unit
          symbolic (part 'u' 64 + part 'g' 8 + part 'o' 1) rest
      | [] => none

/-! ## All of them -/

/-- What a limit is. -/
def limit (words : List Text) : Work Nat := do
  let (letters, words) ← optionsOf "HSatfdsmcnpvlwre" words
  if !words.isEmpty then return 0
  else if letters.contains 'n' then print "1048576\n"
  else if letters.contains 'c' then print "0\n"
  else print "unlimited\n"

/-- A command of the shell by its name, unless it runs scripts. -/
def plain? (launch : Launch) (name : Text) : Option (List Text → Work Nat) :=
  match String.ofList name with
  | ":" | "true" => some fun _ => pure 0
  | "false" => some fun _ => pure 1
  | "echo" => some fun words => print (Printing.echo words)
  | "printf" => some printf
  | "test" => some test
  | "[" => some bracket
  | "cd" | "chdir" => some cd
  | "pwd" => some pwd
  | "export" => some (declare name (fun h => { h with shared := true }) (·.shared))
  | "readonly" => some (declare name (fun h => { h with fixed := true }) (·.fixed))
  | "local" => some ownNames
  | "unset" => some unset
  | "read" => some read
  | "set" => some setCommand
  | "shift" => some shift
  | "getopts" => some getopts
  | "break" => some (leave .breaks)
  | "continue" => some (leave .continues)
  | "return" => some (endWith .returns)
  | "exit" => some (endWith .exits)
  | "trap" => some trap
  | "kill" => some kill
  | "wait" => some wait
  | "jobs" => some jobs
  | "fg" | "bg" => some fun _ => fail "No current job"
  | "alias" => some nickname
  | "unalias" => some forgetNickname
  | "type" => some (describe launch)
  | "hash" => some (hash launch)
  | "umask" => some umask
  | "ulimit" => some limit
  | "times" => some fun _ => print "0m0.000000s 0m0.000000s\n0m0.000000s 0m0.000000s\n"
  | _ => none

end FlowTypes.Script.Builtin
