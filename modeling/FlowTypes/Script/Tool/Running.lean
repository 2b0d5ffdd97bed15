import FlowTypes.Script.Printing.Gap
import FlowTypes.Script.Shell.Signal
import FlowTypes.Script.Tool.Streams

/-!
# Tools that run other programs

Tools that run a program in another environment, for a limited time, or several times with words that they read.
A program that cannot be run leaves the status 127 if it is not there and 126 otherwise.
-/

namespace FlowTypes.Script.Tool

open Errand

/-! ## Becoming another program -/

/-- The status for a program that cannot be run. -/
def statusFor (cause : Refusal) : Nat := if cause = .noSuchEntry then 127 else 126

/-- The program that some words call, in place of this one; `complaint` is told if there is none. -/
def become (launch : Launch) (environment : Environment) (words : List Text) (complaint : Refusal → Text) :
    Errand Nat := fun _ =>
  launch.calling environment words fun cause =>
    Errand.program (do
      complain (complaint cause)
      return statusFor cause)

/-- The words of an environment, each on a line. -/
def environmentLines (environment : Environment) (lineEnd : Char) : Text :=
  environment.flatMap fun (name, value) => name ++ '=' :: value ++ [lineEnd]

/-- An environment with a name that has a value. -/
def withName (environment : Environment) (name value : Text) : Environment :=
  environment.filter (·.1 != name) ++ [(name, value)]

/-- Runs a program in another environment, or prints the environment. -/
def env : Tool := fun launch environment words => do
  let tool := words.headD []
  let known : Known := ⟨"0iu:C:S:v", [("null", '0'), ("ignore-environment", 'i'), ("unset", 'u'), ("chdir", 'C'),
    ("split-string", 'S'), ("debug", 'v')]⟩
  let (given, operands) ← options known 125 words false
  let operands := (argumentsOf given 'S').flatMap (fun t => (Raw.fields ' ' t).filter (!·.isEmpty)) ++ operands
  let (empty, operands) := match operands with
    | ['-'] :: rest => (true, rest)
    | _ => (has given 'i', operands)
  let environment := (argumentsOf given 'u').foldl (fun e name => e.filter (·.1 != name))
    (if empty then [] else environment)
  let (settings, command) := operands.span fun t => t.contains '='
  let environment := settings.foldl (fun e t =>
    let name := t.takeWhile (· != '=')
    withName e name (t.drop (name.length + 1))) environment
  match argument? given 'C' with
  | some path => do
    match System.locate (← files) path with
    | .ok (loc, some .directory) => tell (.enter loc)
    | .ok (_, some _) =>
      complain (tool ++ ": cannot change directory to " ++ quoted path ++ ": Not a directory")
      finish 125
    | _ =>
      complain (tool ++ ": cannot change directory to " ++ quoted path ++ ": No such file or directory")
      finish 125
  | none => pure ()
  if command.isEmpty then
    write 1 (environmentLines environment (if has given '0' then '\x00' else '\n'))
    return 0
  else
    become launch environment command fun cause => tool ++ ": " ++ quoted (command.headD []) ++ ": " ++ cause.words

/-- Prints values of an environment. -/
def printenv : Tool := fun _ environment words => do
  let (given, names) ← options ⟨"0", [("null", '0')]⟩ 2 words false
  let lineEnd := if has given '0' then '\x00' else '\n'
  if names.isEmpty then
    write 1 (environmentLines environment lineEnd)
    return 0
  else
    let found := names.filterMap fun name => environment.lookup name
    write 1 (found.flatMap (· ++ [lineEnd]))
    return if found.length = names.length then 0 else 1

/-- Runs a program as it is, with a tool's own words in front; `letters` are its options. -/
def merely (letters : Text) (status : Nat) : Tool := fun launch environment words => do
  let tool := words.headD []
  let (_, command) ← options ⟨letters, []⟩ status words false
  if command.isEmpty then misused tool status "missing operand"
  become launch environment command fun cause =>
    tool ++ ": failed to run command " ++ quoted (command.headD []) ++ ": " ++ cause.words

/-! ## Time -/

/-- A span of time in microseconds; none if it is written wrong. -/
def timeOf? (t : Text) : Option (Option Nat) :=
  match Printing.readFraction true t with
  | none => none
  | some (x, rest) =>
    let unit : Option Nat := match String.ofList rest with
      | "" | "s" => some 1
      | "m" => some 60
      | "h" => some 3600
      | "d" => some 86400
      | _ => none
    match unit, x with
    | none, _ => none
    | some _, .notANumber | some _, .infinite true => none
    | some _, .infinite false => some none
    | some n, .finite negative _ _ =>
      if negative && x.floorOf 1 != 0 then none
      else if negative then (if x.positive || rest.isEmpty then some (some 0) else none)
      else some (some (x.floorOf (1000000 * n)))

/-- Waits for a while. -/
def sleep : Tool := fun _ _ words => do
  let tool := words.headD []
  let (_, names) ← options ⟨[], []⟩ 1 words false
  if names.isEmpty then misused tool 1 "missing operand"
  for t in names do
    if (timeOf? t).isNone then misused tool 1 ("invalid time interval " ++ quoted t)
  let spans := names.map fun t => (timeOf? t).getD none
  if spans.any Option.isNone then tell .hang
  tell (.pass ((spans.map fun s => s.getD 0).foldl (· + ·) 0))
  return 0

/-- A program that does nothing for a while and then kills another one. -/
def killer (span number signal : Nat) : Program :=
  .call (.pass span) fun _ => .call (.kill number signal) fun _ => .finish (.status 0)

/-- Runs a program for a limited time. -/
def timeout : Tool := fun launch environment words => do
  let tool := words.headD []
  let known : Known := ⟨"s:k:vfp", [("signal", 's'), ("kill-after", 'k'), ("verbose", 'v'), ("foreground", 'f'),
    ("preserve-status", 'p')]⟩
  let (given, operands) ← options known 125 words false
  match operands with
  | [] | [_] =>
    complain ("Try '" ++ tool ++ " --help' for more information.")
    return 125
  | span :: command =>
    let time (t : Text) : Errand (Option Nat) :=
      match timeOf? t with
      | some n => pure n
      | none => misused tool 125 ("invalid time interval " ++ quoted t)
    let span ← time span
    let grace ← match argument? given 'k' with
      | some t => time t
      | none => pure none
    let signal ← match argument? given 's' with
      | none => pure 15
      | some t =>
        match Signal.read? (if ("SIG" : Text).isPrefixOf t then t.drop 3 else t) with
        | some n => pure n
        | none => misused tool 125 (quoted t ++ ": invalid signal")
    let child : Program := launch.calling environment command fun cause =>
      Errand.program (do
        complain (tool ++ ": failed to run command " ++ quoted (command.headD []) ++ ": " ++ cause.words)
        return statusFor cause)
    let limited := span.filter (0 < ·)
    fun next =>
      .fork child fun number =>
        match limited with
        | none => .call (.wait (some number)) fun reply =>
          match reply with
          | .ended _ ending => next ending.code
          | _ => next 0
        | some span =>
          .fork (killer span number signal) fun first =>
            .fork (match grace with
              | some more => killer (span + more) number 9
              | none => .finish (.status 0)) fun second =>
              .call (.wait (some number)) fun reply =>
                let ending := match reply with
                  | .ended _ ending => ending
                  | _ => .status 0
                .call (.kill first 9) fun _ => .call (.wait (some first)) fun reply =>
                  .call (.kill second 9) fun _ => .call (.wait (some second)) fun _ =>
                    let late := match reply with
                      | .ended _ (.status _) => true
                      | _ => false
                    if !late then next ending.code
                    else if signal = 9 then .finish (.signal 9)
                    else
                      match ending with
                      | .signal 9 => .finish (.signal 9)
                      | _ => next (if has given 'p' then ending.code else 124)

/-! ## Many runs -/

/-- The words of a text with quotes; or what is wrong. With `lines`, each line stands by itself. -/
def quotedWords : (fuel : Nat) → (word : Option Text) → Text → Except Text (List Text)
  | 0, _, _ => .ok []
  | _, word, [] => .ok (word.toList.map List.reverse)
  | fuel + 1, word, c :: rest =>
    if c == ' ' || c == '\t' || c == '\n' then
      match word with
      | none => quotedWords fuel none rest
      | some w => (quotedWords fuel none rest).map (w.reverse :: ·)
    else if c == '\\' then
      match rest with
      | d :: after => quotedWords fuel (some (d :: word.getD [])) after
      | [] => .ok (word.toList.map List.reverse)
    else if c == '\'' || c == '"' then
      let part := rest.takeWhile fun d => d != c && d != '\n'
      match rest.drop part.length with
      | d :: after =>
        if d == c then quotedWords fuel (some (part.reverse ++ word.getD [])) after
        else .error (unmatched c)
      | [] => .error (unmatched c)
    else quotedWords fuel (some (c :: word.getD [])) rest
where
  unmatched (c : Char) : Text :=
    ("unmatched " : Text) ++ (if c == '"' then ("double" : Text) else "single")
      ++ " quote; by default quotes are special to xargs unless you use the -0 option"

/-- Lists of at most so many items. -/
def groupsOf {α : Type} (size : Nat) : (fuel : Nat) → List α → List (List α)
  | 0, _ => []
  | _, [] => []
  | fuel + 1, items => items.take (max 1 size) :: groupsOf size fuel (items.drop (max 1 size))

/-- A text with each occurrence of another one replaced. -/
def substituted (old new : Text) : (fuel : Nat) → Text → Text
  | 0, t => t
  | _, [] => []
  | fuel + 1, c :: rest =>
    if !old.isEmpty && old.isPrefixOf (c :: rest) then new ++ substituted old new fuel ((c :: rest).drop old.length)
    else c :: substituted old new fuel rest

/-- Runs a program with words that it reads. -/
def xargs : Tool := fun launch environment words => do
  let tool := words.headD []
  let known : Known := ⟨"0n:L:l::I:i::d:rtP:a:s:E:xpo", [("null", '0'), ("max-args", 'n'), ("max-lines", 'L'),
    ("replace", 'i'), ("delimiter", 'd'), ("no-run-if-empty", 'r'), ("verbose", 't'), ("max-procs", 'P'),
    ("arg-file", 'a'), ("max-chars", 's'), ("exit", 'x')]⟩
  let (given, command) ← options known 1 words false
  let command := if command.isEmpty then [("echo" : Text)] else command
  let t ← match ← contentOf ((argument? given 'a').getD ['-']) with
    | .ok t => pure t
    | .error trouble =>
      complain (tool ++ ": " ++ (argument? given 'a').getD [] ++ ": " ++ trouble.cause.words)
      finish 1
  let number (letter : Char) : Errand (Option Nat) := do
    match argument? given letter with
    | none => return none
    | some t =>
      match Raw.nat? t with
      | some n =>
        if n = 0 && letter != 'P' then
          complain (tool ++ ": value 0 for -" ++ [letter] ++ " option should be >= 1")
          finish 1
        return some n
      | none =>
        complain (tool ++ ": invalid number \"" ++ t ++ "\" for -" ++ [letter] ++ " option")
        finish 1
  let most ← number 'n'
  let lines := (← number 'L').or (if has given 'l' then some 1 else none)
  let mark : Option Text :=
    if has given 'I' then argument? given 'I'
    else if has given 'i' then some ((argument? given 'i').getD "\x7b\x7d")
    else none
  let separator : Option Char :=
    if has given '0' then some '\x00'
    else (argument? given 'd').map fun d =>
      match String.ofList d with
      | "\\n" => '\n'
      | "\\t" => '\t'
      | "\\0" => '\x00'
      | _ => d.headD '\n'
  let read (t : Text) : Errand (List Text) :=
    match quotedWords (t.length + 1) none t with
    | .ok found => pure found
    | .error complaint => do
      complain (tool ++ ": " ++ complaint)
      finish 1
  -- each group is the words of one run
  let groups ← match separator, mark, lines with
    | some c, some _, _ =>
      pure ((cutBehind c t).map fun item => [if item.getLast? = some c then item.dropLast else item])
    | some c, none, _ =>
      let items := (cutBehind c t).map fun item => if item.getLast? = some c then item.dropLast else item
      pure (groupsOf (most.getD 5000) (items.length + 1) items)
    | none, some _, _ =>
      (((Raw.lines t).map Raw.trimStart).filter (!·.isEmpty)).mapM fun line => do
        -- quotes count, blanks do not
        let blank := line.map fun c => if c == ' ' then '\x01' else if c == '\t' then '\x02' else c
        let found ← read blank
        return [(found.headD []).map fun c => if c == '\x01' then ' ' else if c == '\x02' then '\t' else c]
    | none, none, some n => do
      let rows ← ((Raw.lines t).filter fun line => !(Raw.trimStart line).isEmpty).mapM read
      pure ((groupsOf n (rows.length + 1) rows).map List.flatten)
    | none, none, none => do
      let items ← read t
      pure (groupsOf (most.getD 5000) (items.length + 1) items)
  let groups := if groups.isEmpty && !has given 'r' && mark.isNone then [[]] else groups
  each launch environment tool command mark (has given 't') 0 groups
where
  /-- Runs in turn. -/
  each (launch : Launch) (environment : Environment) (tool : Text) (command : List Text) (mark : Option Text)
      (told : Bool) (status : Nat) : List (List Text) → Errand Nat
    | [] => return status
    | group :: rest => do
      let called := match mark with
        | some m => command.map fun word => substituted m (group.headD []) (word.length + 1) word
        | none => command ++ group
      if told then complain (Text.join [' '] called)
      let missing (cause : Refusal) : Program := Errand.program (do
        complain (tool ++ ": " ++ called.headD [] ++ ": " ++ cause.words)
        return statusFor cause)
      let child : Program := .call (.openFile 0 "/dev/null" .reading) fun _ =>
        launch.calling environment called missing
      match ← Errand.run child with
      | .status 255 =>
        complain (tool ++ ": " ++ called.headD [] ++ ": exited with status 255; aborting")
        return 124
      | .status 127 => return 127
      | .status 126 => return 126
      | .status 0 => each launch environment tool command mark told status rest
      | .status _ => each launch environment tool command mark told 123 rest
      | .signal n =>
        complain (tool ++ ": " ++ called.headD [] ++ ": terminated by signal " ++ Text.ofNat n)
        return 125

/-! ## Places -/

/-- Prints the working directory. -/
def pwd : Tool := fun _ _ _ => do
  write 1 (Raw.ofText ('/' :: Text.join ['/'] (← files).workDir) ++ ['\n'])
  return 0

/-- Prints the paths that names of programs lead to. -/
def which : Tool := fun launch environment words => fun next =>
  .look fun tree permitted =>
    let names := (words.drop 1).filter (·.head? != some '-')
    let paths := names.map fun name => launch.pathOf tree permitted (Launch.placesOf environment) name
    (do
      write 1 (Raw.ofLines (paths.filterMap id))
      return if paths.all Option.isSome && !names.isEmpty then 0 else 1 : Errand Nat) next

end FlowTypes.Script.Tool
