import FlowTypes.Script.Shell.Builtin
import FlowTypes.Script.Shell.Expansion

/-!
# Running scripts

A shell runs the commands of its script one after the other (`Run.list`, `Run.one`). A command puts its status
into the state; work that stops early says why.

Commands run apart, the stages of a pipe, and scripts whose output is asked for are programs of their own, which
start with the state of the shell as it is. The last command of such a program needs no further one: with
`final`, the shell goes on as that program.

A command that fails ends the shell if an option says so, unless its status is asked for; that is what `asked`
stands for.

## Termination

Everything that calls itself hands on less fuel than it got. The fuel bounds how deep calls are nested and how
often a loop goes round.
-/

namespace FlowTypes.Script.Run

open Work

/-! ## Parts -/

/-- Microseconds that a command of the shell takes. -/
def stepTime : Nat := 5

/-- Channels for pipes: the ends of a new one, and the one that the next stage reads from. -/
def pipeOut : Nat := 60

/-- The end of a new pipe that is written to. -/
def pipeIn : Nat := 61

/-- What the next stage reads from. -/
def nextInput : Nat := 62

/-- Where the trace of commands goes while channels are redirected. -/
def traceChannel : Nat := 91

/-- How deep functions may be nested. -/
def deepest : Nat := 1000

/-- Out of fuel, nothing happens any more. -/
def stuck {α : Type} : Work α := fun _ _ => .call .hang fun _ => .finish (.status 0)

/-- A failure ends the shell if that is wanted and nobody asks for the status. -/
def settle (asked : Bool) : Work Unit := do
  let s ← get
  if s.status != 0 && !asked && s.options.contains 'e' then throw .exits

/-- All that is left to be read from a channel. -/
def readAll (channel : Nat) : (fuel : Nat) → List Text → Work Text
  | 0, chunks => return chunks.reverse.flatten
  | fuel + 1, chunks => do
    match ← ask (.read channel Errand.portion) with
    | .bytes [] => return chunks.reverse.flatten
    | .bytes t => readAll channel fuel (t :: chunks)
    | _ => return chunks.reverse.flatten

/-- Work for which the channels are redirected, if the system does not refuse that. It is false if it does. -/
def withTargets (targets : List Target) (work : Work Unit) : Work Bool := do
  if targets.isEmpty then
    work
    return true
  else
    tell .stash
    andThen (do
      if ← redirectAll targets then
        work
        return true
      else return false) (tell .unstash)

/-- Names have values while work is done, and programs see them. -/
def withHoldings (before : List (Text × Option Holding)) (work : Work Unit) : Work Unit :=
  if before.isEmpty then work
  else andThen work (modify fun s =>
    before.foldl (fun s (name, h?) =>
      match h? with
      | some h => s.hold name h
      | none => s.forget name) s)

/-- The words of a call and the name that they call; `plain` if functions are passed over. -/
structure Callee where
  words : List Text
  plain : Bool
  /-- The command that passes over functions is asked what a name calls: in words or not. -/
  describes : Option Bool

/-- What some words call once the command that passes over functions is taken away. -/
def calleeOf (functions : List (Text × Command)) : (fuel : Nat) → Bool → List Text → Except Char Callee
  | 0, plain, words => .ok ⟨words, plain, none⟩
  | fuel + 1, plain, words =>
    match words with
    | name :: rest =>
      if name = ("command" : Text) && (plain || (functions.lookup name).isNone) then
        options fuel plain rest
      else .ok ⟨words, plain, none⟩
    | [] => .ok ⟨[], plain, none⟩
where
  options (fuel : Nat) (plain : Bool) : List Text → Except Char Callee
    | ['-', '-'] :: rest => calleeOf functions fuel true rest
    | ('-' :: c :: letters) :: rest =>
      match (c :: letters).find? fun l => !("pvV".toList).contains l with
      | some bad => .error bad
      | none =>
        if (c :: letters).contains 'V' then .ok ⟨rest, true, some true⟩
        else if (c :: letters).contains 'v' then .ok ⟨rest, true, some false⟩
        else options fuel plain rest
    | rest => calleeOf functions fuel true rest

/-- The word that the trace of commands starts with. -/
def traceSign : Work Text := do return ((← get).value? "PS4").getD []

/-! ## Calls -/

/-- A command of the shell, whose name complaints tell. What goes wrong in it ends the shell if it is
special. -/
def builtin (name : Text) (isSpecial : Bool) (work : Work Nat) : Work Unit := do
  tell (.pass stepTime)
  let within := (← get).within
  modify fun s => { s with within := some name }
  let r ← result work
  modify fun s => { s with within := within }
  match r with
  | .ok status => setStatus status
  | .error .fails => if isSpecial then throw .fails
  | .error stop => throw stop

/-- The shell goes on as another program, or stays as it is if there is none to be called. -/
def replaced (launch : Launch) (arguments : List Text) : Work Nat := do
  match arguments with
  | [] => return 0
  | name :: _ =>
    let s ← get
    let (tree, permitted) ← look
    match launch.find tree permitted s.places name with
    | .ok found =>
      become (launch.program found.name s.environment (found.words ++ arguments.drop 1))
    | .error cause =>
      complain (name ++ ": " ++ refusalWords cause "not found")
      setStatus (if refusalWords cause [] = [] then 127 else 126)
      throw .exits

/-- A program is called. -/
def program (launch : Launch) (final : Bool) (words : List Text) : Work Unit := do
  let name := words.headD []
  let s ← get
  let (tree, permitted) ← look
  match launch.find tree permitted s.places name with
  | .error cause =>
    tell (.pass stepTime)
    let cause := if name.isEmpty then Refusal.permissionDenied else cause
    complain (name ++ ": " ++ refusalWords cause "not found")
    setStatus (if name.contains '/' && refusalWords cause [] != [] then 126 else 127)
  | .ok found =>
    if !name.contains '/' then modify fun s => { s with met := name :: s.met.filter (· != name) }
    let called := launch.program found.name s.environment (found.words ++ words.drop 1)
    if final && !s.hasTraps then
      become called
    else
      let number ← start (.call (.pass Errand.startTime) fun _ => called)
      setStatus (← statusOf [number])

/-! ## Loops -/

/-- Work in a loop. -/
def inLoop (work : Work Unit) : Work Unit := do
  let loops := (← get).loops
  modify fun s => { s with loops := loops + 1 }
  andThen work (modify fun s => { s with loops := loops })

/-- A round of a loop; whether there is another one. -/
def stays (round : Work Unit) : Work Bool := do
  match ← result round with
  | .ok () => return true
  | .error (.breaks n) => if n ≤ 1 then return false else throw (.breaks (n - 1))
  | .error (.continues n) => if n ≤ 1 then return true else throw (.continues (n - 1))
  | .error stop => throw stop

/-! ## Commands -/

mutual

/-- The output of a script, without the line ends at its end. -/
def captured (launch : Launch) (fuel : Nat) (script : List Command) : Work Text :=
  match fuel with
  | 0 => stuck
  | fuel + 1 => do
    tell (.pipe pipeOut pipeIn)
    let number ← fork do
      tell (.copy pipeIn 1)
      tell (.close pipeIn)
      tell (.close pipeOut)
      child launch fuel (list launch fuel false true script)
    tell (.close pipeIn)
    let t ← readAll pipeOut patience []
    tell (.close pipeOut)
    let status ← statusOf [number]
    modify fun s => { s with answer := status }
    return ((t.filter (· != '\x00')).reverse.dropWhile (· == '\n')).reverse

/-- The work of a shell that was started by another one, up to its end. -/
def child (launch : Launch) (fuel : Nat) (work : Work Unit) : Work Unit :=
  match fuel with
  | 0 => stuck
  | fuel + 1 => do
    asChild
    toEnd launch fuel work

/-- The work of a shell, and what is to be done at its end. -/
def toEnd (launch : Launch) (fuel : Nat) (work : Work Unit) : Work Unit :=
  match fuel with
  | 0 => stuck
  | fuel + 1 => do
    let _ ← result work
    let s ← get
    match s.traps.lookup 0 with
    | none => pure ()
    | some action =>
      set { s with traps := s.traps.filter (·.1 != 0), loops := 0 }
      let r ← result (text launch fuel false false action)
      match r with
      | .error .exits => pure ()
      | _ => setStatus s.status

/-- What is to be done for the signals that came. -/
def minded (launch : Launch) (fuel : Nat) : Work Unit :=
  match fuel with
  | 0 => stuck
  | fuel + 1 => do
    let s ← get
    if !s.traps.any (fun t => t.1 != 0 && !t.2.isEmpty) then return
    noteSignals
    let s ← get
    match s.caught with
    | [] => pure ()
    | signal :: rest =>
      set { s with caught := rest }
      match s.traps.lookup signal with
      | some action =>
        let _ ← text launch fuel false false action
        setStatus s.status
      | none => pure ()
      minded launch fuel

/-- A script that is given as a text. -/
def text (launch : Launch) (fuel : Nat) (asked final : Bool) (script : Text) : Work Unit :=
  match fuel with
  | 0 => stuck
  | fuel + 1 => do
    let s ← get
    let source := Reader.source script s.documents s.fresh s.nicknames
    andThen (rows launch fuel asked final false false source) (modify fun t => { t with ahead := s.ahead })

/-- The lines of a script, which are shown if an option says so and they come from a file; `ran` says that a
command has been run already. -/
def rows (launch : Launch) (fuel : Nat) (asked final fromFile ran : Bool) (source : Reader.Source) : Work Unit :=
  match fuel with
  | 0 => stuck
  | fuel + 1 => do
    let s ← get
    let source := { source with documents := s.documents, fresh := s.fresh, nicknames := s.nicknames }
    match (Reader.readLine).run source with
    | .error fault =>
      modify fun s => { s with line := fault.line }
      fail ("Syntax error: " ++ fault.message)
    | .ok (commands?, after) =>
      if fromFile && s.options.contains 'v' then
        let _ ← send 2 (source.rest.take (source.rest.length - after.rest.length))
      match commands? with
      | none => if !ran then setStatus 0
      | some commands =>
        set { s with documents := after.documents, fresh := after.fresh, ahead := after.line }
        if !s.options.contains 'n' then
          list launch fuel asked (final && after.rest.isEmpty) commands
        rows launch fuel asked final fromFile (ran || !commands.isEmpty) after

/-- Commands one after the other. -/
def list (launch : Launch) (fuel : Nat) (asked final : Bool) (commands : List Command) : Work Unit :=
  match fuel with
  | 0 => stuck
  | fuel + 1 =>
    match commands with
    | [] => pure ()
    | [c] => one launch fuel asked final c
    | c :: rest => do
      one launch fuel asked false c
      list launch fuel asked final rest

/-- One command, and then what is to be done for signals. -/
def one (launch : Launch) (fuel : Nat) (asked final : Bool) (c : Command) : Work Unit :=
  match fuel with
  | 0 => stuck
  | fuel + 1 => do
    if (← get).options.contains 'n' then return
    command launch fuel asked final c
    minded launch fuel

/-- One command. -/
def command (launch : Launch) (fuel : Nat) (asked final : Bool) (c : Command) : Work Unit :=
  match fuel with
  | 0 => stuck
  | fuel + 1 => do
    match c with
    | .call line assignments words redirects =>
      modify fun s => { s with line := line, answer := 0 }
      call launch fuel asked final assignments words redirects
      settle asked
    | .redirected line body redirects =>
      modify fun s => { s with line := line }
      let targets ← Expansion.targets (captured launch fuel) redirects
      if !(← withTargets targets (one launch fuel asked false body)) then settle asked
    | .pipe stages =>
      let numbers ← staged launch fuel false stages
      setStatus (← statusOf numbers)
      settle asked
    | .inverted body =>
      one launch fuel true false body
      modify fun s => { s with status := if s.status = 0 then 1 else 0 }
    | .both first second =>
      one launch fuel true false first
      if (← get).status = 0 then one launch fuel asked final second
    | .either first second =>
      one launch fuel true false first
      if (← get).status != 0 then one launch fuel asked final second
    | .row body => list launch fuel asked final body
    | .apart body =>
      if final && !(← get).hasTraps then list launch fuel asked true body
      else
        let number ← fork (child launch fuel (list launch fuel asked true body))
        setStatus (← statusOf [number])
        settle asked
    | .branch condition body otherwise =>
      list launch fuel true false condition
      if (← get).status = 0 then list launch fuel asked final body
      else
        setStatus 0
        list launch fuel asked final otherwise
    | .loop wanted condition body =>
      inLoop (loop launch fuel asked wanted condition body 0)
    | .each line name words body =>
      modify fun s => { s with line := line }
      let texts ← match words with
        | some ws => Expansion.fields (captured launch fuel) ws
        | none => do pure (← get).arguments
      setStatus 0
      inLoop (each launch fuel asked name body texts)
    | .choose line subject arms =>
      modify fun s => { s with line := line }
      let t ← Expansion.text (captured launch fuel) subject
      setStatus 0
      choice launch fuel asked final t arms
    | .define name body =>
      modify fun s => { s with functions := (name, body) :: s.functions.filter (·.1 != name) }
      setStatus 0
    | .aside body =>
      let numbers ← match body with
        | .pipe stages => staged launch fuel true stages
        | _ => do
          pure [← fork do
            tell (.openFile 0 "/dev/null" .reading)
            tell (.mind 2 .ignored)
            tell (.mind 3 .ignored)
            child launch fuel (one launch fuel false true body)]
      modify fun s =>
        let (slot, jobs) := s.freeSlot
        { s with aside := numbers.getLast?, jobs := ⟨slot, numbers, [], false⟩ :: jobs }
      setStatus 0

/-- The stages of a pipe are started, each of which reads what the one before prints. Their numbers are
given. -/
def staged (launch : Launch) (fuel : Nat) (apart : Bool) (stages : List Command) : Work (List Nat) :=
  match fuel with
  | 0 => stuck
  | fuel + 1 => stagesFrom launch fuel apart true stages

/-- The further stages of a pipe. The first one reads what the shell reads. -/
def stagesFrom (launch : Launch) (fuel : Nat) (apart first : Bool) (stages : List Command) :
    Work (List Nat) :=
  match fuel with
  | 0 => stuck
  | fuel + 1 =>
    match stages with
    | [] => return []
    | c :: rest => do
      let last := rest.isEmpty
      if !last then tell (.pipe pipeOut pipeIn)
      let number ← fork do
        if !first then
          tell (.copy nextInput 0)
          tell (.close nextInput)
        else if apart then
          tell (.openFile 0 "/dev/null" .reading)
        if apart then
          tell (.mind 2 .ignored)
          tell (.mind 3 .ignored)
        if !last then
          tell (.copy pipeIn 1)
          tell (.close pipeIn)
          tell (.close pipeOut)
        child launch fuel (one launch fuel false true c)
      if !first then tell (.close nextInput)
      if !last then
        tell (.copy pipeOut nextInput)
        tell (.close pipeOut)
        tell (.close pipeIn)
      return number :: (← stagesFrom launch fuel apart false rest)

/-- A loop, after some rounds; `status` is that of the last round. -/
def loop (launch : Launch) (fuel : Nat) (asked wanted : Bool) (condition body : List Command)
    (status : Nat) : Work Unit :=
  match fuel with
  | 0 => stuck
  | fuel + 1 => do
    tell (.pass stepTime)
    let again ← stays do
      list launch fuel true false condition
      if ((← get).status == 0) != wanted then
        setStatus status
        throw (.breaks 1)
      list launch fuel asked false body
    if again then loop launch fuel asked wanted condition body (← get).status

/-- A loop over texts. -/
def each (launch : Launch) (fuel : Nat) (asked : Bool) (name : Text) (body : List Command)
    (texts : List Text) : Work Unit :=
  match fuel with
  | 0 => stuck
  | fuel + 1 =>
    match texts with
    | [] => pure ()
    | t :: rest => do
      assign name t
      tell (.pass stepTime)
      if ← stays (list launch fuel asked false body) then each launch fuel asked name body rest

/-- The first arm with a pattern that the text fits. -/
def choice (launch : Launch) (fuel : Nat) (asked final : Bool) (t : Text)
    (arms : List (List Word × List Command)) : Work Unit :=
  match fuel with
  | 0 => stuck
  | fuel + 1 =>
    match arms with
    | [] => pure ()
    | (patterns, body) :: rest => do
      if ← anyFits launch fuel t patterns then list launch fuel asked final body
      else choice launch fuel asked final t rest

/-- The text fits one of the patterns. -/
def anyFits (launch : Launch) (fuel : Nat) (t : Text) (patterns : List Word) : Work Bool :=
  match fuel with
  | 0 => stuck
  | fuel + 1 =>
    match patterns with
    | [] => return false
    | w :: rest => do
      let f ← Expansion.whole (captured launch fuel) w
      if Field.fits f t then return true else anyFits launch fuel t rest

/-- Assignments in turn; the values are given. -/
def assignAll (launch : Launch) (fuel : Nat) (shared : Bool) (assignments : List (Text × Word)) :
    Work (List (Text × Text)) :=
  match fuel with
  | 0 => stuck
  | fuel + 1 =>
    match assignments with
    | [] => return []
    | (name, w) :: rest => do
      let t ← Expansion.text (captured launch fuel) w true
      assign name t shared
      return (name, t) :: (← assignAll launch fuel shared rest)

/-- A call. Its words are expanded, its channels are redirected, and then the assignments hold for it, or for
good if nothing or a special command is called. -/
def call (launch : Launch) (fuel : Nat) (asked final : Bool) (assignments : List (Text × Word)) (words : List Word)
    (redirects : List Redirect) : Work Unit :=
  match fuel with
  | 0 => stuck
  | fuel + 1 => do
    let run := captured launch fuel
    let assigns := (words.find? fun w => bare? w != some "command").any fun w =>
      (bare? w).any fun name => Builtin.assigning.contains name
    let texts ← if assigns then Expansion.assigningFields run words else Expansion.fields run words
    let functions := (← get).functions
    match calleeOf functions (texts.length + 1) false texts with
    | .error letter =>
      modify fun s => { s with within := some "command" }
      complain ("Illegal option -" ++ [letter])
      modify fun s => { s with within := none }
      setStatus 2
    | .ok callee =>
      let name := callee.words.headD []
      let isSpecial := texts.isEmpty || (!callee.plain && Builtin.special.contains name)
      let targets ← Expansion.targets run redirects
      let traces := (← get).options.contains 'x'
      if traces then tell (.copy 2 traceChannel)
      let trace (values : List (Text × Text)) : Work Unit := do
        if traces then
          let shown := values.map (fun (name, t) => name ++ '=' :: t) ++ texts
          let _ ← send traceChannel ((← traceSign) ++ Text.join [' '] shown ++ ['\n'])
          tell (.close traceChannel)
      let named := name = ("exec" : Text) && callee.describes.isNone
      -- a command that redirects the shell itself
      let stays := named && callee.words.length = 1
      let s ← get
      let before := if isSpecial then [] else
        (assignments.map fun (name, _) => (name, s.holdings.lookup name)).reverse
      let work : Work Unit := do
        let values ← assignAll launch fuel (!isSpecial || (named && 1 < callee.words.length)) assignments
        trace values
        if texts.isEmpty then setStatus (← get).answer
        else dispatch launch fuel asked final callee
      if stays && !targets.isEmpty then
        tell .stash
        if ← redirectAll targets then
          tell .dropStash
          withHoldings before work
        else
          tell .unstash
          if isSpecial then throw .fails
      else if !(← withTargets targets (withHoldings before work)) then
        if traces then tell (.close traceChannel)
        if isSpecial && !texts.isEmpty then throw .fails

/-- What some words call: a function, a command of the shell, or a program. -/
def dispatch (launch : Launch) (fuel : Nat) (asked final : Bool) (callee : Callee) : Work Unit :=
  match fuel with
  | 0 => stuck
  | fuel + 1 => do
    match callee.describes with
    | some inWords => builtin "command" false (Builtin.describeFirst launch inWords callee.words)
    | none =>
      match callee.words with
      | [] => setStatus 0
      | name :: arguments =>
        let s ← get
        let isSpecial := Builtin.special.contains name
        match (if callee.plain || isSpecial then none else s.functions.lookup name) with
        | some body => function launch fuel asked body arguments
        | none =>
          match Builtin.plain? launch name with
          | some work => builtin name (isSpecial && !callee.plain) (work arguments)
          | none =>
            match String.ofList name with
            | "eval" =>
              builtin name (!callee.plain) do
                text launch fuel asked final (Text.join [' '] arguments)
                return (← get).status
            | "." => builtin name (!callee.plain) (sourced launch fuel arguments)
            | "exec" => builtin name (!callee.plain) (replaced launch arguments)
            | _ => program launch final callee.words

/-- A function with arguments of its own. -/
def function (launch : Launch) (fuel : Nat) (asked : Bool) (body : Command) (arguments : List Text) : Work Unit :=
  match fuel with
  | 0 => stuck
  | fuel + 1 => do
    tell (.pass stepTime)
    let s ← get
    if deepest ≤ s.calls then
      fail ("Maximum function recursion depth (" ++ Text.ofNat deepest ++ ") reached")
    set { s with
      arguments := arguments
      loops := 0
      calls := s.calls + 1
      scopes := [] :: s.scopes
      index := 1
      offset := 0 }
    let r ← result (one launch fuel asked false body)
    modify fun t =>
      let own := t.scopes.headD []
      let back := own.foldl (fun (t : Shell) (name, h?) =>
        if name = (['-'] : Text) then { t with options := (h?.bind (·.value)).getD [] }
        else match h? with
          | some h => t.hold name h
          | none => t.forget name) t
      { back with
        arguments := s.arguments
        loops := s.loops
        calls := s.calls
        scopes := s.scopes
        index := s.index
        offset := s.offset }
    match r with
    | .ok () | .error .returns => pure ()
    | .error stop => throw stop

/-- A script of another file, which runs in this shell. -/
def sourced (launch : Launch) (fuel : Nat) (arguments : List Text) : Work Nat :=
  match fuel with
  | 0 => stuck
  | fuel + 1 => do
    match arguments with
    | [] => return 0
    | name :: _ =>
      let s ← get
      let (tree, _) ← look
      let fileAt (path : Text) : Option (List UInt8) :=
        match System.locate tree path with
        | .ok (_, some (.file bytes)) => some bytes
        | _ => none
      let path? : Option Text :=
        if name.contains '/' then some name
        else ((Raw.fields ':' s.places).map fun directory =>
          if directory.isEmpty then name else directory ++ '/' :: name).find? fun path => (fileAt path).isSome
      match path? with
      | none => fail (name ++ ": not found")
      | some path =>
        match fileAt path with
        | none => fail ("cannot open " ++ path ++ ": No such file")
        | some bytes =>
          modify fun s => { s with within := some path }
          let source := Reader.source (Raw.ofBytes bytes) s.documents s.fresh s.nicknames
          let r ← result (rows launch fuel false false true false source)
          modify fun t => { t with ahead := s.ahead }
          match r with
          | .ok () | .error .returns => return (← get).status
          | .error stop => throw stop

end

end FlowTypes.Script.Run
