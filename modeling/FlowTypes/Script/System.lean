import FlowTypes.Script.Program

/-!
# The system

Programs that run side by side, each with its own clock: the one whose turn comes first makes its next call
(`System.step`). A program whose call cannot be answered yet waits until another one makes that possible: it
reads from a pipe that is empty, writes to one that is full, or waits for a program that still runs.

What the first program and those it started print on its two screens is collected. The run is over when the
first program is at its end and no other one can print there, or when time is up (`System.run`).

## Termination

Every call takes time, so a run with a deadline ends. The fuel of `System.run` is for those without one.
-/

namespace FlowTypes.Script

/-- Where a channel of a program leads. -/
inductive Handle where
  | file (number : Nat)
  | pipeEnd (number : Nat) (writing : Bool)
  | directory
  | nothing
  | zeros
  | screen (number : Nat)
  deriving DecidableEq, Repr, Inhabited

/-- A file that is open, maybe for several programs: what is left to be read of it as it was when it was
opened, how much has been read or written, and whether writing goes to its end. -/
structure OpenFile where
  loc : Location
  rest : Text
  position : Nat
  atEnd : Bool

/-- A pipe: the chunks that are to be read first, and those behind them, last first. -/
structure Pipe where
  front : Text
  back : List Text
  size : Nat

/-- The chunks of a pipe put together. -/
def Pipe.joined (p : Pipe) : Text := p.front ++ p.back.reverse.flatten

/-- At most so many bytes of a pipe, and what is left of it. -/
def Pipe.take (p : Pipe) (most : Nat) : Text × Pipe :=
  let p : Pipe := if p.front.isEmpty then ⟨p.joined, [], p.size⟩ else p
  let t := p.front.take most
  (t, ⟨p.front.drop most, p.back, p.size - t.length⟩)

/-- A program that runs. -/
structure Process where
  number : Nat
  parent : Nat
  program : Program
  /-- When it goes on. -/
  ready : Nat
  channels : List (Nat × Handle)
  /-- Channels that are put aside. -/
  stash : List (List (Nat × Handle))
  directory : Location
  manners : List (Nat × Manner)
  /-- Caught signals that have not been looked at. -/
  pending : List Nat
  stopped : Bool

/-- Where the channels of a program lead, those that are put aside included. -/
def Process.handles (p : Process) : List Handle := (p.channels ++ p.stash.flatten).map (·.2)

/-- All programs and what they share. -/
structure System where
  tree : FileTree
  /-- The files that may be run as programs. -/
  permitted : List Location
  processes : List Process
  /-- The programs that ended and that nobody has waited for: their number, who started them, and how they
  ended. -/
  ended : List (Nat × Nat × Ending)
  opened : List (Nat × OpenFile)
  pipes : List (Nat × Pipe)
  /-- What was printed on each screen, last first. -/
  screens : List (Nat × Text)
  clock : Nat
  /-- The next number that nobody has. -/
  fresh : Nat

namespace System

/-! ## Parts -/

/-- The entry of a table changed. -/
def alter {α : Type} (table : List (Nat × α)) (key : Nat) (value : α) : List (Nat × α) :=
  (key, value) :: table.filter (·.1 != key)

/-- Some program holds this handle. -/
def holds (s : System) (handle : Handle) : Bool :=
  s.processes.any fun p => p.channels.any (·.2 == handle) || p.stash.any (·.any (·.2 == handle))

/-- Some program can still print on a screen. -/
def screensHeld (s : System) : Bool :=
  s.processes.any fun p => p.handles.any fun h => h matches .screen _

/-- The bytes that a pipe holds before it is full. -/
def pipeSize : Nat := 65536

/-- Open files that no program holds are forgotten, if there are many. -/
def tidy (s : System) : System :=
  if s.opened.length < 64 then s
  else { s with opened := s.opened.filter fun e => s.holds (.file e.1) }

/-- The program with this number as it is now. -/
def update (s : System) (p : Process) : System :=
  { s with processes := s.processes.map fun q => if q.number = p.number then p else q }

/-- The files as a program sees them. -/
def treeOf (s : System) (p : Process) : FileTree := { s.tree with workDir := p.directory }

/-- The files after a program changed them. -/
def withTree (s : System) (tree : FileTree) : System :=
  { s with tree := { tree with workDir := s.tree.workDir } }

/-! ## Reading -/

/-- A line: its characters up to the line end, and what follows. -/
def cutLine : Text → Text × Text
  | [] => ([], [])
  | '\n' :: rest => (['\n'], rest)
  | c :: rest =>
    let (line, after) := cutLine rest
    (c :: line, after)

/-- What is left of an open file. Once all is read that was there at first, what came since then counts. -/
def remaining (s : System) (f : OpenFile) : Text :=
  if !f.rest.isEmpty then f.rest
  else
    match s.tree.get? f.loc with
    | some (.file bytes) => Raw.ofBytes (bytes.drop f.position)
    | _ => []

/-- Bytes read from a handle: a line, or at most so many bytes. -/
def readFrom (s : System) (handle : Handle) (line : Bool) (most : Nat) : System × Reply :=
  match handle with
  | .file n =>
    match s.opened.lookup n with
    | none => (s, .closed)
    | some f =>
      let rest := s.remaining f
      let (t, rest) := if line then cutLine rest else (rest.take most, rest.drop most)
      let f := { f with rest := rest, position := f.position + t.length }
      ({ s with opened := alter s.opened n f }, .bytes t)
  | .pipeEnd n false =>
    match s.pipes.lookup n with
    | none => (s, .bytes [])
    | some p =>
      if line then
        let (t, rest) := cutLine p.joined
        ({ s with pipes := alter s.pipes n ⟨rest, [], p.size - t.length⟩ }, .bytes t)
      else
        let (t, p) := p.take most
        ({ s with pipes := alter s.pipes n p }, .bytes t)
  | .zeros => (s, .bytes (List.replicate most '\x00'))
  | .nothing | .screen _ => (s, .bytes [])
  | .directory => (s, .refused .isDirectory)
  | .pipeEnd _ true => (s, .closed)

/-- Bytes go back to a file. -/
def giveBack (s : System) (handle : Handle) (bytes : Text) : System :=
  match handle with
  | .file n =>
    match s.opened.lookup n with
    | some f =>
      let f := { f with rest := bytes ++ f.rest, position := f.position - bytes.length }
      { s with opened := alter s.opened n f }
    | none => s
  | _ => s

/-! ## Writing -/

/-- Bytes in place of those from a position on; zeros fill what lies before it. -/
def overwritten (old : List UInt8) (position : Nat) (bytes : List UInt8) : List UInt8 :=
  if old.length ≤ position then old ++ List.replicate (position - old.length) 0 ++ bytes
  else old.take position ++ bytes ++ old.drop (position + bytes.length)

/-- Bytes written to a handle. -/
def writeTo (s : System) (handle : Handle) (bytes : Text) : System × Reply :=
  match handle with
  | .file n =>
    match s.opened.lookup n with
    | none => (s, .closed)
    | some f =>
      match s.tree.get? f.loc with
      | some (.file old) =>
        let position := if f.atEnd then old.length else f.position
        let new := overwritten old position (Raw.toBytes bytes)
        ({ s with
          tree := s.tree.put f.loc (.file new)
          opened := alter s.opened n { f with position := position + bytes.length } }, .done)
      | _ => (s, .done)
  | .pipeEnd n true =>
    match s.pipes.lookup n with
    | none => (s, .broken)
    | some p =>
      if s.holds (.pipeEnd n false) then
        ({ s with pipes := alter s.pipes n ⟨p.front, bytes :: p.back, p.size + bytes.length⟩ }, .done)
      else (s, .broken)
  | .screen n => ({ s with screens := s.screens.map fun (m, t) =>
      if m = n then (m, bytes.foldl (fun t c => c :: t) t) else (m, t) }, .done)
  | .nothing | .zeros => (s, .done)
  | .directory | .pipeEnd _ false => (s, .closed)

/-! ## Opening -/

/-- The location of a path and what is there. -/
def locate (tree : FileTree) (path : Text) : Except Refusal (Location × Option Entry) := do
  let t := Raw.toText path
  if t.isEmpty then throw .noSuchEntry
  let loc ← tree.locate (Path.ofText t)
  match tree.get? loc with
  | none => if tree.get? loc.dropLast = some .directory then pure (loc, none) else throw .noSuchEntry
  | some (.file bytes) =>
    if t.getLast? = some '/' then throw .notDirectory else pure (loc, some (.file bytes))
  | some .directory => pure (loc, some .directory)

/-- A path that leads to no file but to something that the system knows. -/
def special? (p : Process) (path : Text) : Option (Option Handle) :=
  match String.ofList path with
  | "/dev/null" => some (some .nothing)
  | "/dev/zero" => some (some .zeros)
  | "/dev/stdin" | "/dev/fd/0" => some (p.channels.lookup 0)
  | "/dev/stdout" | "/dev/fd/1" => some (p.channels.lookup 1)
  | "/dev/stderr" | "/dev/fd/2" => some (p.channels.lookup 2)
  | _ => none

/-- What a path leads to when it is opened in some mode. -/
def opening (s : System) (p : Process) (path : Text) (mode : OpenMode) :
    Except Refusal (System × Handle) := do
  match special? p path with
  | some (some handle) => pure (s, handle)
  | some none => throw .noSuchEntry
  | none =>
    let tree := s.treeOf p
    let (loc, entry) ← locate tree path
    let opened (s : System) (f : OpenFile) : System × Handle :=
      let s := s.tidy
      ({ s with opened := (s.fresh, f) :: s.opened, fresh := s.fresh + 1 }, .file s.fresh)
    let emptied : System := s.withTree (tree.put loc (.file []))
    match entry, mode with
    | some .directory, .reading => pure (s, .directory)
    | some .directory, _ => throw .isDirectory
    | some (.file bytes), .reading | some (.file bytes), .both =>
      pure (opened s ⟨loc, Raw.ofBytes bytes, 0, false⟩)
    | some (.file bytes), .adding => pure (opened s ⟨loc, [], bytes.length, true⟩)
    | some (.file _), .creating => throw .alreadyThere
    | some (.file _), .writing => pure (opened emptied ⟨loc, [], 0, false⟩)
    | none, .reading => throw .noSuchEntry
    | none, .adding =>
      if path.getLast? = some '/' then throw .isDirectory else pure (opened emptied ⟨loc, [], 0, true⟩)
    | none, _ =>
      if path.getLast? = some '/' then throw .isDirectory else pure (opened emptied ⟨loc, [], 0, false⟩)

/-! ## Signals -/

/-- Signals that do nothing if they are neither caught nor ignored. -/
def isHarmless (signal : Nat) : Bool := signal = 0 || signal = 17 || signal = 18 || signal = 23 || signal = 28

/-- Signals that stop a program if they are neither caught nor ignored. -/
def stops (signal : Nat) : Bool := 19 ≤ signal && signal ≤ 22

/-- A program is at its end. -/
def endOf (s : System) (p : Process) (ending : Ending) : System :=
  { s with
    processes := s.processes.filter (·.number != p.number)
    -- what it started belongs to nobody from now on
    ended := (p.number, p.parent, ending) :: s.ended.filter (·.2.1 != p.number) }

/-- A signal reaches a program. -/
def strike (s : System) (p : Process) (signal : Nat) : System :=
  match p.manners.lookup signal with
  | some .ignored => if signal = 9 || signal = 19 then struck else s
  | some .caught => if signal = 9 || signal = 19 then struck else
      s.update { p with pending := p.pending ++ [signal] }
  | _ => struck
where
  struck : System :=
    if signal = 18 then s.update { p with stopped := false, ready := max p.ready s.clock }
    else if isHarmless signal then s
    else if stops signal then s.update { p with stopped := true }
    else s.endOf p (.signal signal)

/-! ## Calls -/

/-- The programs that a call of `wait` can be about have ended. -/
def endedFor (s : System) (p : Process) (number : Option Nat) : Option (Nat × Nat × Ending) :=
  s.ended.reverse.find? fun e => e.2.1 = p.number && (number.isNone || number = some e.1)

/-- A program that a call of `wait` can be about still runs. -/
def runsFor (s : System) (p : Process) (number : Option Nat) : Bool :=
  s.processes.any fun q => q.parent = p.number && (number.isNone || number = some q.number)

/-- The next call of a program can be answered now. -/
def able (s : System) (p : Process) : Bool :=
  !p.stopped &&
  match p.program with
  | .call (.read channel _) _ =>
    match p.channels.lookup channel with
    | some (.pipeEnd n false) =>
      (s.pipes.lookup n).any (fun q => 0 < q.size) || !s.holds (.pipeEnd n true)
    | _ => true
  | .call (.readLine channel) _ =>
    match p.channels.lookup channel with
    | some (.pipeEnd n false) =>
      (s.pipes.lookup n).any (fun q => q.front.contains '\n' || q.back.any (·.contains '\n'))
        || !s.holds (.pipeEnd n true)
    | _ => true
  | .call (.write channel _) _ =>
    match p.channels.lookup channel with
    | some (.pipeEnd n true) =>
      (s.pipes.lookup n).all (fun q => q.size < pipeSize) || !s.holds (.pipeEnd n false)
    | _ => true
  | .call (.wait number) _ =>
    (s.endedFor p number).isSome || !s.runsFor p number || !p.pending.isEmpty
  | .call .hang _ => false
  | _ => true

/-- Microseconds that a call takes. -/
def callTime : Nat := 1

/-- Microseconds until a started program makes its first call. -/
def forkTime : Nat := 200

/-- A program goes on after a call with a reply. -/
def resume (s : System) (p : Process) (next : Reply → Program) (reply : Reply) : System :=
  s.update { p with program := next reply, ready := s.clock + callTime }

/-- A call of a program is answered. -/
def answer (s : System) (p : Process) (c : Call) (next : Reply → Program) : System :=
  match c with
  | .pass micros => s.update { p with program := next .done, ready := s.clock + micros }
  | .hang => s
  | .read channel most =>
    match p.channels.lookup channel with
    | some handle =>
      let (s, reply) := s.readFrom handle false most
      s.resume p next reply
    | none => s.resume p next .closed
  | .readLine channel =>
    match p.channels.lookup channel with
    | some handle =>
      let (s, reply) := s.readFrom handle true 0
      s.resume p next reply
    | none => s.resume p next .closed
  | .giveBack channel bytes =>
    match p.channels.lookup channel with
    | some handle => (s.giveBack handle bytes).resume p next .done
    | none => s.resume p next .closed
  | .write channel bytes =>
    match p.channels.lookup channel with
    | some handle =>
      match s.writeTo handle bytes with
      | (s, .broken) =>
        -- the signal for this kills a program that does not mind it
        if (p.manners.lookup 13).isNone then s.endOf p (.signal 13) else s.resume p next .broken
      | (s, reply) => s.resume p next reply
    | none => s.resume p next .closed
  | .openFile channel path mode =>
    match s.opening p path mode with
    | .ok (s, handle) => s.resume { p with channels := alter p.channels channel handle } next .done
    | .error cause => s.resume p next (.refused cause)
  | .copy source target =>
    match p.channels.lookup source with
    | some handle => s.resume { p with channels := alter p.channels target handle } next .done
    | none => s.resume p next .closed
  | .close channel => s.resume { p with channels := p.channels.filter (·.1 != channel) } next .done
  | .pipe reading writing =>
    let n := s.fresh
    let held := s.pipes.filter fun e => s.holds (.pipeEnd e.1 false) || s.holds (.pipeEnd e.1 true)
    let s := { s with pipes := (n, ⟨[], [], 0⟩) :: held, fresh := n + 1 }
    let channels := alter (alter p.channels reading (.pipeEnd n false)) writing (.pipeEnd n true)
    s.resume { p with channels := channels } next .done
  | .stash => s.resume { p with stash := p.channels :: p.stash } next .done
  | .unstash =>
    match p.stash with
    | [] => s.resume p next .done
    | channels :: rest => s.resume { p with channels := channels, stash := rest } next .done
  | .dropStash => s.resume { p with stash := p.stash.drop 1 } next .done
  | .size channel =>
    match p.channels.lookup channel with
    | some (.file n) =>
      let entry := (s.opened.lookup n).bind fun f => s.tree.get? f.loc
      s.resume p next (match entry with
        | some (.file bytes) => .number bytes.length
        | _ => .done)
    | some _ => s.resume p next .done
    | none => s.resume p next .closed
  | .change work =>
    let (tree, steps, status) := work (s.treeOf p)
    (s.withTree tree).resume p next (.steps steps status)
  | .enter loc => s.resume { p with directory := loc } next .done
  | .permit loc allowed =>
    let others := s.permitted.filter (· != loc)
    let s := { s with permitted := if allowed then loc :: others else others }
    s.resume p next .done
  | .wait number =>
    match s.endedFor p number with
    | some e =>
      let s := { s with ended := s.ended.filter (·.1 != e.1) }
      s.resume p next (.ended e.1 e.2.2)
    | none => s.resume p next (if s.runsFor p number then .interrupted else .nobody)
  | .collect =>
    match s.endedFor p none with
    | some e =>
      let s := { s with ended := s.ended.filter (·.1 != e.1) }
      s.resume p next (.ended e.1 e.2.2)
    | none => s.resume p next .nobody
  | .kill number signal =>
    let s := s.resume p next (if s.processes.any (·.number = number) || s.ended.any (·.1 = number) then
      .done else .nobody)
    match s.processes.find? (·.number = number) with
    | some target => s.strike target signal
    | none => s
  | .mind signal manner =>
    let others := p.manners.filter (·.1 != signal)
    s.resume { p with manners := if manner = .default then others else (signal, manner) :: others }
      next .done
  | .signals => s.resume { p with pending := [] } next (.numbers p.pending)
  | .replace => s.resume { p with stash := [], manners := p.manners.filter (·.2 = .ignored) } next .done
  | .number => s.resume p next (.number p.number)

/-- A program makes its next call. -/
def advance (s : System) (p : Process) : System :=
  match p.program with
  | .finish ending => s.endOf p ending
  | .call c next => s.answer p c next
  | .look next => s.update { p with program := next (s.treeOf p) s.permitted }
  | .fork child next =>
    let number := s.fresh
    let started : Process :=
      { p with
        number := number
        parent := p.number
        program := child
        ready := s.clock + forkTime
        stash := []
        -- what is caught is not caught by the new program
        manners := p.manners.filter (·.2 = .ignored)
        pending := [] }
    let s := s.update { p with program := next number, ready := s.clock + forkTime / 2 }
    { s with processes := s.processes ++ [started], fresh := number + 1 }

/-- The program whose turn it is: of those that can go on, the one that is ready first. -/
def turn? (s : System) : Option Process :=
  s.processes.foldl (fun best p =>
    match best with
    | some b => if p.ready < b.ready && s.able p then some p else best
    | none => if s.able p then some p else none) none

/-- Microseconds from when a call can be answered until the program that waited for that goes on. -/
def wakeTime : Nat := 40

/-- The numbers of the programs whose call cannot be answered now. -/
def blocked (s : System) : List Nat := (s.processes.filter fun p => p.ready ≤ s.clock && !s.able p).map (·.number)

/-- Programs that could not go on before, and now can, do so some time later. -/
def wake (s : System) (numbers : List Nat) : System :=
  if numbers.isEmpty then s
  else
    { s with processes := s.processes.map fun p =>
        if numbers.contains p.number && s.able p then { p with ready := max p.ready (s.clock + wakeTime) } else p }

/-- The next call of all; none if no program can go on. -/
def step (s : System) : Option System :=
  s.turn?.map fun p =>
    let s := { s with clock := max s.clock p.ready }
    (s.advance p).wake s.blocked

/-! ## Runs -/

/-- How a run is over: the first program ended and nobody prints any more; or time is up, and then somebody
could still print or not. -/
inductive Outcome where
  | ended (ending : Ending)
  | expired (printing : Bool)
  deriving DecidableEq, Repr

/-- The number of the first program. -/
def firstNumber : Nat := 4242

/-- A system in which a first program is about to start. -/
def start (tree : FileTree) (program : Program) : System where
  tree := tree
  permitted := []
  processes := [
    { number := firstNumber
      parent := 0
      program := program
      ready := 0
      channels := [(0, .nothing), (1, .screen 1), (2, .screen 2)]
      stash := []
      directory := tree.workDir
      manners := []
      pending := []
      stopped := false }]
  ended := []
  opened := []
  pipes := []
  screens := [(1, []), (2, [])]
  clock := 0
  fresh := firstNumber + 1

/-- How the first program ended, if it did. -/
def firstEnding (s : System) : Option Ending := (s.ended.lookup firstNumber).map (·.2)

/-- The run of a system until it is over or its time is up. -/
def run (deadline : Option Nat) : (fuel : Nat) → System → System × Outcome
  | 0, s => (s, .expired s.screensHeld)
  | fuel + 1, s =>
    let last := if s.screensHeld then none else s.firstEnding
    match last with
    | some ending => (s, .ended ending)
    | none =>
      match s.step with
      | none => (s, .expired s.screensHeld)
      | some next =>
        if deadline.any (· < next.clock) then (s, .expired s.screensHeld) else run deadline fuel next

end System

end FlowTypes.Script
