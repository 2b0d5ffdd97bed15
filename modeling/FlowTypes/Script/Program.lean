import FlowTypes.FileTree
import FlowTypes.Script.Raw

/-!
# Programs

A program is what it asks of the system, one call after the other, and how it goes on with each reply
(`Program`). It reads and writes numbered channels, opens files, waits for programs that it started, and
ends with a status. Between two calls it computes, and nobody sees that.

`Errand` is the work of a program that gives a value to the work after it.
-/

namespace FlowTypes.Script

/-- How a file is opened. -/
inductive OpenMode where
  | reading
  | writing
  | adding
  | both
  /-- For writing, but only if it is not there. -/
  | creating
  deriving DecidableEq, Repr

/-- How a program takes a signal. -/
inductive Manner where
  | default
  | ignored
  | caught
  deriving DecidableEq, Repr

/-- How a program ended: with a status, or by a signal. -/
inductive Ending where
  | status (n : Nat)
  | signal (n : Nat)
  deriving DecidableEq, Repr

/-- The status that a shell sees. -/
def Ending.code : Ending → Nat
  | status n => n
  | signal n => 128 + n

/-- A step of a tool once its input is read: it prints to a channel, or it runs a program with this input. -/
inductive Step where
  | write (channel : Nat) (bytes : Text)
  | run (words : List Text) (input : Option Text)
  deriving DecidableEq, Repr

/-- What a program asks of the system. -/
inductive Call where
  /-- Time goes by. -/
  | pass (micros : Nat)
  /-- Time goes by for ever. -/
  | hang
  /-- At most so many bytes; none at the end. -/
  | read (channel most : Nat)
  /-- Bytes up to the next line end, and that one too. -/
  | readLine (channel : Nat)
  /-- Bytes that were read too much, which a file takes back. -/
  | giveBack (channel : Nat) (bytes : Text)
  | write (channel : Nat) (bytes : Text)
  | openFile (channel : Nat) (path : Text) (mode : OpenMode)
  /-- A second channel that leads where the first one leads. -/
  | copy (source target : Nat)
  | close (channel : Nat)
  /-- A channel to read from what is written to the other one. -/
  | pipe (reading writing : Nat)
  /-- The channels as they are now are put aside. -/
  | stash
  /-- The channels are again as they were when they were put aside. -/
  | unstash
  /-- The channels that were put aside are not needed any more. -/
  | dropStash
  /-- How many bytes the file has that a channel leads to, if it leads to one. -/
  | size (channel : Nat)
  /-- Files change, and a tool gets its further steps and its status. -/
  | change (work : FileTree → FileTree × List Step × Nat)
  /-- Another working directory. -/
  | enter (loc : Location)
  /-- A file may be run as a program from now on, or not any more. -/
  | permit (loc : Location) (allowed : Bool)
  /-- The end of a program that this one started: of the one with this number, or of any. -/
  | wait (number : Option Nat)
  /-- The end of any program that this one started, if one is at its end. -/
  | collect
  | kill (number signal : Nat)
  | mind (signal : Nat) (manner : Manner)
  /-- The caught signals that have not been looked at. -/
  | signals
  /-- The program is another one from now on: nothing is put aside any more, and what was caught is not. -/
  | replace
  /-- The number of the program. -/
  | number

/-- What the system replies. -/
inductive Reply where
  | done
  | bytes (t : Text)
  | number (n : Nat)
  | numbers (ns : List Nat)
  | refused (cause : Refusal)
  /-- Nobody reads what is written. -/
  | broken
  /-- The channel leads nowhere. -/
  | closed
  | ended (number : Nat) (ending : Ending)
  /-- A caught signal came before what was waited for. -/
  | interrupted
  /-- There is no program to wait for. -/
  | nobody
  | steps (steps : List Step) (status : Nat)

/-- A program. `look` shows it the files and which of them may be run; `fork` starts another program with
the same channels and gives its number. -/
inductive Program where
  | finish (ending : Ending)
  | call (c : Call) (next : Reply → Program)
  | look (next : FileTree → List Location → Program)
  | fork (child : Program) (next : Nat → Program)

instance : Inhabited Program := ⟨.finish (.status 0)⟩

/-! ## Errands -/

/-- The work of a program that gives a value to the work after it. -/
def Errand (α : Type) : Type := (α → Program) → Program

instance : Monad Errand where
  pure a := fun next => next a
  bind errand further := fun next => errand fun a => further a next

namespace Errand

/-- The reply to a call. -/
def ask (c : Call) : Errand Reply := fun next => .call c next

/-- A call whose reply does not matter. -/
def tell (c : Call) : Errand Unit := fun next => .call c fun _ => next ()

/-- The files. -/
def files : Errand FileTree := fun next => .look fun tree _ => next tree

/-- The files that may be run. -/
def permitted : Errand (List Location) := fun next => .look fun _ permitted => next permitted

/-- The end of the program. -/
def finish {α : Type} (status : Nat) : Errand α := fun _ => .finish (.status status)

/-- An errand as a program of its own, whose value is its status. -/
def program (errand : Errand Nat) : Program := errand fun status => .finish (.status status)

/-- Bytes are written to a channel. A program whose output nobody reads is at its end. -/
def write (channel : Nat) (bytes : Text) : Errand Unit := do
  if bytes.isEmpty then return
  match ← ask (.write channel bytes) with
  | .broken => finish 1
  | _ => pure ()

/-- Microseconds that the start of a program takes. -/
def startTime : Nat := 500

/-- The most bytes that are read at once. -/
def portion : Nat := 65536

/-- All that is left to be read from a channel; none if the channel refuses to be read. -/
def readAll (channel : Nat) : (fuel : Nat) → List Text → Errand (Except Refusal Text)
  | 0, chunks => pure (.ok chunks.reverse.flatten)
  | fuel + 1, chunks => do
    match ← ask (.read channel portion) with
    | .bytes [] => pure (.ok chunks.reverse.flatten)
    | .bytes t => readAll channel fuel (t :: chunks)
    | .refused cause => pure (.error cause)
    | _ => pure (.ok chunks.reverse.flatten)

/-- Another program is started, which has a number. -/
def fork (child : Program) : Errand Nat := fun next => .fork child next

/-- The end of another program that this one starts and waits for. -/
def run (child : Program) : Errand Ending := fun next =>
  .fork child fun number => .call (.wait (some number)) fun reply =>
    match reply with
    | .ended _ ending => next ending
    | _ => next (.status 0)

end Errand

end FlowTypes.Script
