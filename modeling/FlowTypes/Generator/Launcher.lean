import FlowTypes.Config
import FlowTypes.Generator
import FlowTypes.Script.Process

/-!
# Launchers

A launcher is a generator that is a script: another program runs it, with a limit of time if one is set.
Before anything runs, the words of the call, the directory and the program are looked at, in this order,
and then the limit.

What a script prints is read as text, with unified line ends. A script whose time is up has no exit code of
its own, and what it printed by then is read as well as can be.
-/

namespace FlowTypes.Generator

/-- A generator that is a script, run by another program. -/
structure Launcher where
  script : Path
  /-- The program that runs the script. -/
  node : Text
  /-- Seconds that the script may take; without a limit it may take for ever. -/
  timeout : Option Binary64
  /-- The directory that the program is started in, if it is not the working directory. -/
  workDir : Option Path

namespace Launcher

/-- The words that start the program. -/
def command (l : Launcher) (idl : Path) (options : Options) : List Text :=
  l.node :: l.script.text :: options.arguments idl

/-! ## Before anything runs -/

/-- The files as seen from the directory that the program is started in. -/
def enter (l : Launcher) (tree : FileTree) : Except FileFault FileTree :=
  match l.workDir with
  | none => .ok tree
  | some path =>
    match tree.locate path with
    | .error cause => .error (.refused cause path.text)
    | .ok loc =>
      match tree.get? loc with
      | some .directory => .ok { tree with workDir := loc }
      | some (.file _) => .error (.refused .notDirectory path.text)
      | none => .error (.refused .noSuchEntry path.text)

/-- The program that runs the script. One without a slash in its name is looked for where programs are; a file
among the definitions and declarations is no program. -/
def programOf (l : Launcher) (tree : FileTree) : Except FileFault Script.Found :=
  let refused (cause : Refusal) : Except FileFault Script.Found := .error (.refused cause l.node)
  if l.node.isEmpty then refused .permissionDenied
  else if !l.node.contains '/' && FileTree.nameLimit < (Utf8.encode l.node).length then refused .nameTooLong
  else
    match Script.Remains.find tree l.node with
    | .ok found => .ok found
    | .error cause => refused cause

/-- The most milliseconds that the system can wait at once. -/
def longestWait : Nat := Nat.pow 2 31 - 1

/-- The most milliseconds that the system can count. -/
def longestCount : Nat := 9223372036854

/-- The limit in microseconds. A limit that is no number makes no sense, and one that the system cannot
wait for is out of range. -/
def deadline (l : Launcher) : Except Breakdown (Option Nat) :=
  match l.timeout with
  | none => .ok none
  | some .notANumber => .error (.value "cannot convert float NaN to integer")
  | some (.infinite true) => .ok (some 0)
  | some (.infinite false) => .error (.range "cannot convert float infinity to integer")
  | some limit =>
    if !limit.positive then .ok (some 0)
    else if !limit.lessThan (longestCount + 1) 1000 then
      .error (.range "timestamp too large to convert to C _PyTime_t")
    else if !limit.lessThan (longestWait + 1) 1000 then .error (.range "timeout is too large")
    else .ok (some (limit.floorOf 1000000))

/-! ## Running -/

/-- The result of a program that ran. -/
def resultOf (p : Script.Remains) : Except FileFault Result :=
  match p.ending with
  | .timedOut => .ok ⟨-1, Utf8.decodeLossy p.output, Utf8.decodeLossy p.errors, true⟩
  | .code n => do
    let output ← FileTree.textOf p.output
    let errors ← FileTree.textOf p.errors
    pure ⟨n, output, errors, false⟩

/-- The launcher as a generator. -/
def program (l : Launcher) : Program := fun tree idl options =>
  let words := l.command idl options
  let hasNull (t : Text) : Bool := t.contains '\x00'
  if words.any hasNull || (l.workDir.any fun path => hasNull path.text) then
    (tree, .error (.value FileFault.nullByte.message))
  else
    match l.enter tree with
    | .error fault => (tree, .error (.file fault))
    | .ok entered =>
      match l.programOf entered with
      | .error fault => (tree, .error (.file fault))
      | .ok found =>
        -- a limit is looked at last, when the program has been found
        match l.deadline with
        | .error breakdown => (tree, .error breakdown)
        | .ok deadline =>
          let left := Script.Remains.ofRun entered deadline found (words.drop 1)
          let after := { left.tree with workDir := tree.workDir }
          match resultOf left with
          | .ok result => (after, .ok result)
          | .error fault => (after, .error (.file fault))

/-- The generator that a configuration asks for. Without a program to run its script it breaks down. -/
def ofConfig (config : GenerateConfig) : Program :=
  match config.node with
  | .value node => program ⟨config.generator, node, some config.timeout, none⟩
  | .nothing => fun tree _ _ => (tree, .error (.unset .node))

end Launcher

end FlowTypes.Generator
