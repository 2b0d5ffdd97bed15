import FlowTypes.Script.Programs

/-!
# Processes

A program that is started with some words in a directory, and what it leaves when it is at its end or its time is
up: the files, an exit code, and what it printed and complained.

A program that a signal killed has the negated number of the signal for its exit code. A program is not at its end
while another one that it started still may print. If its time is up and nobody prints any more, what was printed
is not read.
-/

namespace FlowTypes.Script

/-- How a program ended. -/
inductive Conclusion where
  | code (n : Int)
  | timedOut
  deriving DecidableEq, Repr

/-- What a program leaves. -/
structure Remains where
  tree : FileTree
  output : List UInt8
  errors : List UInt8
  ending : Conclusion

namespace Remains

/-- The calls of all programs of a run at most. -/
def fuel : Nat := Nat.pow 2 50

/-- The environment of a program. -/
def environment : Environment := [(("PATH" : Text), Launch.standardPath), ("HOME", "/root"), ("LANG", "C.UTF-8")]

/-- The program that a path or a name leads to; or why there is none. -/
def find (tree : FileTree) (name : Text) : Except Refusal Found :=
  (launching deepest).find tree [] Launch.standardPath (Raw.ofText name)

/-- A program that was found is run with some words. -/
def ofRun (tree : FileTree) (deadline : Option Nat) (found : Found) (words : List Text) : Remains :=
  let program := (launching deepest).program found.name environment (found.words ++ words.map Raw.ofText)
  let (s, outcome) := (System.start tree (.call (.pass Errand.startTime) fun _ => program)).run deadline fuel
  let printed (n : Nat) : List UInt8 := Raw.toBytes ((s.screens.lookup n).getD []).reverse
  let tree := { s.tree with workDir := tree.workDir }
  match outcome with
  | .ended (.status n) => ⟨tree, printed 1, printed 2, .code n⟩
  | .ended (.signal n) => ⟨tree, printed 1, printed 2, .code (-(n : Int))⟩
  | .expired true => ⟨tree, printed 1, printed 2, .timedOut⟩
  | .expired false => ⟨tree, [], [], .timedOut⟩

end Remains

end FlowTypes.Script
