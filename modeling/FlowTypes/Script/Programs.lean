import FlowTypes.Script.Shell.Start
import FlowTypes.Script.Tool.Columns
import FlowTypes.Script.Tool.Counts
import FlowTypes.Script.Tool.Editor
import FlowTypes.Script.Tool.Ends
import FlowTypes.Script.Tool.Files
import FlowTypes.Script.Tool.Finding
import FlowTypes.Script.Tool.Listing
import FlowTypes.Script.Tool.Records
import FlowTypes.Script.Tool.Running
import FlowTypes.Script.Tool.Search
import FlowTypes.Script.Tool.Sorting
import FlowTypes.Script.Tool.Words

/-!
# The programs of the system

All tools by their names, and the shell under two names. Programs run each other, and a program that runs another
one is given what runs it (`launching`); the fuel bounds how deep that goes.
-/

namespace FlowTypes.Script

/-- The tools by their names. -/
def tools : List (String × Tool) := [
  ("[", Tool.test), ("awk", Tool.records), ("basename", Tool.basename), ("cat", Tool.cat), ("chmod", Tool.chmod), ("comm", Tool.comm),
  ("cp", Tool.cp), ("cut", Tool.cut), ("dirname", Tool.dirname), ("echo", Tool.echo), ("egrep", Tool.egrep),
  ("env", Tool.env), ("expand", Tool.expand), ("expr", Tool.expr), ("false", Tool.noMan),
  ("fgrep", Tool.fgrep), ("find", Tool.find), ("fold", Tool.fold), ("grep", Tool.grep), ("head", Tool.head), ("join", Tool.join),
  ("ln", Tool.ln), ("ls", Tool.ls), ("mawk", Tool.records), ("mkdir", Tool.mkdir), ("mktemp", Tool.mktemp), ("mv", Tool.mv),
  ("nice", Tool.merely "n:" 125), ("nl", Tool.nl), ("nohup", Tool.merely [] 125), ("paste", Tool.paste),
  ("printenv", Tool.printenv), ("printf", Tool.printf), ("pwd", Tool.pwd), ("rev", Tool.rev), ("rm", Tool.rm),
  ("rmdir", Tool.rmdir), ("sed", Tool.sed), ("seq", Tool.seq), ("setsid", Tool.merely "cfw" 1),
  ("sleep", Tool.sleep), ("sort", Tool.sort), ("stdbuf", Tool.merely "i:o:e:" 125), ("tac", Tool.tac),
  ("tail", Tool.tail), ("tee", Tool.tee), ("test", Tool.test), ("timeout", Tool.timeout), ("touch", Tool.touch),
  ("tr", Tool.tr), ("true", Tool.yesMan), ("unexpand", Tool.unexpand), ("uniq", Tool.uniq), ("wc", Tool.wc),
  ("which", Tool.which), ("xargs", Tool.xargs), ("yes", Tool.yes)]

/-- The names of the shell. -/
def shellNames : List Text := ["sh", "dash", "bash"]

/-- There is a program with this name. -/
def isProgram (name : Text) : Bool := shellNames.contains name || tools.any fun t => t.1.toList = name

/-- What finds and runs programs, so deep at most. -/
def launching : (depth : Nat) → Launch
  | 0 => ⟨isProgram, fun _ _ _ => .finish (.status 126)⟩
  | depth + 1 =>
    let launch : Launch := ⟨isProgram, fun name environment words =>
      (launching depth).program name environment words⟩
    ⟨isProgram, fun name environment words =>
      if shellNames.contains name then Shell.program launch environment words
      else
        match tools.find? fun t => t.1.toList = name with
        | some (_, tool) => Errand.program (tool launch environment words)
        | none => .finish (.status 127)⟩

/-- How deep programs run each other at most. -/
def deepest : Nat := Nat.pow 2 40

end FlowTypes.Script
