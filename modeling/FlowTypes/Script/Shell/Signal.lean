import FlowTypes.Script.Raw

/-!
# Signals by their names

Scripts call signals by their numbers or by their names. Number zero is no signal: it stands for the end of
a shell.
-/

namespace FlowTypes.Script.Signal

/-- The number of signals and one more. -/
def count : Nat := 65

/-- The names of the signals from the first one on; some have none but their number. -/
def names : List Text :=
  let named : List Text :=
    (["HUP", "INT", "QUIT", "ILL", "TRAP", "ABRT", "BUS", "FPE", "KILL", "USR1", "SEGV", "USR2", "PIPE", "ALRM",
      "TERM", "16", "CHLD", "CONT", "STOP", "TSTP", "TTIN", "TTOU", "URG", "XCPU", "XFSZ", "VTALRM", "PROF",
      "WINCH", "IO", "PWR", "SYS", "32", "33", "RTMIN"] : List String).map String.toList
  named ++ (List.range 15).map (fun n => "RTMIN+" ++ Text.ofNat (n + 1))
    ++ (List.range 14).map (fun n => "RTMAX-" ++ Text.ofNat (14 - n)) ++ [("RTMAX" : Text)]

/-- The name of a signal. -/
def name (n : Nat) : Text := if n = 0 then "EXIT" else (names[n - 1]?).getD (Text.ofNat n)

/-- The signal that a word names, whatever its case. -/
def read? (t : Text) : Option Nat :=
  match Raw.nat? t with
  | some n => if n < count then some n else none
  | none =>
    let upper := t.map Char.toUpper
    if upper = ("EXIT" : Text) then some 0 else (names.findIdx? (· == upper)).map (· + 1)

end FlowTypes.Script.Signal
