import FlowTypes.Text.Class
import FlowTypes.Text.Class.Casing

/-!
# Lower case

Every code point goes to its lower case by itself, with two exceptions. The dotted capital I becomes a
small i and a combining dot, so a lower-cased text can be longer. The capital sigma becomes the final
form at the end of a word: a cased letter comes before it and none after it, where marks and quotes in
between are passed over. So the lower case of a part need not be a part of the lower case of the whole.
-/

namespace FlowTypes.Text

open FlowTypes.Text.Class

/-- The nearest code point that is not passed over is a cased letter. -/
def meetsCased : Text → Bool
  | [] => false
  | c :: rest =>
    if member caseIgnorableFlips c.toNat then meetsCased rest else member casedFlips c.toNat

/-- The lower case of a code point away from the exceptions. -/
def lowerChar (c : Char) : Char :=
  let n := c.toNat
  if n < 128 then if 65 ≤ n && n ≤ 90 then Char.ofNat (n + 32) else c
  else
    match lowerRuns.find? (fun run => run.first ≤ n && n ≤ run.last) with
    | some run => if (n - run.first) % run.step == 0 then Char.ofNat (n + run.shift).toNat else c
    | none => c

/-- Lower case of the rest of a text, given what came before it, nearest first. -/
def lowerFrom (before : Text) : Text → Text
  | [] => []
  | c :: rest =>
    let lowered : Text :=
      if c.toNat == 0x130 then [Char.ofNat 0x69, Char.ofNat 0x307]
      else if c.toNat == 0x3a3 then
        if meetsCased before && !meetsCased rest then [Char.ofNat 0x3c2] else [Char.ofNat 0x3c3]
      else [lowerChar c]
    lowered ++ lowerFrom (c :: before) rest

/-- The lower case of a text. -/
def lower (t : Text) : Text := lowerFrom [] t

end FlowTypes.Text
