import FlowTypes.Script.Matching.Reader
import FlowTypes.Script.Printing

/-!
# Patterns of records programs

Records programs write patterns in the extended way, in which a byte may also be told by its octal number. Every
byte is a symbol of its own. What is to be repeated, and every alternative, must be there.
-/

namespace FlowTypes.Script.Records

/-- The way in which records programs write patterns. -/
def patternDialect : Matching.Dialect :=
  { extended := true, lenient := true, controls := true, braces := false, references := false, escapesInSets := true }

/-- Octal numbers behind a backslash become what they stand for. -/
def withoutOctals : (fuel : Nat) → Text → Text
  | 0, t => t
  | _, [] => []
  | fuel + 1, '\\' :: c :: rest =>
    if Printing.isOctal c then
      let digits := ((c :: rest).take 3).takeWhile Printing.isOctal
      let d := Printing.octalByte digits
      let after := withoutOctals fuel ((c :: rest).drop digits.length)
      if d.isAlphanum || 128 ≤ d.toNat then d :: after else '\\' :: d :: after
    else '\\' :: c :: withoutOctals fuel rest
  | fuel + 1, c :: rest => c :: withoutOctals fuel rest

/-- What is wrong with a pattern, in words. -/
def faultOf : Matching.Fault → Text
  | .openGroup => "missing ')'"
  | .strayClosing => "missing '('"
  | .nothingRepeated | .reference | .trailingBackslash => "missing operand"
  | .tooBig | .openBrace | .braceContent => "resource exhaustion -- regular expression too large"
  | .openSet | .loneBracket | .className | .classAlone | .rangeEnd | .collation =>
    "bad class -- [], [^] or ["

/-- What is wrong with tokens side by side, if something is. `open_` says that something has to follow. -/
def sideBySide (open_ : Bool) : List Matching.Token → Option Text
  | [] => if open_ then some "missing operand" else none
  | .bar :: rest => if open_ then some "missing operand" else sideBySide true rest
  | .closing :: rest => if open_ then some "missing operand" else sideBySide false rest
  | .opening :: rest => sideBySide true rest
  | .repeated .. :: rest => if open_ then some "missing operand" else sideBySide false rest
  | .atom (.place .lineStart) :: .repeated .. :: _ => some "syntax error ^* or ^+"
  | .atom _ :: rest => sideBySide false rest

/-- A pattern that is ready to be looked for, or what is wrong with it. -/
def compile (source : Text) : Except Text Matching.Pattern :=
  let t := withoutOctals (source.length + 1) source
  let backslashes := t.reverse.takeWhile (· == '\\')
  let symbols := Matching.bytesOf (if backslashes.length % 2 = 1 then t ++ ['\\'] else t)
  match Matching.tokens patternDialect true (symbols.length + 1) symbols with
  | .error fault => .error (faultOf fault)
  | .ok tokens =>
    match Matching.assemble patternDialect tokens, if tokens.isEmpty then none else sideBySide true tokens with
    | .error fault, _ => .error (faultOf fault)
    | .ok _, some words => .error words
    | .ok (shape, groups, _), none => .ok (.ofShape shape groups false)

end FlowTypes.Script.Records
