import FlowTypes.Arguments
import FlowTypes.Decimal.Numeral
import FlowTypes.Text.Quoted

/-!
# Reading the command line

Every word of a command line is looked at on its own first (`kindOf`). It names an option, with or without
a value of its own; it looks like an option that there is not; or it is plain. The first part of a long
name stands for it if it begins no other, and a word that begins several is refused at once. Negative
numbers, words with a blank and the lone hyphen are plain, and so is everything behind a double hyphen.

Then the words are taken from left to right (`take`). An option without a value of its own takes the plain
word behind it; later values replace earlier ones. A value that is a double hyphen counts as none. Whatever
is not taken is refused at the end, with all the rest of its kind. Asking for help ends the reading where it
stands.
-/

namespace FlowTypes.Arguments

open Text.Class

/-! ## Options -/

/-- What can be asked for by name. -/
inductive Switch where
  | help
  | idl
  | outputDir
  | generator
  | node
  | timeout
  | maxOutput
  | strictAnchors
  | listRules
  | filter
  deriving DecidableEq, Repr

namespace Switch

/-- All of them, in the order in which they are listed. -/
def all : List Switch :=
  [help, idl, outputDir, generator, node, timeout, maxOutput, strictAnchors, listRules, filter]

/-- The name of an option. -/
def text : Switch → Text
  | help => "--help"
  | idl => "--idl"
  | outputDir => "--output-dir"
  | generator => "--generator"
  | node => "--node"
  | timeout => "--timeout"
  | maxOutput => "--max-stdout"
  | strictAnchors => "--strict-anchors"
  | listRules => "--list-rules"
  | filter => "--filter"

/-- How a message calls an option; help has a short name too. -/
def shown : Switch → Text
  | help => "-h/--help"
  | other => other.text

/-- The option needs a value. -/
def takesValue : Switch → Bool
  | help | strictAnchors | listRules => false
  | _ => true

end Switch

/-! ## Faults -/

/-- What can be wrong with a command line. -/
inductive UsageFault where
  | ambiguous (word : Text) (candidates : List Switch)
  | valueIgnored (option : Switch) (value : Text)
  | valueMissing (option : Switch)
  | noFraction (option : Switch) (value : Text)
  | noInteger (option : Switch) (value : Text)
  | unrecognized (words : List Text)
  deriving DecidableEq, Repr

/-- The fault in words. -/
def UsageFault.message : UsageFault → Text
  | ambiguous word candidates =>
    "ambiguous option: " ++ word ++ " could match " ++ Text.join ", " (candidates.map (·.text))
  | valueIgnored option value =>
    "argument " ++ option.shown ++ ": ignored explicit argument " ++ Text.quoted value
  | valueMissing option => "argument " ++ option.shown ++ ": expected one argument"
  | noFraction option value =>
    "argument " ++ option.shown ++ ": invalid float value: " ++ Text.quoted value
  | noInteger option value =>
    "argument " ++ option.shown ++ ": invalid int value: " ++ Text.quoted value
  | unrecognized words => "unrecognized arguments: " ++ Text.join " " words

/-- Why reading ends without arguments: help is wanted, or something is wrong. -/
inductive Ending where
  | help
  | usage (fault : UsageFault)
  deriving DecidableEq, Repr

/-! ## Words -/

/-- What a word looks like. -/
inductive Kind where
  | plain
  | named (option : Switch) (value : Option Text)
  | helpWith (rest : Text)
  | unknown
  | separator
  deriving DecidableEq, Repr

/-- A word cut at its first equals sign. -/
def cutAtEquals : Text → Text × Option Text
  | [] => ([], none)
  | '=' :: rest => ([], some rest)
  | c :: rest =>
    let (name, value) := cutAtEquals rest
    (c :: name, value)

/-- A hyphen and digits, with a point or without; a line end may follow. -/
def isNegativeNumber : Text → Bool
  | '-' :: rest =>
    let body := match rest.getLast? with
      | some '\n' => rest.dropLast
      | _ => rest
    match body.dropWhile isDigit with
    | [] => !body.isEmpty
    | '.' :: part => !part.isEmpty && part.all isDigit
    | _ => false
  | _ => false

/-- The kind of a word that starts with a hyphen and has more behind it, and is no full name. -/
def kindOfOther (word : Text) : Except UsageFault Kind :=
  let (name, value) := cutAtEquals word
  match Switch.all.find? (·.text = name), name with
  | some option, _ => .ok (.named option value)
  | none, ['-', 'h'] => .ok (.helpWith (value.getD []))
  | none, '-' :: '-' :: _ =>
    -- a part of a long name stands for it, as long as no other name starts with it
    match Switch.all.filter (fun s => name.isPrefixOf s.text) with
    | [] => .ok (if word.contains ' ' then .plain else .unknown)
    | [option] => .ok (.named option value)
    | candidates => .error (.ambiguous word candidates)
  | none, _ =>
    match word with
    -- the short name with something right behind it
    | '-' :: 'h' :: rest => .ok (.helpWith rest)
    | _ => .ok (if isNegativeNumber word || word.contains ' ' then .plain else .unknown)

/-- The kind of a word. -/
def kindOf (word : Text) : Except UsageFault Kind :=
  match word with
  | ['-', 'h'] => .ok (.named .help none)
  | '-' :: _ :: _ => kindOfOther word
  | _ => .ok .plain

/-- The words with their kinds; behind a double hyphen all are plain. -/
def kindsOf : List Text → Except UsageFault (List (Text × Kind))
  | [] => .ok []
  | word :: rest =>
    if word = ['-', '-'] then .ok ((word, .separator) :: rest.map fun w => (w, .plain))
    else do
      let kind ← kindOf word
      let others ← kindsOf rest
      pure ((word, kind) :: others)

/-! ## Taking words -/

/-- The arguments with nothing for an option that needs a value. -/
def withNothing (a : Arguments) (option : Switch) : Arguments :=
  match option with
  | .idl => { a with idl := .nothing }
  | .outputDir => { a with outputDir := .nothing }
  | .generator => { a with generator := .nothing }
  | .node => { a with node := .nothing }
  | .timeout => { a with timeout := .nothing }
  | .maxOutput => { a with maxOutput := .nothing }
  | .filter => { a with filter := some .nothing }
  | .help | .strictAnchors | .listRules => a

/-- The arguments with the value of an option that needs one. -/
def withValue (a : Arguments) (option : Switch) (value : Text) : Except UsageFault Arguments :=
  if value = ['-', '-'] then .ok (a.withNothing option)
  else
    match option with
    | .idl => .ok { a with idl := .value (.ofText value) }
    | .outputDir => .ok { a with outputDir := .value (.ofText value) }
    | .generator => .ok { a with generator := .value (.ofText value) }
    | .node => .ok { a with node := .value value }
    | .timeout =>
      match Numeral.read? value with
      | some fraction => .ok { a with timeout := .value (.ofFraction fraction) }
      | none => .error (.noFraction option value)
    | .maxOutput =>
      match Numeral.readInt? value with
      | some n => .ok { a with maxOutput := .value n }
      | none => .error (.noInteger option value)
    | .filter => .ok { a with filter := some (.value value) }
    | .help | .strictAnchors | .listRules => .ok a

/-- What an option does that needs no value. -/
def withFlag (a : Arguments) (option : Switch) : Except Ending Arguments :=
  match option with
  | .help => .error .help
  | .strictAnchors => .ok { a with strictAnchors := true }
  | .listRules => .ok { a with listRules := true }
  | _ => .error (.usage (.valueMissing option))

/-- What follows from letters right behind the short name of help. Each of them must be help again; the
rest from the first other one on is taken for a value, and help has none. -/
def afterHelp : Text → Ending
  | ['h'] => .help
  | 'h' :: rest => afterHelp rest
  | letters => .usage (.valueIgnored .help letters)

/-- The words taken from left to right; `left` holds those that nothing took, last first. -/
def take (a : Arguments) (left : List Text) : List (Text × Kind) → Except Ending Arguments
  | [] => if left.isEmpty then .ok a else .error (.usage (.unrecognized left.reverse))
  | (word, .plain) :: rest => take a (word :: left) rest
  | (word, .separator) :: rest => take a (word :: left) rest
  | (word, .unknown) :: rest => take a (word :: left) rest
  | (_, .helpWith letters) :: _ => .error (afterHelp letters)
  | (_, .named option (some value)) :: rest =>
    if option.takesValue then
      match a.withValue option value with
      | .ok a => take a left rest
      | .error fault => .error (.usage fault)
    else .error (.usage (.valueIgnored option value))
  | (_, .named option none) :: rest =>
    if option.takesValue then
      match rest with
      | (value, .plain) :: rest =>
        match a.withValue option value with
        | .ok a => take a left rest
        | .error fault => .error (.usage fault)
      | _ => .error (.usage (.valueMissing option))
    else
      match a.withFlag option with
      | .ok a => take a left rest
      | .error ending => .error ending

/-- What a command line asks for, on top of the defaults. -/
def read (defaults : Arguments) (words : List Text) : Except Ending Arguments :=
  match kindsOf words with
  | .error fault => .error (.usage fault)
  | .ok kinds => take defaults [] kinds

/-! ## Help -/

/-- The program as help calls it. -/
def programName : Text := "gen_types.py"

/-- How the program is called. -/
def usage : Text :=
  "usage: " ++ programName ++ " [-h] [--idl IDL] [--output-dir OUTPUT_DIR]\n"
    ++ "                    [--generator GENERATOR] [--node NODE] [--timeout TIMEOUT]\n"
    ++ "                    [--max-stdout MAX_STDOUT] [--strict-anchors]\n"
    ++ "                    [--list-rules] [--filter FILTER]\n"

/-- The help. -/
def help : Text :=
  usage ++ "\nGenerate libGDevelop Flow types from Bindings.idl\n\noptions:\n"
    ++ "  -h, --help            show this help message and exit\n"
    ++ "  --idl IDL\n  --output-dir OUTPUT_DIR\n  --generator GENERATOR\n  --node NODE\n"
    ++ "  --timeout TIMEOUT\n  --max-stdout MAX_STDOUT\n  --strict-anchors\n  --list-rules\n"
    ++ "  --filter FILTER\n"

/-- A fault as it is shown to who typed the command line. -/
def UsageFault.shown (f : UsageFault) : Text :=
  usage ++ programName ++ ": error: " ++ f.message ++ "\n"

/-- Without words the defaults stand. -/
theorem read_nil (defaults : Arguments) : read defaults [] = .ok defaults := rfl

end FlowTypes.Arguments
