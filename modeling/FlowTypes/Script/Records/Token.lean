import FlowTypes.Script.Printing
import FlowTypes.Script.Records

/-!
# Words of records programs

A program is cut into tokens, each of which knows its line. A slash begins a pattern where a value is expected and
divides elsewhere. Line ends count, comments do not. Brackets and braces that close nothing are told apart from the
tokens.
-/

namespace FlowTypes.Script.Records

/-- A token. `called` says that a bracket stands right behind a name. -/
inductive Token where
  | number (x : Binary64) (written : Text)
  | text (t : Text)
  | pattern (source : Text)
  | name (t : Text) (called : Bool)
  | word (t : Text)
  | sign (t : Text)
  | lineEnd
  | finish
  deriving DecidableEq, Repr, Inhabited

/-- How a token is shown in complaints. -/
def Token.shown : Token → Text
  | number _ t | text t | name t _ | word t | sign t => t
  | pattern source => '/' :: source ++ ['/']
  | lineEnd => "end of line"
  | finish => "end of file"

/-- A token and its line. -/
structure Placed where
  token : Token
  line : Nat
  deriving Inhabited

/-- What is wrong with a program, and where. -/
structure Complaint where
  line : Nat
  words : Text
  /-- The line is told by its number alone. -/
  bare : Bool := false

/-- The complaint in words, for a program from a file with a name or from a word of the call. -/
def Complaint.message (file : Option Text) (c : Complaint) : Text :=
  (match file with
    | some name => name ++ ": "
    | none => []) ++
    (if c.bare then [] else ("line " : Text)) ++ Text.ofNat c.line ++ ": " ++ c.words

namespace Token

/-- Words that are no names. -/
def keywords : List String :=
  ["BEGIN", "END", "function", "if", "else", "while", "for", "do", "break", "continue", "return", "next", "nextfile",
    "exit", "delete", "print", "printf", "getline", "in"]

/-- Signs, longer ones first. -/
def signs : List String :=
  ["&&", "||", "++", "--", "+=", "-=", "*=", "/=", "%=", "^=", "==", "<=", ">=", "!=", "!~", ">>", "<", ">", "!", "~",
    "=", "+", "-", "*", "/", "%", "^", "(", ")", "[", "]", "\x7b", "\x7d", ",", ";", "$", "?", ":", "|"]

/-- A token behind which no value is expected. -/
def endsValue : Token → Bool
  | number .. | text _ | pattern _ | name .. => true
  | word t => (Builtin.table.lookup t).isSome
  | sign t => t = (")" : Text) || t = ("]" : Text) || t = ("++" : Text) || t = ("--" : Text)
  | lineEnd | finish => false

/-- A character that names begin with. -/
def beginsName (c : Char) : Bool := c.isAlpha || c == '_'

/-- A text with its escapes replaced. -/
def unescaped : (fuel : Nat) → Text → Text
  | 0, t => t
  | _, [] => []
  | fuel + 1, '\\' :: c :: rest =>
    let simple : List (Char × Char) :=
      [('"', '"'), ('\\', '\\'), ('a', '\x07'), ('b', '\x08'), ('f', '\x0c'), ('n', '\n'), ('r', '\x0d'), ('t', '\t'),
        ('v', '\x0b')]
    match simple.lookup c with
    | some d => d :: unescaped fuel rest
    | none =>
      if c == '\n' then unescaped fuel rest
      else if Printing.isOctal c then
        let digits := ((c :: rest).take 3).takeWhile Printing.isOctal
        Printing.octalByte digits :: unescaped fuel ((c :: rest).drop digits.length)
      else
        let digits := (rest.take 2).takeWhile fun d => (Printing.digit? 16 d).isSome
        if c == 'x' && !digits.isEmpty then
          Char.ofNat (Printing.takeDigits 16 digits).1 :: unescaped fuel (rest.drop digits.length)
        else '\\' :: c :: unescaped fuel rest
  | fuel + 1, c :: rest => c :: unescaped fuel rest

/-- A text up to its closing quote as it is written, and what follows; none if the line ends before. -/
def quoted? : Text → Option (Text × Text)
  | [] | '\n' :: _ => none
  | '"' :: rest => some ([], rest)
  | '\\' :: c :: rest => (quoted? rest).map fun (t, after) => ('\\' :: c :: t, after)
  | c :: rest => (quoted? rest).map fun (t, after) => (c :: t, after)

/-- Where the reading of a pattern is: outside of sets, at the start of a set, inside of one, or inside of the name
of a class. -/
inductive Within where
  | outside
  | setStart
  | set
  | className
  deriving DecidableEq

/-- A pattern up to its closing slash as it is written, and what follows; none if the line ends before. -/
def pattern? : Within → Text → Option (Text × Text)
  | _, [] | _, '\n' :: _ => none
  | .outside, '/' :: rest => some ([], rest)
  | .outside, '\\' :: '/' :: rest => (pattern? .outside rest).map fun (t, after) => ('/' :: t, after)
  | w, '\\' :: c :: rest =>
    (pattern? (if w = .setStart then .set else w) rest).map fun (t, after) => ('\\' :: c :: t, after)
  | .outside, '[' :: '^' :: rest => (pattern? .setStart rest).map fun (t, after) => ('[' :: '^' :: t, after)
  | .outside, '[' :: rest => (pattern? .setStart rest).map fun (t, after) => ('[' :: t, after)
  | .set, ']' :: rest => (pattern? .outside rest).map fun (t, after) => (']' :: t, after)
  | .className, ':' :: ']' :: rest => (pattern? .set rest).map fun (t, after) => (':' :: ']' :: t, after)
  | w, '[' :: ':' :: rest =>
    (pattern? (if w = .outside then w else .className) rest).map fun (t, after) => ('[' :: ':' :: t, after)
  | w, c :: rest => (pattern? (if w = .setStart then .set else w) rest).map fun (t, after) => (c :: t, after)

/-- How many line ends are in a text. -/
def lineEndsIn (t : Text) : Nat := t.countP (· == '\n')

/-- What is read of a program: the tokens, last first, and complaints that do not stop the reading, each with the
number of tokens before it. -/
structure Lexing where
  tokens : List Placed
  passed : List (Nat × Complaint)
  brackets : Nat
  braces : Nat

/-- One token more. -/
def Lexing.put (l : Lexing) (token : Token) (line : Nat) : Lexing :=
  { l with tokens := ⟨token, line⟩ :: l.tokens }

/-- A sign more. Closing ones count. -/
def Lexing.putSign (l : Lexing) (t : Text) (line : Nat) : Lexing :=
  let extra : Lexing :=
    { l with passed := l.passed ++ [(l.tokens.length, ⟨line, "extra '" ++ t ++ "'", false⟩)] }
  match String.ofList t with
  | "(" => { l.put (.sign t) line with brackets := l.brackets + 1 }
  | ")" => if l.brackets = 0 then extra else { l.put (.sign t) line with brackets := l.brackets - 1 }
  | "\x7b" => { l.put (.sign t) line with braces := l.braces + 1 }
  | "\x7d" => if l.braces = 0 then extra else { l.put (.sign t) line with braces := l.braces - 1 }
  | _ => l.put (.sign t) line

/-- The tokens of a text from a line on; a complaint that stops the reading comes last. -/
def lex : (fuel line : Nat) → Lexing → Text → Lexing × Option Complaint
  | 0, line, l, _ => (l.put .finish line, none)
  | _, line, l, [] => (l.put .finish line, none)
  | fuel + 1, line, l, c :: rest =>
    let valueExpected := !l.tokens.head?.any (·.token.endsValue)
    if c == ' ' || c == '\t' || c == '\x0d' then lex fuel line l rest
    else if c == '\n' then
      -- line ends in a row are one
      let again := l.tokens.head?.any (·.token = .lineEnd)
      lex fuel (line + 1) (if again then l else l.put .lineEnd line) rest
    else if c == '#' then lex fuel line l (rest.dropWhile (· != '\n'))
    else if c == '\\' then
      match rest with
      | '\n' :: after => lex fuel (line + 1) l after
      | '\x0d' :: '\n' :: after => lex fuel (line + 1) l after
      | _ => (l, some ⟨line, "unexpected character '\\'", true⟩)
    else if c == '"' then
      match quoted? rest with
      | some (t, after) =>
        lex fuel (line + lineEndsIn t) (l.put (.text (unescaped (t.length + 1) t)) line) after
      | none =>
        (l, some ⟨line, "runaway string constant \"" ++ (rest.takeWhile (· != '\n')).take 10 ++ " ...", false⟩)
    else if c == '/' && valueExpected then
      match pattern? .outside rest with
      | some (t, after) => lex fuel (line + lineEndsIn t) (l.put (.pattern t) line) after
      | none =>
        (l, some ⟨line, "runaway regular expression /" ++ (rest.takeWhile (· != '\n')).take 10 ++ " ...", false⟩)
    else if c.isDigit || (c == '.' && rest.head?.any Char.isDigit) then
      match Printing.readFraction false (c :: rest) with
      | some (x, after) =>
        lex fuel line (l.put (.number x ((c :: rest).take (rest.length + 1 - after.length))) line) after
      | none => lex fuel line l rest
    else if beginsName c then
      let t := (c :: rest).takeWhile fun d => beginsName d || d.isDigit
      let after := (c :: rest).drop t.length
      let token : Token :=
        if keywords.contains (String.ofList t) || (Builtin.table.lookup t).isSome then .word t
        else .name t (after.head? = some '(')
      lex fuel line (l.put token line) after
    else
      match signs.find? fun s => s.toList.isPrefixOf (c :: rest) with
      | some s => lex fuel line (l.putSign s.toList line) ((c :: rest).drop s.length)
      | none => (l, some ⟨line, "unexpected character '" ++ [c] ++ "'", true⟩)

end Token

end FlowTypes.Script.Records
