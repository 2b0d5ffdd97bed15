import FlowTypes.Script.Command

/-!
# Reading scripts

A script is read one line after the other (`Reader.readLine`), and a line is run before the next one is read;
so a fault only stops what comes behind it. A command may go on over more lines, and a document that is given
to a command stands behind the line of its sign.

Words such as `if` have their meaning only where a command may start, and there they end the list of commands
before them. What stands in `$( )` is read as commands right away; what stands between back quotes is cut out
first.

## Termination

The readers call each other; their fuel bounds the depth. A few steps for each character are enough.
-/

namespace FlowTypes.Script.Reader

/-! ## Sources -/

/-- A document that is announced: its number, the line that ends it, whether anything in it is expanded, and
whether tabs at the start of its lines go away. -/
structure Announced where
  number : Nat
  theEnd : Text
  expands : Bool
  dropTabs : Bool

/-- What a script is made of. -/
inductive Token where
  | theEnd
  | lineEnd
  | sign (t : Text)
  | redirect (channel : Option Nat) (t : Text)
  | word (w : Word)
  | keyword (t : Text)
  deriving Inhabited

/-- What is left of a script, the line it is on, and what was read ahead. -/
structure Source where
  rest : Text
  line : Nat
  announced : List Announced
  /-- The documents that have been read, with their numbers. -/
  documents : List (Nat × Word)
  /-- The next number for a document. -/
  fresh : Nat
  held : Option Token
  /-- Words that stand for other texts where a command starts, and those of them that were just used. -/
  nicknames : List (Text × Text)
  used : List Text

/-- A fault and its line. -/
structure Fault where
  line : Nat
  message : Text

/-- Reading that takes something from a source. -/
abbrev Reading := StateT Source (Except Fault)

/-- Reading fails here. -/
def refuse {α : Type} (message : Text) : Reading α := do throw ⟨(← get).line, message⟩

/-- How a token is called. -/
def Token.shown : Token → Text
  | theEnd => "end of file"
  | lineEnd => "newline"
  | redirect _ _ => "redirection"
  | word _ => "word"
  | sign t | keyword t => "\"" ++ t ++ "\""

/-- A token that does not fit here. -/
def unexpected {α : Type} (token : Token) (wanted : Option Token := none) : Reading α :=
  refuse (token.shown ++ " unexpected" ++
    match wanted with
    | some w => " (expecting " ++ w.shown ++ ")"
    | none => [])

/-- Line ends behind a backslash go away. -/
def skipJoins : Reading Unit := modify fun s =>
  let rec skip (line : Nat) : Text → Source
    | '\\' :: '\n' :: rest => skip (line + 1) rest
    | t => { s with rest := t, line := line }
  skip s.line s.rest

/-- The next character, which is not taken. -/
def peek : Reading (Option Char) := do
  skipJoins
  return (← get).rest.head?

/-- The next character is taken, whatever it is. -/
def drop : Reading Unit := modify fun s =>
  { s with rest := s.rest.drop 1, line := if s.rest.head? = some '\n' then s.line + 1 else s.line }

/-- The next character is taken if it is this one. -/
def takes (c : Char) : Reading Bool := do
  if (← peek) = some c then
    drop
    return true
  else return false

/-- The characters that satisfy a condition. -/
def takeWhile (fuel : Nat) (condition : Char → Bool) : Reading Text :=
  match fuel with
  | 0 => pure []
  | fuel + 1 => do
    match ← peek with
    | some c =>
      if condition c then
        drop
        return c :: (← takeWhile fuel condition)
      else return []
    | none => return []

/-- Everything up to the end of the line. -/
def skipLine : Reading Unit := modify fun s => { s with rest := s.rest.dropWhile (· != '\n') }

/-! ## Words -/

/-- What a part of a word stands in: nothing special, double quotes, a document, braces behind a name (in
quotes or not), or a sum. -/
inductive Place where
  | open
  | quotes
  | document
  | braces (quoted : Bool)
  | sum
  deriving DecidableEq

/-- What stands here is quoted. -/
def Place.quoted : Place → Bool
  | .open | braces false => false
  | _ => true

/-- Characters that end a word. -/
def endsWord (c : Char) : Bool := (" \t\n;&|<>()".toList).contains c

/-- A backslash in quotes takes the meaning of this character. -/
def Place.escapes (place : Place) (c : Char) : Bool :=
  c == '$' || c == '`' || c == '\\' || (c == '"' && place != .document) || (c == '}' && place = .braces true)

/-- More characters in front of a word. -/
def prepend (t : Text) (quoted : Bool) : Word → Word
  | .text u q :: rest => if q = quoted then .text (t ++ u) q :: rest else .text t quoted :: .text u q :: rest
  | pieces => .text t quoted :: pieces

/-- One more character in front of a word. -/
def push (c : Char) : Bool → Word → Word := prepend [c]

/-- The first character, and those behind it that mean nothing special here. -/
def takeOrdinary (place : Place) : Text → Text
  | [] => []
  | c :: rest => c :: rest.takeWhile fun d =>
      !("\\'\"$`()\x7b\x7d".toList).contains d && !(place = .open && endsWord d)

/-- A section in double quotes. Unless it holds nothing but all arguments, it is something even if it
expands to nothing. -/
def quotedSection (inner : Word) : Word :=
  match inner with
  | [.value ['@'] .plain _ _ _] => inner
  | _ => .text [] true :: inner

/-- What stands between back quotes, without the backslashes that keep it together. -/
def backQuoted (quoted : Bool) : (fuel : Nat) → Reading Text
  | 0 => refuse "EOF in backquote substitution"
  | fuel + 1 => do
    match ← peek with
    | none => refuse "EOF in backquote substitution"
    | some '`' =>
      drop
      return []
    | some '\\' =>
      drop
      match ← peek with
      | none => refuse "EOF in backquote substitution"
      | some c =>
        drop
        let rest ← backQuoted quoted fuel
        if c == '\\' || c == '`' || c == '$' || (quoted && c == '"') then return c :: rest
        else return '\\' :: c :: rest
    | some c =>
      drop
      return c :: (← backQuoted quoted fuel)

/-- Text up to a single quote. -/
def singleQuoted : Reading Text := do
  let s ← get
  let t := s.rest.takeWhile (· != '\'')
  let after := { s with rest := s.rest.drop (t.length + 1), line := s.line + t.count '\n' }
  set after
  if t.length = s.rest.length then refuse "Unterminated quoted string"
  return t

/-- The operator behind a name in braces, and whether a colon stands before it. -/
def operator : Reading (Operator × Bool) := do
  let colon ← takes ':'
  match ← peek with
  | some '-' =>
    drop
    return (.orElse, colon)
  | some '=' =>
    drop
    return (.assign, colon)
  | some '?' =>
    drop
    return (.demand, colon)
  | some '+' =>
    drop
    return (.instead, colon)
  | some '#' =>
    if colon then return (.bad, true)
    drop
    return (.cutStart (← takes '#'), false)
  | some '%' =>
    if colon then return (.bad, true)
    drop
    return (.cutEnd (← takes '%'), false)
  | some '}' => return (if colon then .bad else .plain, colon)
  | _ => return (.bad, colon)

/-- The name behind an opening brace, and whether its length is asked for. -/
def bracedName (fuel : Nat) : Reading (Text × Bool) := do
  let name : Reading Text := do
    match ← peek with
    | some c =>
      if startsName c then takeWhile fuel continuesName
      else if c.isDigit then takeWhile fuel Char.isDigit
      else return []
    | none => return []
  let n ← name
  if !n.isEmpty then return (n, false)
  match ← peek with
  | some '#' =>
    drop
    let n ← name
    if !n.isEmpty then return (n, true)
    match ← peek with
    | some c =>
      -- one special character right before the closing brace: its length
      let s ← get
      if isSpecialName c && (s.rest.drop 1).head? = some '}' then
        drop
        return ([c], true)
      else return (['#'], false)
    | none => return (['#'], false)
  | some c =>
    if isSpecialName c then
      drop
      return ([c], false)
    else return ([], false)
  | none => return ([], false)

/-! ## Tokens -/

/-- Words with a meaning of their own where a command may start. -/
def keywords : List Text :=
  ["!", "case", "do", "done", "elif", "else", "esac", "fi", "for", "if", "in", "then", "until", "while", "\x7b",
    "\x7d"]

/-- Names that no function can have: those of the commands that belong to the language of scripts. -/
def special : List Text :=
  ["break", "continue", "eval", "exec", "exit", "export", "readonly", "return", "set", "shift", "times", "trap",
    "unset"]

/-- Tokens that end a list of commands. -/
def endsList : Token → Bool
  | .theEnd => true
  | .sign t => t = ([')'] : Text) || t = ([';', ';'] : Text)
  | .keyword t => ([("do" : Text), "done", "elif", "else", "esac", "fi", "then", "\x7d"]).contains t
  | _ => false

/-- A token that was read ahead, to be read again. -/
def hold (token : Token) : Reading Unit := modify fun s => { s with held := some token }

/-- The lines of a document up to its end, and what follows. In one that is expanded, a line behind a
backslash belongs to the line before. -/
def documentLines (d : Announced) (joined : Bool) : (fuel : Nat) → Text → Nat → Text × Text × Nat
  | 0, t, line => ([], t, line)
  | fuel + 1, t, line =>
    if t.isEmpty then ([], [], line)
    else
      let raw := t.takeWhile (· != '\n')
      let ended := raw.length < t.length
      let after := t.drop (raw.length + 1)
      let shown := if d.dropTabs && !joined then raw.dropWhile (· == '\t') else raw
      if !joined && shown = d.theEnd then ([], after, line + 1)
      else
        let slashes := (shown.reverse.takeWhile (· == '\\')).length
        let joins := d.expands && slashes % 2 = 1
        let (more, left, line) := documentLines d joins fuel after (line + 1)
        (shown ++ (if ended then '\n' :: more else more), left, line)

/-! ## Readers -/

mutual

/-- What a dollar sign stands for. -/
def dollar (fuel : Nat) (place : Place) : Reading Piece :=
  match fuel with
  | 0 => refuse "Unterminated quoted string"
  | fuel + 1 => do
    let quoted := place.quoted
    match ← peek with
    | some '(' =>
      drop
      if ← takes '(' then
        let expression ← pieces fuel .sum 0
        return .sum expression quoted
      else
        let s ← get
        set { s with announced := [] }
        let script ← list fuel true
        let token ← next fuel false true
        modify fun after => { after with announced := s.announced ++ after.announced }
        match token with
        | .sign [')'] => return .output script quoted
        | _ => unexpected token (some (.sign [')']))
    | some '\x7b' =>
      drop
      let (name, length) ← bracedName fuel
      let (op, colon) ← if name.isEmpty then pure (.bad, false) else
        if length then
          match ← peek with
          | some '\x7d' => pure (.length, false)
          | _ => pure (.bad, false)
        else operator
      let inner := match op with
        | .cutStart _ | .cutEnd _ => Place.braces false
        | _ => .braces quoted
      let operand ← pieces fuel inner 0
      return .value name op colon operand quoted
    | some c =>
      if startsName c then return .value (← takeWhile fuel continuesName) .plain false [] quoted
      else if isSpecialName c then
        drop
        return .value [c] .plain false [] quoted
      else return .text ['$'] true
    | none => return .text ['$'] true

/-- The pieces of a word or a part of it, up to what ends it there. `depth` counts the brackets that are open
in a sum. -/
def pieces (fuel : Nat) (place : Place) (depth : Nat) : Reading Word :=
  match fuel with
  | 0 => refuse "Unterminated quoted string"
  | fuel + 1 => do
    let s ← get
    match s.rest with
    | [] =>
      match place with
      | .open | .document => return []
      | .sum => refuse "Missing '))'"
      | .braces false => refuse "Missing '\x7d'"
      | _ => refuse "Unterminated quoted string"
    | c :: rest =>
      match c, rest with
      | '\\', '\n' :: _ =>
        drop
        drop
        pieces fuel place depth
      | '\\', [] =>
        drop
        return push '\\' true (← pieces fuel place depth)
      | '\\', d :: _ =>
        drop
        drop
        let more ← pieces fuel place depth
        if !place.quoted || place.escapes d then return push d true more
        else return push '\\' true (push d true more)
      | '\'', _ =>
        if place.quoted then
          drop
          return push c true (← pieces fuel place depth)
        else
          drop
          let t ← singleQuoted
          return .text t true :: (← pieces fuel place depth)
      | '"', _ =>
        match place with
        | .quotes =>
          drop
          return []
        | .document | .sum =>
          drop
          return push c true (← pieces fuel place depth)
        | .open | .braces _ =>
          drop
          let inner ← pieces fuel .quotes 0
          return quotedSection inner ++ (← pieces fuel place depth)
      | '$', _ =>
        drop
        let piece ← dollar fuel place
        return piece :: (← pieces fuel place depth)
      | '`', _ =>
        drop
        let t ← backQuoted place.quoted (rest.length + 1)
        let script ← inside fuel t
        return .output script place.quoted :: (← pieces fuel place depth)
      | '\x7d', _ =>
        drop
        match place with
        | .braces _ => return []
        | _ => return push c place.quoted (← pieces fuel place depth)
      | '(', _ =>
        if place = .open then return []
        drop
        return push c place.quoted (← pieces fuel place (if place = .sum then depth + 1 else depth))
      | ')', _ =>
        match place, depth with
        | .open, _ => return []
        | .sum, 0 =>
          drop
          if ← takes ')' then return []
          return push c true (← pieces fuel place 0)
        | .sum, depth + 1 =>
          drop
          return push c true (← pieces fuel place depth)
        | _, _ =>
          drop
          return push c place.quoted (← pieces fuel place depth)
      | _, _ =>
        if place = .open && endsWord c then return []
        let run := takeOrdinary place s.rest
        modify fun s => { s with rest := s.rest.drop run.length, line := s.line + run.count '\n' }
        return prepend run place.quoted (← pieces fuel place depth)

/-- The commands of a text of its own. -/
def inside (fuel : Nat) (t : Text) : Reading (List Command) :=
  match fuel with
  | 0 => refuse "Unterminated quoted string"
  | fuel + 1 => do
    let s ← get
    set { s with rest := t, line := 1, held := none, announced := [] }
    let script ← list fuel true
    modify fun after => { after with rest := s.rest, line := s.line, held := none, announced := s.announced }
    return script

/-- The documents that are announced, behind the end of a line. -/
def documents (fuel : Nat) : Reading Unit :=
  match fuel with
  | 0 => pure ()
  | fuel + 1 => do
    let s ← get
    match s.announced with
    | [] => pure ()
    | d :: others =>
      let (t, after, line) := documentLines d false (s.rest.length + 1) s.rest s.line
      set { s with announced := others }
      let w ← if d.expands then
          modify fun s => { s with rest := t }
          pieces fuel .document 0
        else pure [.text t true]
      modify fun s =>
        { s with rest := after, line := line, documents := (d.number, w) :: s.documents }
      documents fuel

/-- The next token. Line ends are skipped with `lines`; with `start`, a word may be a keyword or stand for
another text. -/
def next (fuel : Nat) (lines start : Bool) : Reading Token :=
  match fuel with
  | 0 => return .theEnd
  | fuel + 1 => do
    let token ← raw fuel
    match token with
    | .lineEnd =>
      if lines then
        documents fuel
        next fuel lines start
      else return token
    | .word w =>
      if !start then return token
      match bare? w with
      | none => return token
      | some t =>
        if keywords.contains t then return .keyword t
        let s ← get
        match s.nicknames.lookup t with
        | some u =>
          if s.used.contains t then return token
          set { s with rest := u ++ s.rest, used := t :: s.used }
          next fuel lines start
        | none => return token
    | _ => return token

/-- The next token, in which words have no meaning yet. -/
def raw (fuel : Nat) : Reading Token :=
  match fuel with
  | 0 => return .theEnd
  | fuel + 1 => do
    let s ← get
    match s.held with
    | some token =>
      set { s with held := none }
      return token
    | none =>
      match ← peek with
      | none => return .theEnd
      | some c =>
        match c with
        | ' ' | '\t' =>
          drop
          raw fuel
        | '#' =>
          skipLine
          raw fuel
        | '\n' =>
          drop
          return .lineEnd
        | '&' =>
          drop
          return .sign (if ← takes '&' then ['&', '&'] else ['&'])
        | '|' =>
          drop
          return .sign (if ← takes '|' then ['|', '|'] else ['|'])
        | ';' =>
          drop
          return .sign (if ← takes ';' then [';', ';'] else [';'])
        | '(' | ')' =>
          drop
          return .sign [c]
        | '<' | '>' => redirectSign none
        | _ =>
          let w ← pieces fuel .open 0
          match w, (← get).rest with
          | [.text [d] false], e :: _ =>
            -- a digit right before a redirection is its channel
            if d.isDigit && (e == '<' || e == '>') then redirectSign (some (d.toNat - 48))
            else return .word w
          | _, _ => return .word w

/-- The sign of a redirection. -/
def redirectSign (channel : Option Nat) : Reading Token := do
  let first ← peek
  drop
  if first = some '>' then
    if ← takes '>' then return .redirect channel ">>"
    if ← takes '|' then return .redirect channel ">|"
    if ← takes '&' then return .redirect channel ">&"
    return .redirect channel ">"
  else
    if ← takes '<' then return .redirect channel (if ← takes '-' then "<<-" else "<<")
    if ← takes '&' then return .redirect channel "<&"
    if ← takes '>' then return .redirect channel "<>"
    return .redirect channel "<"

/-- The redirection that a sign begins. -/
def redirectOf (fuel : Nat) (channel : Option Nat) (sign : Text) : Reading Redirect :=
  match fuel with
  | 0 => refuse "Unterminated quoted string"
  | fuel + 1 => do
    let token ← next fuel false false
    match token with
    | .word w =>
      let toward (standard : Nat) (direction : Direction) : Redirect :=
        .toWord (channel.getD standard) direction w
      match String.ofList sign with
      | "<<" | "<<-" =>
        let s ← get
        let (theEnd, quoted) := unquoted w
        let d : Announced := ⟨s.fresh, theEnd, !quoted, sign.length == 3⟩
        set { s with announced := s.announced ++ [d], fresh := s.fresh + 1 }
        return .toDocument (channel.getD 0) s.fresh
      | ">" => return toward 1 .output
      | ">>" => return toward 1 .append
      | ">|" => return toward 1 .force
      | ">&" => return toward 1 .duplicate
      | "<&" => return toward 0 .duplicate
      | "<>" => return toward 0 .both
      | _ => return toward 0 .input
    | _ => unexpected token

/-- A list of commands up to what ends it. With `ends`, it may be empty. -/
def list (fuel : Nat) (ends : Bool) : Reading (List Command) :=
  match fuel with
  | 0 => refuse "Unterminated quoted string"
  | fuel + 1 => do
    let token ← next fuel true true
    match token with
    | .theEnd =>
      documents fuel
      hold token
      return []
    | _ =>
      hold token
      if ends && endsList token then return []
      let command ← chain fuel
      let token ← next fuel false false
      match token with
      | .sign ['&'] => return .aside command :: (← list fuel true)
      | .sign [';'] => return command :: (← list fuel true)
      | .lineEnd | .theEnd =>
        hold token
        return command :: (← list fuel true)
      | _ =>
        hold token
        return [command]

/-- Commands that depend on the success of those before. -/
def chain (fuel : Nat) : Reading Command :=
  match fuel with
  | 0 => refuse "Unterminated quoted string"
  | fuel + 1 => do further fuel (← pipeline fuel)

/-- What follows a first command that others depend on. -/
def further (fuel : Nat) (first : Command) : Reading Command :=
  match fuel with
  | 0 => refuse "Unterminated quoted string"
  | fuel + 1 => do
    let token ← next fuel false false
    match token with
    | .sign ['&', '&'] =>
      hold (← next fuel true true)
      further fuel (.both first (← pipeline fuel))
    | .sign ['|', '|'] =>
      hold (← next fuel true true)
      further fuel (.either first (← pipeline fuel))
    | _ =>
      hold token
      return first

/-- Commands each of which reads what the one before prints. -/
def pipeline (fuel : Nat) : Reading Command :=
  match fuel with
  | 0 => refuse "Unterminated quoted string"
  | fuel + 1 => do
    let token ← next fuel false true
    match token with
    | .keyword ['!'] =>
      hold (← next fuel false true)
      return .inverted (← stages fuel)
    | _ =>
      hold token
      stages fuel

/-- The stages of a pipe. -/
def stages (fuel : Nat) : Reading Command :=
  match fuel with
  | 0 => refuse "Unterminated quoted string"
  | fuel + 1 => do
    let command ← single fuel
    let token ← next fuel false false
    match token with
    | .sign ['|'] =>
      hold (← next fuel true true)
      match ← stages fuel with
      | .pipe rest => return .pipe (command :: rest)
      | other => return .pipe [command, other]
    | _ =>
      hold token
      return command

/-- A token that must come now. -/
def expect (fuel : Nat) (wanted : Text) : Reading Unit :=
  match fuel with
  | 0 => refuse "Unterminated quoted string"
  | fuel + 1 => do
    let token ← next fuel false true
    let matching := match token with
      | .keyword t | .sign t => t = wanted
      | _ => false
    if !matching then
      unexpected token (some (if wanted = ([')'] : Text) then .sign wanted else .keyword wanted))

/-- One command with its redirections. -/
def single (fuel : Nat) : Reading Command :=
  match fuel with
  | 0 => refuse "Unterminated quoted string"
  | fuel + 1 => do
    let line := (← get).line
    let token ← next fuel false true
    match token with
    | .word _ | .redirect _ _ =>
      hold token
      simple fuel line [] [] []
    | .sign ['('] =>
      let body ← list fuel false
      expect fuel [')']
      redirected fuel line (.apart body)
    | .keyword t =>
      match String.ofList t with
      | "\x7b" =>
        let body ← list fuel false
        expect fuel ['\x7d']
        redirected fuel line (.row body)
      | "if" =>
        let command ← branch fuel
        expect fuel "fi"
        redirected fuel line command
      | "while" | "until" =>
        let condition ← list fuel false
        expect fuel "do"
        let body ← list fuel false
        expect fuel "done"
        redirected fuel line (.loop (t = ("while" : Text)) condition body)
      | "for" => redirected fuel line (← each fuel line)
      | "case" => redirected fuel line (← choice fuel line)
      | _ => unexpected token
    | _ => unexpected token

/-- The redirections behind a command. -/
def redirected (fuel : Nat) (line : Nat) (command : Command) : Reading Command :=
  match fuel with
  | 0 => refuse "Unterminated quoted string"
  | fuel + 1 => do
    let token ← next fuel false true
    match token with
    | .redirect channel sign =>
      let r ← redirectOf fuel channel sign
      match ← redirected fuel line command with
      | .redirected _ body rs => return .redirected line body (r :: rs)
      | other => return .redirected line other [r]
    | _ =>
      hold token
      return command

/-- A call; its assignments and words so far are given, last first. -/
def simple (fuel : Nat) (line : Nat) (assignments : List (Text × Word)) (words : List Word)
    (redirects : List Redirect) : Reading Command :=
  match fuel with
  | 0 => refuse "Unterminated quoted string"
  | fuel + 1 => do
    let token ← next fuel false false
    match token with
    | .word w =>
      match (if words.isEmpty then assignment? w else none) with
      | some a => simple fuel line (a :: assignments) words redirects
      | none => simple fuel line assignments (w :: words) redirects
    | .redirect channel sign =>
      simple fuel line assignments words ((← redirectOf fuel channel sign) :: redirects)
    | .sign ['('] =>
      match words, assignments, redirects with
      | [w], [], [] =>
        expect fuel [')']
        let name := (bare? w).getD []
        if !isName name || special.contains name then refuse "Bad function name"
        hold (← next fuel true true)
        return .define name (← single fuel)
      | _, _, _ => unexpected token
    | _ =>
      hold token
      return .call line assignments.reverse words.reverse redirects.reverse

/-- A branch behind its first word, up to but without its last one. -/
def branch (fuel : Nat) : Reading Command :=
  match fuel with
  | 0 => refuse "Unterminated quoted string"
  | fuel + 1 => do
    let condition ← list fuel false
    expect fuel "then"
    let body ← list fuel false
    let token ← next fuel false true
    match token with
    | .keyword ['e', 'l', 'i', 'f'] => return .branch condition body [← branch fuel]
    | .keyword ['e', 'l', 's', 'e'] => return .branch condition body (← list fuel false)
    | _ =>
      hold token
      return .branch condition body []

/-- A loop over words behind its first word. -/
def each (fuel : Nat) (line : Nat) : Reading Command :=
  match fuel with
  | 0 => refuse "Unterminated quoted string"
  | fuel + 1 => do
    let token ← next fuel false false
    let name := match token with
      | .word w => (bare? w).getD []
      | _ => []
    if !isName name then refuse "Bad for loop variable"
    let token ← next fuel true true
    let words ← match token with
      | .keyword ['i', 'n'] => some <$> wordsOfLine fuel
      | .sign [';'] => pure none
      | _ =>
        hold token
        pure none
    hold (← next fuel true true)
    expect fuel "do"
    let body ← list fuel false
    expect fuel "done"
    return .each line name words body

/-- Words up to the end of the line. -/
def wordsOfLine (fuel : Nat) : Reading (List Word) :=
  match fuel with
  | 0 => refuse "Unterminated quoted string"
  | fuel + 1 => do
    let token ← next fuel false false
    match token with
    | .word w => return w :: (← wordsOfLine fuel)
    | .lineEnd =>
      documents fuel
      return []
    | .sign [';'] => return []
    | _ => unexpected token

/-- A choice behind its first word. -/
def choice (fuel : Nat) (line : Nat) : Reading Command :=
  match fuel with
  | 0 => refuse "Unterminated quoted string"
  | fuel + 1 => do
    let token ← next fuel false false
    match token with
    | .word subject =>
      hold (← next fuel true true)
      expect fuel "in"
      return .choose line subject (← arms fuel)
    | _ => unexpected token (some (.word []))

/-- The arms of a choice, up to its last word. -/
def arms (fuel : Nat) : Reading (List (List Word × List Command)) :=
  match fuel with
  | 0 => refuse "Unterminated quoted string"
  | fuel + 1 => do
    let token ← next fuel true true
    match token with
    | .keyword ['e', 's', 'a', 'c'] => return []
    | _ =>
      if let .sign ['('] := token then pure () else hold token
      let patterns ← patterns fuel
      let body ← list fuel true
      let token ← next fuel true true
      match token with
      | .keyword ['e', 's', 'a', 'c'] => return [(patterns, body)]
      | .sign [';', ';'] => return (patterns, body) :: (← arms fuel)
      | _ => unexpected token (some (.sign [';', ';']))

/-- The patterns of an arm, up to the bracket that closes them. -/
def patterns (fuel : Nat) : Reading (List Word) :=
  match fuel with
  | 0 => refuse "Unterminated quoted string"
  | fuel + 1 => do
    let first ← next fuel false false
    let w : Word := match first with
      | .word w => w
      | .keyword t => [.text t false]
      | _ => []
    let token ← next fuel false false
    match token with
    | .sign ['|'] => return w :: (← patterns fuel)
    | .sign [')'] => return [w]
    | _ => unexpected token (some (.sign [')']))

end

/-! ## Scripts -/

/-- A script from its start. -/
def source (script : Text) (documents : List (Nat × Word)) (fresh : Nat)
    (nicknames : List (Text × Text)) : Source :=
  ⟨script, 1, [], documents, fresh, none, nicknames, []⟩

/-- The commands of the next line; none at the end of the script. -/
def readLine : Reading (Option (List Command)) := do
  let s ← get
  set { s with used := [] }
  let fuel := 20 * s.rest.length + 100
  let rec more (fuel : Nat) : Reading (List Command) :=
    match fuel with
    | 0 => return []
    | fuel + 1 => do
      let token ← next fuel false true
      match token with
      | .lineEnd | .theEnd =>
        documents fuel
        if let .theEnd := token then hold token
        return []
      | _ =>
        hold token
        let command ← chain fuel
        let token ← next fuel false false
        match token with
        | .sign ['&'] => return .aside command :: (← more fuel)
        | .sign [';'] => return command :: (← more fuel)
        | .lineEnd | .theEnd =>
          hold token
          return command :: (← more fuel)
        | _ => unexpected token
  match ← next fuel false true with
  | .theEnd => return none
  | token =>
    hold token
    some <$> more fuel

end FlowTypes.Script.Reader
