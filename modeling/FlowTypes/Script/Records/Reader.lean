import FlowTypes.Script.Records.Pattern
import FlowTypes.Script.Records.Token

/-!
# Reading records programs

The tokens of a program are put together from the loosest operators to the tightest: choices, "or", "and",
membership, fits, comparisons, joined texts, sums, products, signs, lines of programs, powers, steps, and single
values. An assignment stands where a joined text may stand, if that begins with a place.

Behind `print`, outside of brackets, a "more than" sign or a bar begins the sink (`printing`).

## Termination

Every function has fuel, one unit for each step down and for each operator of a row. A token leads down by less than
thirty steps, so the fuel is computed from the number of tokens.
-/

namespace FlowTypes.Script.Records

/-- What is wrong at the tokens that are left: a complaint, or that the first of them makes no sense there. -/
structure Failure where
  left : List Placed
  complaint : Option Text

/-- Where the reading is. -/
structure Reading where
  tokens : List Placed
  /-- The functions that are defined somewhere in the program. -/
  functions : List Text
  /-- The calls of functions, each with the number of its arguments and its line. -/
  calls : List (Text × Nat × Nat)
  loops : Nat
  inFunction : Bool
  /-- The action of a rule that goes with records is read. -/
  inRecord : Bool

/-- What reads tokens. -/
abbrev Reads := StateT Reading (Except Failure)

namespace Reads

/-! ## Tokens -/

/-- The next token. -/
def peek : Reads Token := do
  match (← get).tokens with
  | p :: _ => return p.token
  | [] => return .finish

/-- The line of the next token. -/
def line : Reads Nat := do return ((← get).tokens.head?.map (·.line)).getD 0

/-- The token behind the next one. -/
def second : Reads Token := do return ((((← get).tokens.drop 1).head?).map (·.token)).getD .finish

/-- The next token is read. -/
def advance : Reads Unit := modify fun r => { r with tokens := r.tokens.drop 1 }

/-- The next token makes no sense. -/
def misfit {α : Type} : Reads α := do throw ⟨(← get).tokens, none⟩

/-- Something is wrong. -/
def fail {α : Type} (complaint : Text) : Reads α := do throw ⟨(← get).tokens, some complaint⟩

/-- The next token is this sign. -/
def isSign (t : String) : Reads Bool := do return (← peek) = .sign t.toList

/-- The next token is this word. -/
def isWord (t : String) : Reads Bool := do return (← peek) = .word t.toList

/-- This sign is read if it is next. -/
def trySign (t : String) : Reads Bool := do
  if ← isSign t then
    advance
    return true
  else return false

/-- This sign has to be next. -/
def needSign (t : String) : Reads Unit := do
  unless ← trySign t do misfit

/-- A line end is read if it is next. -/
def skipLineEnds : Reads Unit := do
  if (← peek) = .lineEnd then advance

/-- A row of operators of one rank, from the left. -/
def row (operators : List (String × (Expr → Expr → Expr))) (lineEnds : Bool) (operand : Reads Expr) :
    (fuel : Nat) → Expr → Reads Expr
  | 0, _ => misfit
  | fuel + 1, a => do
    match ← peek with
    | .sign t =>
      match operators.lookup (String.ofList t) with
      | some make =>
        advance
        if lineEnds then skipLineEnds
        row operators lineEnds operand fuel (make a (← operand))
      | none => return a
    | _ => return a

/-- The signs of comparisons. -/
def comparisons (printing : Bool) : List (String × (Expr → Expr → Expr)) :=
  [("<", .compare .less), ("<=", .compare .atMost), ("==", .compare .equal), ("!=", .compare .different),
    (">=", .compare .atLeast)] ++ (if printing then [] else [(">", .compare .more)])

/-- The signs of assignments. -/
def assignments : List (String × Option Operation) :=
  [("=", none), ("+=", some .plus), ("-=", some .minus), ("*=", some .times), ("/=", some .over),
    ("%=", some .remainder), ("^=", some .power)]

/-- A token that a value can begin with, behind another value. -/
def beginsValue : Token → Bool
  | .number .. | .text _ | .pattern _ | .name .. => true
  | .word t => t = ("getline" : Text) || (Builtin.table.lookup t).isSome
  | .sign t => ["$", "!", "(", "++", "--"].contains (String.ofList t)
  | .lineEnd | .finish => false

/-- A token that can stand behind a statement. -/
def endsStatement : Token → Bool
  | .sign t => t = (";" : Text) || t = ("\x7d" : Text)
  | .lineEnd | .finish => true
  | _ => false

/-- A token that begins a sink. -/
def sink? : Token → Option Sink
  | .sign t =>
    match String.ofList t with
    | ">" => some .file
    | ">>" => some .addition
    | "|" => some .input
    | _ => none
  | _ => none

/-! ## Expressions -/

/-- A pattern that is written between slashes or as a text. -/
def patternOf (source : Text) : Reads Matching.Pattern := do
  match compile source with
  | .ok p => return p
  | .error words => fail ("regular expression compile failed (" ++ words ++ ")\n" ++ source)

/-- A text that stands for a pattern is made ready at once. -/
def asPattern (e : Expr) : Reads Expr := do
  match e with
  | .text t => return .pattern (← patternOf t)
  | e => return e

/-- The arguments of a function that every program has, patterns among them. -/
def withPatterns (f : Builtin) (es : List Expr) : Reads (List Expr) := do
  match f, es with
  | .sub, p :: rest | .gsub, p :: rest => return (← asPattern p) :: rest
  | .matching, [e, p] => return [e, ← asPattern p]
  | .split, [e, a, .text t] => if t.length < 2 then return es else return [e, a, .pattern (← patternOf t)]
  | _, es => return es

mutual

/-- An expression. -/
def expr (printing : Bool) : (fuel : Nat) → Reads Expr
  | 0 => misfit
  | fuel + 1 => do
    let condition ← disjunction printing fuel
    if ← trySign "?" then
      let yes ← expr printing fuel
      needSign ":"
      return .choice condition yes (← expr printing fuel)
    else return condition

/-- Expressions of which one has to hold. -/
def disjunction (printing : Bool) : (fuel : Nat) → Reads Expr
  | 0 => misfit
  | fuel + 1 => do
    row [("||", .either)] true (conjunction printing fuel) fuel (← conjunction printing fuel)

/-- Expressions that have to hold all. -/
def conjunction (printing : Bool) : (fuel : Nat) → Reads Expr
  | 0 => misfit
  | fuel + 1 => do
    row [("&&", .both)] true (membership printing fuel) fuel (← membership printing fuel)

/-- An expression that may be asked for in arrays. -/
def membership (printing : Bool) : (fuel : Nat) → Reads Expr
  | 0 => misfit
  | fuel + 1 => do memberships fuel (← fitting printing fuel)

/-- The arrays that an expression is asked for in. -/
def memberships : (fuel : Nat) → Expr → Reads Expr
  | 0, _ => misfit
  | fuel + 1, e => do
    if ← isWord "in" then
      advance
      match ← peek with
      | .name array _ =>
        advance
        memberships fuel (.member [e] array)
      | _ => misfit
    else return e

/-- An expression that may be held against patterns. -/
def fitting (printing : Bool) : (fuel : Nat) → Reads Expr
  | 0 => misfit
  | fuel + 1 => do fittings printing fuel (← comparison printing fuel)

/-- The patterns that an expression is held against. -/
def fittings (printing : Bool) : (fuel : Nat) → Expr → Reads Expr
  | 0, _ => misfit
  | fuel + 1, e => do
    if ← trySign "~" then fittings printing fuel (.fits true e (← asPattern (← comparison printing fuel)))
    else if ← trySign "!~" then fittings printing fuel (.fits false e (← asPattern (← comparison printing fuel)))
    else return e

/-- A comparison. -/
def comparison (printing : Bool) : (fuel : Nat) → Reads Expr
  | 0 => misfit
  | fuel + 1 => do
    row (comparisons printing) false (joined printing fuel) fuel (← joined printing fuel)

/-- Values side by side, or an assignment. -/
def joined (printing : Bool) : (fuel : Nat) → Reads Expr
  | 0 => misfit
  | fuel + 1 => do
    let a ← sum printing fuel
    match ← peek with
    | .sign t =>
      match if a.isPlace then assignments.lookup (String.ofList t) else none with
      | some operation =>
        advance
        return .assign a operation (← expr printing fuel)
      | none => joinedTo printing fuel a
    | _ => joinedTo printing fuel a

/-- The values that are joined to one. -/
def joinedTo (printing : Bool) : (fuel : Nat) → Expr → Reads Expr
  | 0, _ => misfit
  | fuel + 1, a => do
    if beginsValue (← peek) then joinedTo printing fuel (.joined a (← sum printing fuel)) else return a

/-- A sum. -/
def sum (printing : Bool) : (fuel : Nat) → Reads Expr
  | 0 => misfit
  | fuel + 1 => do
    row [("+", .calculation .plus), ("-", .calculation .minus)] false (product printing fuel) fuel
      (← product printing fuel)

/-- A product. -/
def product (printing : Bool) : (fuel : Nat) → Reads Expr
  | 0 => misfit
  | fuel + 1 => do
    row [("*", .calculation .times), ("/", .calculation .over), ("%", .calculation .remainder)] false
      (unary printing fuel) fuel (← unary printing fuel)

/-- A value with signs before it. -/
def unary (printing : Bool) : (fuel : Nat) → Reads Expr
  | 0 => misfit
  | fuel + 1 => do
    if ← trySign "!" then return .negation (← unary printing fuel)
    else if ← trySign "-" then return .opposite (← unary printing fuel)
    else if ← trySign "+" then return .worth (← unary printing fuel)
    else piped printing fuel (← power printing fuel)

/-- Lines of the program that a value names. -/
def piped (printing : Bool) : (fuel : Nat) → Expr → Reads Expr
  | 0, _ => misfit
  | fuel + 1, a => do
    if !printing && (← isSign "|") && (← second) = .word "getline" then
      advance
      advance
      piped printing fuel (.readNext (← target printing fuel) (some (.output, a)))
    else return a

/-- The place behind `getline`, if there is one. -/
def target (printing : Bool) : (fuel : Nat) → Reads (Option Expr)
  | 0 => misfit
  | fuel + 1 => do
    match ← peek with
    | .name _ false => return some (← single printing fuel)
    | .sign ['$'] => return some (← single printing fuel)
    | _ => return none

/-- A power. -/
def power (printing : Bool) : (fuel : Nat) → Reads Expr
  | 0 => misfit
  | fuel + 1 => do
    let a ← stepped printing fuel
    if ← trySign "^" then return .calculation .power a (← unary printing fuel) else return a

/-- A value that may be a place with a step behind it. -/
def stepped (printing : Bool) : (fuel : Nat) → Reads Expr
  | 0 => misfit
  | fuel + 1 => do
    let a ← single printing fuel
    if a.isPlace then
      if ← trySign "++" then return .step a .plus false
      if ← trySign "--" then return .step a .minus false
    return a

/-- A place with a step before it. -/
def preStep (printing : Bool) (operation : Operation) : (fuel : Nat) → Reads Expr
  | 0 => misfit
  | fuel + 1 => do
    let place ← single printing fuel
    if place.isPlace then return .step place operation true else misfit

/-- A single value. -/
def single (printing : Bool) : (fuel : Nat) → Reads Expr
  | 0 => misfit
  | fuel + 1 => do
    match ← peek with
    | .number x _ =>
      advance
      return .number x
    | .text t =>
      advance
      return .text t
    | .pattern source =>
      let p ← patternOf source
      advance
      return .pattern p
    | .name t called =>
      let isFunction := (← get).functions.contains t
      if called || isFunction then
        let here ← line
        advance
        needSign "("
        let arguments ← arguments fuel
        modify fun r => { r with calls := r.calls ++ [(t, arguments.length, here)] }
        return .call t arguments
      else
        advance
        if ← trySign "[" then
          let keys ← listFrom printing fuel
          needSign "]"
          return .element t keys
        else return .name t
    | .sign ['$'] =>
      advance
      if ← trySign "++" then return .field (← preStep printing .plus fuel)
      else if ← trySign "--" then return .field (← preStep printing .minus fuel)
      else if (← isSign "-") || (← isSign "+") || (← isSign "!") then return .field (← unary printing fuel)
      else return .field (← single printing fuel)
    | .sign ['+', '+'] =>
      advance
      preStep printing .plus fuel
    | .sign ['-', '-'] =>
      advance
      preStep printing .minus fuel
    | .sign ['('] =>
      advance
      let es ← listFrom false fuel
      needSign ")"
      match es with
      | [e] => return .group e
      | _ =>
        unless ← isWord "in" do misfit
        advance
        match ← peek with
        | .name array _ =>
          advance
          return .member es array
        | _ => misfit
    | .word t =>
      if t = ("getline" : Text) then
        advance
        let place ← target printing fuel
        if ← trySign "<" then return .readNext place (some (.file, ← power printing fuel))
        else return .readNext place none
      else
        match Builtin.table.lookup t with
        | none => misfit
        | some (f, least, most) =>
          advance
          if f = .length && !(← isSign "(") then return .builtin f []
          needSign "("
          let arguments ← arguments fuel
          if arguments.length < least || most < arguments.length then
            fail ("wrong number of arguments in call to " ++ t)
          return .builtin f (← withPatterns f arguments)
    | _ => misfit

/-- The arguments of a call up to the closing bracket. -/
def arguments : (fuel : Nat) → Reads (List Expr)
  | 0 => misfit
  | fuel + 1 => do
    if ← trySign ")" then return []
    let es ← listFrom false fuel
    needSign ")"
    return es

/-- Expressions with commas between them. -/
def listFrom (printing : Bool) : (fuel : Nat) → Reads (List Expr)
  | 0 => misfit
  | fuel + 1 => do
    let e ← expr printing fuel
    if ← trySign "," then
      skipLineEnds
      return e :: (← listFrom printing fuel)
    else return [e]

end

/-! ## Statements -/

/-- The end of a simple statement. -/
def terminator : Reads Unit := do
  if ← trySign ";" then skipLineEnds
  else
    match ← peek with
    | .lineEnd => advance
    | .sign ['\x7d'] => pure ()
    | _ => misfit

/-- What is printed and where to. A list in brackets counts if nothing but a sink follows it. -/
def printed (fuel : Nat) : Reads (List Expr × Option (Sink × Expr)) := do
  let before ← get
  let inBrackets : Reads (Option (List Expr)) := do
    if ← trySign "(" then
      if ← trySign ")" then return some []
      let es ← listFrom false fuel
      needSign ")"
      let next ← peek
      return if endsStatement next || (sink? next).isSome then some es else none
    else return none
  let found := match inBrackets.run before with
    | .ok (some es, after) => some (es, after)
    | _ => none
  let items ← match found with
    | some (es, after) =>
      set after
      pure es
    | none =>
      let next ← peek
      if endsStatement next || (sink? next).isSome then pure [] else listFrom true fuel
  match sink? (← peek) with
  | none => return (items, none)
  | some sink =>
    advance
    return (items, some (sink, ← expr false fuel))

/-- An expression before a sign, if there is one. -/
def optionalBefore (sign : String) (fuel : Nat) : Reads (Option Expr) := do
  if ← isSign sign then return none else return some (← expr false fuel)

/-- An expression at the end of a statement, if there is one. -/
def optionalEnd (fuel : Nat) : Reads (Option Expr) := do
  if endsStatement (← peek) then return none else return some (← expr false fuel)

/-- Work inside of a loop. -/
def inLoop {α : Type} (work : Reads α) : Reads α := do
  modify fun r => { r with loops := r.loops + 1 }
  let x ← work
  modify fun r => { r with loops := r.loops - 1 }
  return x

mutual

/-- A statement, with what ends it. -/
def statement : (fuel : Nat) → Reads Statement
  | 0 => misfit
  | fuel + 1 => do
    match ← peek with
    | .sign ['\x7b'] =>
      let s ← block fuel
      skipLineEnds
      return s
    | .sign [';'] =>
      terminator
      return .nothing
    | .word t => worded fuel (String.ofList t)
    | _ =>
      let e ← expr false fuel
      terminator
      return .value e

/-- A statement that begins with a word. -/
def worded (fuel : Nat) (word : String) : Reads Statement :=
  match fuel with
  | 0 => misfit
  | fuel + 1 => do
    match word with
    | "if" =>
      advance
      needSign "("
      let condition ← expr false fuel
      needSign ")"
      skipLineEnds
      let yes ← statement fuel
      if ← isWord "else" then
        advance
        skipLineEnds
        return .choice condition yes (← statement fuel)
      else return .choice condition yes .nothing
    | "while" =>
      advance
      needSign "("
      let condition ← expr false fuel
      needSign ")"
      skipLineEnds
      return .whileLoop condition (← inLoop (statement fuel))
    | "do" =>
      advance
      skipLineEnds
      let body ← inLoop (statement fuel)
      unless ← isWord "while" do misfit
      advance
      needSign "("
      let condition ← expr false fuel
      needSign ")"
      terminator
      return .doLoop body condition
    | "for" => forLoop fuel
    | "break" =>
      if (← get).loops = 0 then fail "break statement outside of loop"
      advance
      terminator
      return .leaveLoop
    | "continue" =>
      if (← get).loops = 0 then fail "continue statement outside of loop"
      advance
      terminator
      return .nextRound
    | "next" =>
      unless (← get).inRecord do fail "improper use of next"
      advance
      terminator
      return .nextRecord
    | "nextfile" =>
      unless (← get).inRecord do fail "improper use of nextfile"
      advance
      terminator
      return .nextFile
    | "exit" =>
      advance
      let status ← optionalEnd fuel
      terminator
      return .exit status
    | "return" =>
      unless (← get).inFunction do fail "return outside function body"
      advance
      let e ← optionalEnd fuel
      terminator
      return .answer e
    | "delete" =>
      advance
      match ← peek with
      | .name array _ =>
        advance
        let keys ← if ← trySign "[" then
            let keys ← listFrom false fuel
            needSign "]"
            pure keys
          else pure []
        terminator
        return .delete array keys
      | _ => misfit
    | "print" =>
      advance
      let (items, sink) ← printed fuel
      terminator
      return .print items sink
    | "printf" =>
      advance
      let (items, sink) ← printed fuel
      if items.isEmpty then fail "no arguments in call to printf"
      terminator
      return .printf items sink
    | _ =>
      let e ← expr false fuel
      terminator
      return .value e

/-- A loop that counts, or one over the keys of an array. -/
def forLoop : (fuel : Nat) → Reads Statement
  | 0 => misfit
  | fuel + 1 => do
    advance
    needSign "("
    match ((← get).tokens.take 4).map fun p : Placed => p.token with
    | [.name name _, .word ['i', 'n'], .name array _, .sign [')']] =>
      modify fun r => { r with tokens := r.tokens.drop 4 }
      skipLineEnds
      return .eachKey name array (← inLoop (statement fuel))
    | _ =>
      let start ← optionalBefore ";" fuel
      needSign ";"
      skipLineEnds
      let condition ← optionalBefore ";" fuel
      needSign ";"
      skipLineEnds
      let step ← optionalBefore ")" fuel
      needSign ")"
      skipLineEnds
      return .forLoop start condition step (← inLoop (statement fuel))

/-- Statements in braces. -/
def block : (fuel : Nat) → Reads Statement
  | 0 => misfit
  | fuel + 1 => do
    needSign "\x7b"
    skipLineEnds
    let statements ← statements fuel
    needSign "\x7d"
    return .block statements

/-- Statements up to a closing brace. -/
def statements : (fuel : Nat) → Reads (List Statement)
  | 0 => misfit
  | fuel + 1 => do
    match ← peek with
    | .sign ['\x7d'] | .finish => return []
    | .lineEnd =>
      advance
      statements fuel
    | _ =>
      let s ← statement fuel
      return s :: (← statements fuel)

end

/-! ## Programs -/

/-- The parameters of a function up to the closing bracket. -/
def parameters : (fuel : Nat) → List Text → Reads (List Text)
  | 0, _ => misfit
  | fuel + 1, before => do
    match ← peek with
    | .name t _ =>
      if before.contains t then fail (t ++ " is duplicated in argument list")
      advance
      if ← trySign "," then
        skipLineEnds
        parameters fuel (before ++ [t])
      else
        needSign ")"
        return before ++ [t]
    | .sign [')'] =>
      if before.isEmpty then
        advance
        return []
      else misfit
    | _ => misfit

/-- The end of a rule. -/
def ruleEnd : Reads Unit := do
  let _ ← trySign ";"
  skipLineEnds

/-- The action of a rule, if there is one. `inRecord` says that there is a record then. -/
def action (inRecord : Bool) (fuel : Nat) : Reads Statement := do
  modify fun r => { r with inRecord := inRecord }
  let s ← block fuel
  modify fun r => { r with inRecord := false }
  ruleEnd
  return s

/-- A rule that is no action alone. -/
def triggered (fuel : Nat) (trigger : Trigger) : Reads Rule := do
  if ← isSign "\x7b" then return ⟨trigger, some (← action true fuel)⟩
  else
    match ← peek with
    | .lineEnd | .sign [';'] =>
      ruleEnd
      return ⟨trigger, none⟩
    | _ => misfit

/-- Rules and functions up to the end. -/
def items : (fuel : Nat) → Code → Reads Code
  | 0, _ => misfit
  | fuel + 1, code => do
    let rule (r : Rule) : Reads Code := items fuel { code with rules := code.rules ++ [r] }
    match ← peek with
    | .finish => return code
    | .sign ['\x7b'] => rule ⟨.always, some (← action true fuel)⟩
    | .word ['B', 'E', 'G', 'I', 'N'] =>
      advance
      rule ⟨.start, some (← action false fuel)⟩
    | .word ['E', 'N', 'D'] =>
      advance
      rule ⟨.finish, some (← action false fuel)⟩
    | .word ['f', 'u', 'n', 'c', 't', 'i', 'o', 'n'] =>
      advance
      match ← peek with
      | .name t _ =>
        if code.functions.any (·.name = t) then fail ("redefinition of " ++ t)
        advance
        needSign "("
        let names ← parameters fuel []
        skipLineEnds
        modify fun r => { r with inFunction := true }
        let body ← block fuel
        modify fun r => { r with inFunction := false }
        ruleEnd
        items fuel { code with functions := code.functions ++ [⟨t, names, body⟩] }
      | _ => misfit
    | _ =>
      let e ← expr false fuel
      if ← trySign "," then
        skipLineEnds
        let e' ← expr false fuel
        rule (← triggered fuel (.between e e'))
      else rule (← triggered fuel (.holds e))

end Reads

/-- The names of the functions that tokens define. -/
def functionsIn : List Placed → List Text
  | ⟨.word ['f', 'u', 'n', 'c', 't', 'i', 'o', 'n'], _⟩ :: ⟨.name t _, line⟩ :: rest =>
    t :: functionsIn (⟨.name t false, line⟩ :: rest)
  | _ :: rest => functionsIn rest
  | [] => []

/-- What is wrong at a token, behind so many open brackets and braces. -/
def misfitWords (token : Token) (brackets braces : Nat) : Text :=
  let endsEarly := match token with
    | .lineEnd | .sign [';'] | .sign ['\x7d'] => true
    | _ => false
  if 0 < brackets && endsEarly then "missing ) near " ++ token.shown
  else if 0 < braces && token = .finish then "missing \x7d near " ++ token.shown
  else "syntax error at or near " ++ token.shown

/-- How many of these signs are among tokens. -/
def countSign (tokens : List Placed) (t : Text) : Nat := tokens.countP (·.token = .sign t)

/-- The complaints about calls of functions that are not there or take fewer arguments. -/
def wrongCalls (code : Code) (calls : List (Text × Nat × Nat)) (lastLine : Nat) : List Complaint :=
  calls.filterMap fun (name, count, line) =>
    match code.functions.find? (·.name = name) with
    | none => some ⟨lastLine, "function " ++ name ++ " never defined", false⟩
    | some f =>
      if f.parameters.length < count then some ⟨line, "too many arguments in call to " ++ name, false⟩ else none

/-- A program, or complaints about it. -/
def readCode (text : Text) : Except (List Complaint) Code :=
  let (l, stop) := Token.lex (text.length + 2) 1 ⟨[], [], 0, 0⟩ text
  let tokens := l.tokens.reverse
  let start : Reading := ⟨tokens, functionsIn tokens, [], 0, false, false⟩
  let passed (count : Nat) : List Complaint := (l.passed.filter (·.1 ≤ count)).map (·.2)
  let reads : Reads Code := do
    Reads.skipLineEnds
    Reads.items (40 * tokens.length + 100) ⟨[], []⟩
  match reads.run start with
  | .ok (code, r) =>
    let lastLine := (l.tokens.head?.map (·.line)).getD 1
    match passed tokens.length ++ stop.toList ++ wrongCalls code r.calls lastLine with
    | [] => .ok code
    | complaints => .error complaints
  | .error ⟨left, complaint⟩ =>
    match stop, left with
    | some c, [] => .error (passed tokens.length ++ [c])
    | none, [] => .error (passed tokens.length)
    | _, p :: _ =>
      let count := tokens.length - left.length
      let before := tokens.take count
      let brackets := countSign before "(" - countSign before ")"
      let braces := countSign before "\x7b" - countSign before "\x7d"
      .error (passed count ++ [⟨p.line, complaint.getD (misfitWords p.token brackets braces), false⟩])

end FlowTypes.Script.Records
