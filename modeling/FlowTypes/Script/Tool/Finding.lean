import FlowTypes.Script.Field
import FlowTypes.Script.Matching.Reader
import FlowTypes.Script.Printing
import FlowTypes.Script.Tool.Files
import FlowTypes.Script.Tool.Running

/-!
# Finding files

`find` goes through directories and asks a question about each entry; a question may also do something, such as
print the path or run a program with it. The entries of a directory come in the order of their names, behind the
directory or, if asked for, before it.

Files are as old as the run, so whatever asks for their age takes them for new.
-/

namespace FlowTypes.Script.Tool

open Errand

namespace Finding

/-- An entry that a question is about. -/
structure Candidate where
  path : Text
  /-- Where the search started that led here. -/
  start : Text
  depth : Nat
  loc : Location
  entry : Entry
  permitted : Bool

/-- The last name of the path. -/
def Candidate.name (c : Candidate) : Text :=
  let bare := (c.path.reverse.dropWhile (· == '/')).reverse
  if bare.isEmpty then c.path else (bare.reverse.takeWhile (· != '/')).reverse

/-- The bits that say who may do what. -/
def Candidate.rights (c : Candidate) : Nat :=
  match c.entry with
  | .directory => 493
  | .file _ => if c.permitted then 493 else 420

/-- A question about an entry. -/
inductive Query where
  | test (holds : FileTree → Candidate → Bool)
  | print (lineEnd : Char)
  | printf (template : Text)
  /-- A program is run for each entry, maybe in its directory. -/
  | run (words : List Text) (inside : Bool)
  /-- A program is run for many entries at once. -/
  | runMany (number : Nat) (words : List Text)
  | delete
  | prune
  | quit
  | both (a b : Query)
  | either (a b : Query)
  | inverted (a : Query)
  | lastOf (a b : Query)

/-- The question does something. -/
def Query.acts : Query → Bool
  | test _ | prune => false
  | print _ | printf _ | run _ _ | runMany _ _ | delete | quit => true
  | both a b | either a b | lastOf a b => a.acts || b.acts
  | inverted a => a.acts

/-- The programs that are run for many entries at once. -/
def Query.manyRuns : Query → List (Nat × List Text)
  | runMany n words => [(n, words)]
  | both a b | either a b | lastOf a b => a.manyRuns ++ b.manyRuns
  | inverted a => a.manyRuns
  | _ => []

/-- How directories are gone through. -/
structure Plan where
  deepest : Option Nat
  shallowest : Nat
  contentsFirst : Bool

/-! ## Reading questions -/

/-- The state of a reader: the words that are left, the plan so far, and the next number of a run. -/
structure Draft where
  words : List Text
  plan : Plan
  fresh : Nat

/-- Reading a question; what is wrong is told in words. -/
abbrev Reading (α : Type) := StateT Draft (Except Text) α

/-- The question is wrong. -/
def wrong {α : Type} (t : Text) : Reading α := fun _ => .error t

/-- The argument of a word. -/
def argument (word : Text) : Reading Text := do
  match (← get).words with
  | [] => wrong ("missing argument to `" ++ word ++ "'")
  | t :: rest =>
    modify fun d => { d with words := rest }
    return t

/-- A comparison with a number: more than it, less than it, or just it. -/
def compared (t : Text) : Option (Nat → Nat → Bool) × Text :=
  match t with
  | '+' :: rest => (some fun n x => n < x, rest)
  | '-' :: rest => (some fun n x => x < n, rest)
  | _ => (some fun n x => x = n, t)

/-- A text fits a pattern. -/
def fits (folded : Bool) (pattern t : Text) : Bool :=
  let fold (t : Text) : Text := if folded then t.map Char.toLower else t
  Field.fits ((fold pattern).map fun c => (c, false)) (fold t)

/-- The bits that a word asks for. -/
def rightsOf? (t : Text) : Option Nat :=
  if !t.isEmpty && t.all Printing.isOctal then some (Raw.octalOf t)
  else
    (Raw.fields ',' t).foldlM (fun bits part =>
      let who := part.takeWhile (("ugoa".toList).contains ·)
      match part.drop who.length with
      | sign :: what =>
        if (sign == '+' || sign == '=') && what.all (("rwxXst".toList).contains ·) then
          let bit (c : Char) : Nat := if c == 'r' then 4 else if c == 'w' then 2 else if c == 'x' then 1 else 0
          let value := (what.map bit).foldl (· + ·) 0
          let places := if who.isEmpty || who.contains 'a' then "ugo".toList else who
          some (bits ||| (places.map fun c =>
            value * (if c == 'u' then 64 else if c == 'g' then 8 else 1)).foldl (· + ·) 0)
        else none
      | [] => none) 0

/-- A pattern for whole paths. Plus signs and question marks repeat. -/
def pathPattern (t : Text) : Text :=
  let rec go (behind inSet : Bool) : Text → Text
    | [] => []
    | c :: rest =>
      if behind then c :: go false inSet rest
      else if c == '\\' then c :: go true inSet rest
      else if inSet then c :: go false (c != ']') rest
      else if c == '[' then c :: go false true rest
      else if c == '+' || c == '?' then '\\' :: c :: go false false rest
      else c :: go false false rest
  go false false t

/-- The words of a program up to the one that ends them, and whether it runs for many entries at once. -/
def programWords (word : Text) : (fuel : Nat) → Reading (List Text × Bool)
  | 0 => wrong ("missing argument to `" ++ word ++ "'")
  | fuel + 1 => do
    let t ← argument word
    if t = (";" : Text) then return ([], false)
    else if t = ("\x7b\x7d" : Text) && (← get).words.head? = some ['+'] then
      modify fun d => { d with words := d.words.drop 1 }
      return ([], true)
    else
      let (rest, many) ← programWords word fuel
      return (t :: rest, many)

/-- A test. -/
def always (b : Bool) : Query := .test fun _ _ => b

/-- A question behind its word. -/
def single (word : Text) : Reading Query := do
  let name := String.ofList (word.drop 1)
  let pathOf (c : Candidate) : Text := c.path
  let ages : Reading Query := do
    let t ← argument word
    let (_, digits) := compared t
    match Raw.nat? digits with
    | none => wrong ("invalid argument `" ++ t ++ "' to `" ++ word ++ "'")
    | some n => return always (if t.head? = some '+' then false else if t.head? = some '-' then 0 < n else n = 0)
  let depth : Reading Nat := do
    let t ← argument word
    match Raw.nat? t with
    | some n => return n
    | none => wrong ("Expected a positive decimal integer argument to " ++ word ++ ", but got " ++ quoted t)
  match name with
  | "name" | "iname" =>
    let p ← argument word
    return .test fun _ c => fits (name = "iname") p c.name
  | "path" | "wholename" | "ipath" | "iwholename" =>
    let p ← argument word
    return .test fun _ c => fits (name = "ipath" || name = "iwholename") p (pathOf c)
  | "regex" | "iregex" =>
    let p ← argument word
    match Matching.read ⟨false, false, false, true, true, false⟩ (Matching.symbolsOf (pathPattern p)) with
    | .error fault => wrong ("failed to compile regular expression '" ++ p ++ "': " ++ fault.message)
    | .ok (shape, groups, _) =>
      let pattern := Matching.Pattern.ofShape (.seq (.place .textStart) (.seq shape (.place .textEnd))) groups
        (name = "iregex")
      return .test fun _ c => pattern.occursIn (Matching.symbolsOf c.path)
  | "type" | "xtype" =>
    let t ← argument word
    match (t.filter (· != ',')).find? fun c => !("bcdpflsD".toList).contains c with
    | some c => wrong ("Unknown argument to " ++ word ++ ": " ++ [c])
    | none =>
      return .test fun _ c => match c.entry with
        | .directory => t.contains 'd'
        | .file _ => t.contains 'f'
  | "empty" =>
    return .test fun tree c => match c.entry with
      | .directory => (tree.namesIn c.loc).isEmpty
      | .file bytes => bytes.isEmpty
  | "size" =>
    let t ← argument word
    let (compare, body) := compared t
    let digits := body.takeWhile Char.isDigit
    let unit : Option Nat := match String.ofList (body.drop digits.length) with
      | "" | "b" => some 512
      | "c" => some 1
      | "w" => some 2
      | "k" => some 1024
      | "M" => some (Nat.pow 1024 2)
      | "G" => some (Nat.pow 1024 3)
      | _ => none
    match unit, compare, digits with
    | some unit, some compare, _ :: _ =>
      return .test fun _ c =>
        let size := match c.entry with
          | .directory => 4096
          | .file bytes => bytes.length
        compare (Raw.natOf digits) ((size + unit - 1) / unit)
    | _, _, _ => wrong ("invalid -size type `" ++ body.drop digits.length ++ "'")
  | "perm" =>
    let t ← argument word
    let (mark, body) := match t with
      | '-' :: rest => ('-', rest)
      | '/' :: rest => ('/', rest)
      | _ => ('=', t)
    match rightsOf? body with
    | none => wrong ("invalid mode " ++ quoted t)
    | some bits =>
      return .test fun _ c =>
        if mark == '-' then c.rights &&& bits = bits
        else if mark == '/' then bits = 0 || c.rights &&& bits != 0
        else c.rights = bits
  | "mtime" | "atime" | "ctime" | "mmin" | "amin" | "cmin" => ages
  | "newer" | "anewer" | "cnewer" | "samefile" =>
    let p ← argument word
    return .test fun tree c =>
      match System.locate tree p with
      | .ok (loc, _) => if name = "samefile" then loc = c.loc else false
      | .error _ => false
  | "links" | "inum" | "uid" | "gid" =>
    let t ← argument word
    return .test fun _ c => name = "links" && t = (['1'] : Text) && c.entry != .directory
  | "user" | "group" =>
    let t ← argument word
    if t = ("root" : Text) || t = (['0'] : Text) then return always true
    else wrong (quoted t ++ " is not the name of a known " ++ name.toList)
  | "nouser" | "nogroup" => return always false
  | "readable" | "writable" | "true" => return always true
  | "executable" => return .test fun _ c => c.entry = .directory || c.permitted
  | "false" => return always false
  | "maxdepth" =>
    let n ← depth
    modify fun d => { d with plan := { d.plan with deepest := some n } }
    return always true
  | "mindepth" =>
    let n ← depth
    modify fun d => { d with plan := { d.plan with shallowest := n } }
    return always true
  | "depth" | "d" =>
    modify fun d => { d with plan := { d.plan with contentsFirst := true } }
    return always true
  | "regextype" | "fstype" | "used" => do
    let _ ← argument word
    return always true
  | "follow" | "xdev" | "mount" | "noleaf" | "warn" | "nowarn" | "daystart" | "ignore_readdir_race" =>
    return always true
  | "print" => return .print '\n'
  | "print0" => return .print '\x00'
  | "printf" => return .printf (← argument word)
  | "prune" => return .prune
  | "quit" => return .quit
  | "delete" =>
    modify fun d => { d with plan := { d.plan with contentsFirst := true } }
    return .delete
  | "exec" | "execdir" => do
    let (words, many) ← programWords word ((← get).words.length + 1)
    if words.isEmpty then wrong ("missing argument to `" ++ word ++ "'")
    if many && words.contains "\x7b\x7d" then
      wrong ("Only one instance of \x7b\x7d is supported with " ++ word ++ " ... +")
    if many then
      let n := (← get).fresh
      modify fun d => { d with fresh := n + 1 }
      return .runMany n words
    else return .run words (name = "execdir")
  | _ => wrong ("unknown predicate `" ++ word ++ "'")

mutual

/-- Questions of which the last one counts. -/
def list (fuel : Nat) : Reading Query :=
  match fuel with
  | 0 => wrong "invalid expression"
  | fuel + 1 => do
    let a ← anyOf fuel
    match (← get).words with
    | [','] :: rest =>
      modify fun d => { d with words := rest }
      return .lastOf a (← list fuel)
    | _ => return a

/-- Questions of which one has to hold. -/
def anyOf (fuel : Nat) : Reading Query :=
  match fuel with
  | 0 => wrong "invalid expression"
  | fuel + 1 => do
    let a ← allOf fuel
    match (← get).words with
    | word :: rest =>
      if word = ("-o" : Text) || word = ("-or" : Text) then
        modify fun d => { d with words := rest }
        if rest.isEmpty then wrong ("expected an expression after '" ++ word ++ "'")
        return .either a (← anyOf fuel)
      else return a
    | [] => return a

/-- Questions all of which have to hold. -/
def allOf (fuel : Nat) : Reading Query :=
  match fuel with
  | 0 => wrong "invalid expression"
  | fuel + 1 => do
    let a ← one fuel
    match (← get).words with
    | [] => return a
    | word :: rest =>
      if word = ("-a" : Text) || word = ("-and" : Text) then
        modify fun d => { d with words := rest }
        if rest.isEmpty then wrong ("expected an expression after '" ++ word ++ "'")
        return .both a (← allOf fuel)
      else if word = ("-o" : Text) || word = ("-or" : Text) || word = ([','] : Text) || word = ([')'] : Text) then
        return a
      else return .both a (← allOf fuel)

/-- One question. -/
def one (fuel : Nat) : Reading Query :=
  match fuel with
  | 0 => wrong "invalid expression"
  | fuel + 1 => do
    match (← get).words with
    | [] => wrong "invalid expression"
    | word :: rest =>
      modify fun d => { d with words := rest }
      if word = (['!'] : Text) || word = ("-not" : Text) then
        if rest.isEmpty then wrong ("expected an expression after '" ++ word ++ "'")
        return .inverted (← one fuel)
      else if word = (['('] : Text) then
        if rest.isEmpty then
          wrong ("invalid expression; expected to find a ')' but didn't see one. "
            ++ "Perhaps you need an extra predicate after '('")
        let a ← list fuel
        match (← get).words with
        | [')'] :: after =>
          modify fun d => { d with words := after }
          return a
        | _ => wrong "invalid expression; I was expecting to find a ')' somewhere but did not see one."
      else if (["-o", "-or", "-a", "-and", ","] : List String).any fun s => s.toList = word then
        wrong ("invalid expression; you have used a binary operator '" ++ word ++ "' with nothing before it.")
      else if word.head? = some '-' && 1 < word.length then single word
      else if word = ([')'] : Text) then wrong "invalid expression; you have too many ')'"
      else wrong ("paths must precede expression: `" ++ word ++ "'")

end

/-! ## Asking -/

/-- How far a search is. -/
structure Progress where
  status : Nat
  stopped : Bool
  pruned : Bool
  /-- The paths for runs with many entries, last first. -/
  gathered : List (Nat × Text)
  /-- What is printed before the next program runs, last first. -/
  held : List Text

/-- Work on a search. -/
abbrev Work (α : Type) := StateT Progress Errand α

/-- What every part of a search needs. -/
structure Ground where
  launch : Launch
  environment : Environment
  tool : Text

/-- A template filled for an entry. -/
def filled (c : Candidate) : (fuel : Nat) → Text → Text
  | 0, _ => []
  | _, [] => []
  | fuel + 1, '\\' :: rest =>
    match rest with
    | [] => ['\\']
    | d :: more =>
      match Printing.escape? false rest with
      | some (b, after) => b :: filled c fuel after
      | none => '\\' :: d :: filled c fuel more
  | fuel + 1, '%' :: rest =>
    let width := rest.takeWhile fun d => d.isDigit || d == '-'
    match rest.drop width.length with
    | [] => ['%']
    | d :: after =>
      let directory := (c.path.take (c.path.length - c.name.length - 1))
      let value : Text := match d with
        | 'f' => c.name
        | 'p' => c.path
        | 'P' => (c.path.drop c.start.length).dropWhile (· == '/')
        | 'h' => if c.path.contains '/' then directory else ['.']
        | 'H' => c.start
        | 's' => match c.entry with
          | .directory => "4096"
          | .file bytes => Text.ofNat bytes.length
        | 'd' => Text.ofNat c.depth
        | 'y' => if c.entry = .directory then ['d'] else ['f']
        | 'm' => Nat.toDigits 8 c.rights
        | 'n' => if c.entry = .directory then ['2'] else ['1']
        | 'u' | 'g' => "root"
        | '%' => ['%']
        | _ => ['%', d]
      let wide := Raw.natOf (width.filter Char.isDigit)
      let value := if width.head? = some '-' then Text.padRight wide value else Text.padLeft wide value
      value ++ filled c fuel after
  | fuel + 1, d :: rest => d :: filled c fuel rest

/-- A program is run; whether it succeeds, and whether it is there. -/
def runProgram (g : Ground) (words : List Text) (place : Option Location) : Errand Ending := do
  let child := g.launch.calling g.environment words fun cause => Errand.program (do
    complain (g.tool ++ ": " ++ quoted (words.headD []) ++ ": " ++ cause.words)
    return 1)
  Errand.run (match place with
    | some loc => .call (.enter loc) fun _ => child
    | none => child)

/-- What is held back is printed. -/
def flush : Work Unit := do
  let p ← get
  set { p with held := [] }
  write 1 p.held.reverse.flatten

/-- The answer to a question about an entry. -/
def ask (g : Ground) (c : Candidate) : Query → Work Bool
  | .test holds => do return holds (← (Errand.files : Errand FileTree)) c
  | .print lineEnd => do
    modify fun p => { p with held := (c.path ++ [lineEnd]) :: p.held }
    return true
  | .printf template => do
    modify fun p => { p with held := filled c (template.length + 1) template :: p.held }
    return true
  | .run words inside => do
    let shown := if inside then '.' :: '/' :: c.name else c.path
    let words := words.map fun w => substituted "\x7b\x7d" shown (w.length + 1) w
    flush
    let ending ← (runProgram g words (if inside then some c.loc.dropLast else none) : Errand Ending)
    return ending = .status 0
  | .runMany n _ => do
    modify fun p => { p with gathered := (n, c.path) :: p.gathered }
    return true
  | .delete => do
    if c.path = (['.'] : Text) then return true
    let tree ← (Errand.files : Errand FileTree)
    if c.entry = .directory && !(tree.namesIn c.loc).isEmpty then
      complain (g.tool ++ ": cannot delete " ++ quoted c.path ++ ": Directory not empty")
      modify fun p => { p with status := 1 }
      return false
    tell (.change fun tree => (tree.remove c.loc, [], 0))
    return true
  | .prune => do
    modify fun p => { p with pruned := true }
    return true
  | .quit => do
    modify fun p => { p with stopped := true }
    return true
  | .both a b => do
    if !(← ask g c a) || (← get).stopped then return false
    ask g c b
  | .either a b => do
    if (← ask g c a) || (← get).stopped then return true
    ask g c b
  | .inverted a => do return !(← ask g c a)
  | .lastOf a b => do
    let _ ← ask g c a
    if (← get).stopped then return true
    ask g c b

/-- An entry and all below it. -/
def visit (g : Ground) (plan : Plan) (query : Query) (start : Text) : (fuel : Nat) → (path : Text) → (depth : Nat) →
    Location → Work Unit
  | 0, _, _, _ => return
  | fuel + 1, path, depth, loc => do
    if (← get).stopped then return
    let tree ← (Errand.files : Errand FileTree)
    let permitted ← (Errand.permitted : Errand (List Location))
    match tree.get? loc with
    | none => return
    | some entry =>
      let c : Candidate := ⟨path, start, depth, loc, entry, permitted.contains loc⟩
      let here : Work Unit := do
        if plan.shallowest ≤ depth then
          let _ ← ask g c query
      let descends := entry = .directory && !(plan.deepest.any (· ≤ depth))
      if !plan.contentsFirst then
        modify fun p => { p with pruned := false }
        here
      let pruned := !plan.contentsFirst && (← get).pruned
      if descends && !pruned then
        let tree ← (Errand.files : Errand FileTree)
        for name in (tree.namesIn loc).mergeSort Text.le do
          visit g plan query start fuel (Tool.inside path (Raw.ofText name)) (depth + 1) (loc ++ [name])
      if plan.contentsFirst && !(← get).stopped then here

/-- How deep directories are gone through. -/
def depthLimit : Nat := 4096

/-- Starts in turn. -/
def visitAll (g : Ground) (plan : Plan) (query : Query) : List Text → Work Unit
  | [] => return
  | start :: rest => do
    let tree ← (Errand.files : Errand FileTree)
    match System.locate tree start with
    | .ok (loc, some _) => visit g plan query start depthLimit start 0 loc
    | .ok (_, none) => missing g start .noSuchEntry
    | .error cause => missing g start cause
    if (← get).stopped then return
    visitAll g plan query rest
where
  missing (g : Ground) (start : Text) (cause : Refusal) : Work Unit := do
    complain (g.tool ++ ": " ++ quoted start ++ ": " ++ cause.words)
    modify fun p => { p with status := 1 }

end Finding

open Finding in
/-- Goes through directories. -/
def find : Tool := fun launch environment words => do
  let tool := words.headD []
  let words := (words.drop 1).dropWhile fun t =>
    t = ("-L" : Text) || t = ("-H" : Text) || t = ("-P" : Text) || t = ("--" : Text) || ("-O" : Text).isPrefixOf t
  let isQuestion (t : Text) : Bool :=
    (t.head? = some '-' && 1 < t.length) || t = (['('] : Text) || t = (['!'] : Text) || t = ([','] : Text)
  let starts := words.takeWhile (!isQuestion ·)
  let given := words.drop starts.length
  let starts := if starts.isEmpty then [['.']] else starts
  let nothing : Plan := ⟨none, 0, false⟩
  let read : Except Text (Query × Finding.Draft) :=
    if given.isEmpty then .ok (always true, ⟨[], nothing, 0⟩)
    else (Finding.list (20 * given.length + 20)).run ⟨given, nothing, 0⟩
  match read with
  | .error complaint =>
    complain (tool ++ ": " ++ complaint)
    return 1
  | .ok (_, { words := word :: _, .. }) =>
    complain (tool ++ (if word = ([')'] : Text) then (": invalid expression; you have too many ')'" : Text)
      else (": paths must precede expression: `" : Text) ++ word ++ "'"))
    return 1
  | .ok (query, draft) =>
    let query := if query.acts then query else .both query (.print '\n')
    let g : Ground := ⟨launch, environment, tool⟩
    let ((), p) ← (do
      visitAll g draft.plan query starts
      flush : Finding.Work Unit).run ⟨0, false, false, [], []⟩
    let mut status := p.status
    for (n, command) in query.manyRuns do
      let paths := (p.gathered.reverse.filter (·.1 = n)).map (·.2)
      if !paths.isEmpty then
        match ← runProgram g (command ++ paths) none with
        | .status 0 => pure ()
        | _ => status := 1
    return status

end FlowTypes.Script.Tool
