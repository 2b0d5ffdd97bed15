import FlowTypes.Decimal.Arithmetic
import FlowTypes.Script.Matching

/-!
# Programs for records

A program for records goes through its input record by record: for each rule whose trigger the record fits, it does
what the rule says (`Records.Code`). Records have fields, and there are variables, arrays, functions, and files and
programs to read from and to write to.
-/

namespace FlowTypes.Script.Records

/-! ## Expressions -/

/-- Operations on numbers. -/
inductive Operation where
  | plus
  | minus
  | times
  | over
  | remainder
  | power
  deriving DecidableEq, Repr

/-- The value of an operation. -/
def Operation.apply : Operation → Binary64 → Binary64 → Binary64
  | .plus, x, y => x.add y
  | .minus, x, y => x.sub y
  | .times, x, y => x.mul y
  | .over, x, y => x.div y
  | .remainder, x, y => x.rem y
  | .power, x, y => .through₂ Float.pow x y

/-- Comparisons. -/
inductive Comparison where
  | less
  | atMost
  | equal
  | different
  | atLeast
  | more
  deriving DecidableEq, Repr

/-- The comparison holds for values in this order. -/
def Comparison.holds : Comparison → Ordering → Bool
  | less, o => o == .lt
  | atMost, o => o != .gt
  | equal, o => o == .eq
  | different, o => o != .eq
  | atLeast, o => o != .lt
  | more, o => o == .gt

/-- Functions that every program has. -/
inductive Builtin where
  | length
  | substr
  | index
  | split
  | sub
  | gsub
  | matching
  | sprintf
  | sin
  | cos
  | atan2
  | exp
  | log
  | sqrt
  | int
  | rand
  | srand
  | tolower
  | toupper
  | system
  | close
  | fflush
  deriving DecidableEq, Repr

/-- The names of the functions, with the least and the most number of arguments. -/
def Builtin.table : List (Text × Builtin × Nat × Nat) :=
  [("length", length, 0, 1), ("substr", substr, 2, 3), ("index", index, 2, 2), ("split", split, 2, 3),
    ("sub", sub, 2, 3), ("gsub", gsub, 2, 3), ("match", matching, 2, 2), ("sprintf", sprintf, 1, 255),
    ("sin", sin, 1, 1), ("cos", cos, 1, 1), ("atan2", atan2, 2, 2), ("exp", exp, 1, 1), ("log", log, 1, 1),
    ("sqrt", sqrt, 1, 1), ("int", int, 1, 1), ("rand", rand, 0, 0), ("srand", srand, 0, 1),
    ("tolower", tolower, 1, 1), ("toupper", toupper, 1, 1), ("system", system, 1, 1), ("close", close, 1, 1),
    ("fflush", fflush, 0, 1)]

/-- Where lines are read from other than the input. -/
inductive Source where
  | file
  | output
  deriving DecidableEq, Repr

/-- Where is printed to other than the output: a new file, the end of a file, or the input of a program. -/
inductive Sink where
  | file
  | addition
  | input
  deriving DecidableEq, Repr

/-- What has a value. -/
inductive Expr where
  | number (x : Binary64)
  | text (t : Text)
  | pattern (p : Matching.Pattern)
  | name (t : Text)
  | field (index : Expr)
  | element (array : Text) (keys : List Expr)
  | group (e : Expr)
  /-- The place gets the value, or what the operation makes of its old one and the value. -/
  | assign (place : Expr) (operation : Option Operation) (value : Expr)
  /-- The place gets one more or less; the value is the one before or behind that. -/
  | step (place : Expr) (operation : Operation) (before : Bool)
  | choice (condition yes no : Expr)
  | both (a b : Expr)
  | either (a b : Expr)
  | negation (e : Expr)
  | opposite (e : Expr)
  | worth (e : Expr)
  | compare (comparison : Comparison) (a b : Expr)
  | fits (wanted : Bool) (e pattern : Expr)
  | member (keys : List Expr) (array : Text)
  | joined (a b : Expr)
  | calculation (operation : Operation) (a b : Expr)
  | builtin (f : Builtin) (arguments : List Expr)
  | call (function : Text) (arguments : List Expr)
  /-- Reads the next record, into a place if there is one. -/
  | readNext (place : Option Expr) (source : Option (Source × Expr))
  deriving Inhabited

/-- The expression is a place that can get a value. -/
def Expr.isPlace : Expr → Bool
  | name _ | field _ | element .. => true
  | _ => false

/-! ## Statements -/

/-- What is done. -/
inductive Statement where
  | nothing
  | value (e : Expr)
  | print (items : List Expr) (sink : Option (Sink × Expr))
  | printf (items : List Expr) (sink : Option (Sink × Expr))
  | block (statements : List Statement)
  | choice (condition : Expr) (yes no : Statement)
  | whileLoop (condition : Expr) (body : Statement)
  | doLoop (body : Statement) (condition : Expr)
  | forLoop (start : Option Expr) (condition : Option Expr) (step : Option Expr) (body : Statement)
  | eachKey (name array : Text) (body : Statement)
  | leaveLoop
  | nextRound
  | nextRecord
  | nextFile
  | exit (status : Option Expr)
  | answer (e : Option Expr)
  | delete (array : Text) (keys : List Expr)
  deriving Inhabited

/-- When a rule applies. -/
inductive Trigger where
  | start
  | finish
  | always
  | holds (e : Expr)
  /-- From a record that fits the first expression up to one that fits the second. -/
  | between (a b : Expr)

/-- A rule. Without an action the record is printed. -/
structure Rule where
  trigger : Trigger
  action : Option Statement

/-- A function of a program. -/
structure Function where
  name : Text
  parameters : List Text
  body : Statement

/-- A program. -/
structure Code where
  rules : List Rule
  functions : List Function

/-! ## Arrays as arguments -/

/-- The names that an expression uses as arrays. `asArray` says which arguments of a function are arrays. -/
def Expr.arrays (asArray : Text → Nat → Bool) : Expr → List Text
  | number _ | text _ | pattern _ | name _ => []
  | field e | group e | negation e | opposite e | worth e => e.arrays asArray
  | element array keys | member keys array => array :: keys.flatMap (·.arrays asArray)
  | assign a _ b | both a b | either a b | compare _ a b | fits _ a b | joined a b | calculation _ a b =>
    a.arrays asArray ++ b.arrays asArray
  | step e _ _ => e.arrays asArray
  | choice a b c => a.arrays asArray ++ b.arrays asArray ++ c.arrays asArray
  | builtin .split (e :: .name array :: rest) => array :: e.arrays asArray ++ rest.flatMap (·.arrays asArray)
  | builtin _ es => es.flatMap (·.arrays asArray)
  | call function es =>
    let named := es.mapIdx fun i e =>
      match e with
      | name t => if asArray function i then [t] else []
      | _ => []
    named.flatten ++ es.flatMap (·.arrays asArray)
  | readNext place source =>
    (match place with
      | some e => e.arrays asArray
      | none => []) ++
    (match source with
      | some (_, e) => e.arrays asArray
      | none => [])

/-- The names that an expression uses as arrays, if there is one. -/
def optionArrays (asArray : Text → Nat → Bool) (e : Option Expr) : List Text :=
  (e.map (·.arrays asArray)).getD []

/-- The names that a statement uses as arrays. -/
def Statement.arrays (asArray : Text → Nat → Bool) : Statement → List Text
  | nothing | leaveLoop | nextRound | nextRecord | nextFile => []
  | value e => e.arrays asArray
  | print es sink | printf es sink =>
    es.flatMap (·.arrays asArray) ++ optionArrays asArray (sink.map (·.2))
  | block ss => ss.flatMap (·.arrays asArray)
  | choice e a b => e.arrays asArray ++ a.arrays asArray ++ b.arrays asArray
  | whileLoop e s | doLoop s e => e.arrays asArray ++ s.arrays asArray
  | forLoop a b c s => [a, b, c].flatMap (optionArrays asArray) ++ s.arrays asArray
  | eachKey _ array s => array :: s.arrays asArray
  | exit e | answer e => optionArrays asArray e
  | delete array es => array :: es.flatMap (·.arrays asArray)

/-- The parameters of functions that are arrays: those that are used as arrays, maybe by functions that they are
handed to. Each round finds at least one more, or the last one has found them all. -/
def arrayParameters (functions : List Function) : (rounds : Nat) → List (Text × Nat) → List (Text × Nat)
  | 0, known => known
  | rounds + 1, known =>
    let asArray (f : Text) (i : Nat) : Bool := known.contains (f, i)
    let found := functions.flatMap fun f =>
      let used := f.body.arrays asArray
      (f.parameters.mapIdx fun i p => if used.contains p then [(f.name, i)] else []).flatten
    if found.length = known.length then known else arrayParameters functions rounds found

end FlowTypes.Script.Records
