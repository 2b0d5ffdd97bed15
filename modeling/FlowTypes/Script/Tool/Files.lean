import FlowTypes.Script.Tool

/-!
# Tools for files

The tools that make, copy, move and remove files and directories. Each one works through its names from left to
right, complains about those it cannot handle, and goes on.
-/

namespace FlowTypes.Script.Tool

open Errand

/-! ## Parts -/

/-- What comes of a round of a tool: the files, what is printed and complained, and the status. -/
abbrev Outcome := FileTree × List Step × Nat

/-- A round that went well. -/
def fine (tree : FileTree) : Outcome := (tree, [], 0)

/-- A round that tells something. -/
def tells (tree : FileTree) (t : Text) : Outcome := (tree, [.write 1 (t ++ ['\n'])], 0)

/-- A round with a complaint. -/
def blames (tree : FileTree) (t : Text) : Outcome := (tree, [.write 2 (t ++ ['\n'])], 1)

/-- One round after another. -/
def Outcome.andThen (o : Outcome) (next : FileTree → Outcome) : Outcome :=
  let (tree, steps, status) := next o.1
  (tree, o.2.1 ++ steps, max o.2.2 status)

/-- A tool that does the same to each of its names. -/
def forEach (names : List Text) (deed : FileTree → Text → Outcome) : Errand Nat :=
  changing fun tree => names.foldl (fun o name => Outcome.andThen o fun tree => deed tree name) (fine tree)

/-- What is below a location. -/
def below (tree : FileTree) (loc : Location) : List (Location × Entry) :=
  (tree.entries.filter fun e => loc.isPrefixOf e.1 && e.1 != loc).mergeSort fun a b => Text.leParts a.1 b.1

/-- The path of something further down. -/
def pathBelow (path : Text) (parts : List Text) : Text :=
  Text.join ['/'] ((if path.getLast? = some '/' then path.dropLast else path) :: parts.map Raw.ofText)

/-- The last name in a path, as it is written; slashes at the end do not count. -/
def lastName (path : Text) : Text :=
  ((path.reverse.dropWhile (· == '/')).takeWhile (· != '/')).reverse

/-- A path below a directory. -/
def inside (directory name : Text) : Text :=
  if directory.getLast? = some '/' then directory ++ name else directory ++ '/' :: name

/-- What is at a path. -/
def entryAt (tree : FileTree) (path : Text) : Option Entry :=
  match System.locate tree path with
  | .ok (_, entry) => entry
  | .error _ => none

/-! ## Making and removing -/

/-- A directory and those above it are made where they are missing. -/
def makeAll (tree : FileTree) (tool : Text) (told : Bool) (path : Text) : Outcome :=
  let start : Text := if path.head? = some '/' then ['/'] else []
  let parts := (Raw.fields '/' path).filter (!·.isEmpty)
  (go start parts (fine tree)).1
where
  /-- The components from a path on; and whether it can go on. -/
  go (shown : Text) : List Text → Outcome → Outcome × Bool
    | [], o => (o, true)
    | part :: rest, o =>
      let shown := if shown.isEmpty || shown.getLast? = some '/' then shown ++ part else shown ++ '/' :: part
      let failed (cause : Refusal) : Outcome × Bool :=
        (o.andThen fun tree =>
          blames tree (tool ++ ": cannot create directory " ++ quoted shown ++ ": " ++ cause.words), false)
      match System.locate o.1 shown with
      | .error cause => failed cause
      | .ok (_, some .directory) => go shown rest o
      | .ok (_, some (.file _)) => failed (if rest.isEmpty then .alreadyThere else .notDirectory)
      | .ok (loc, none) =>
        let next := o.andThen fun tree =>
          let tree := tree.put loc .directory
          if told then tells tree (tool ++ ": created directory " ++ inQuotes shown) else fine tree
        go shown rest next

/-- Makes directories, with those above them if it is told to. -/
def mkdir : Tool := fun _ _ words => do
  let tool := words.headD []
  let known : Known := ⟨"m:pvZ", [("mode", 'm'), ("parents", 'p'), ("verbose", 'v')]⟩
  let (given, names) ← options known 1 words
  if names.isEmpty then misused tool 1 "missing operand"
  forEach names fun tree name =>
    let failed (cause : Refusal) : Outcome :=
      blames tree (tool ++ ": cannot create directory " ++ quoted name ++ ": " ++ cause.words)
    if name.isEmpty then failed .noSuchEntry
    else if has given 'p' then makeAll tree tool (has given 'v') name
    else
      match System.locate tree ((name.reverse.dropWhile (· == '/')).reverse) with
      | .error cause => if name.all (· == '/') then failed .alreadyThere else failed cause
      | .ok (_, some _) => failed .alreadyThere
      | .ok (loc, none) =>
        let tree := tree.put loc .directory
        if has given 'v' then tells tree (tool ++ ": created directory " ++ inQuotes name) else fine tree

/-- Removes empty directories. -/
def rmdir : Tool := fun _ _ words => do
  let tool := words.headD []
  let known : Known := ⟨"pvI", [("parents", 'p'), ("verbose", 'v'), ("ignore-fail-on-non-empty", 'I')]⟩
  let (given, names) ← options known 1 words
  if names.isEmpty then misused tool 1 "missing operand"
  let rec remove (fuel : Nat) (tree : FileTree) (name : Text) : Outcome :=
    match fuel with
    | 0 => fine tree
    | fuel + 1 =>
      let start : Outcome :=
        if has given 'v' then tells tree (tool ++ ": removing directory, " ++ inQuotes name) else fine tree
      let failed (words : Text) : Outcome :=
        start.andThen fun tree => blames tree (tool ++ ": failed to remove " ++ inQuotes name ++ ": " ++ words)
      match System.locate tree name with
      | .ok (loc, some .directory) =>
        if !(below tree loc).isEmpty then
          (if has given 'I' then start else failed "Directory not empty")
        else
          let done := start.andThen fun tree => fine (tree.remove loc)
          let parent := (name.reverse.dropWhile (· != '/')).reverse
          let parent := (parent.reverse.dropWhile (· == '/')).reverse
          if has given 'p' && !parent.isEmpty then done.andThen fun tree => remove fuel tree parent else done
      | .ok (_, some (.file _)) => failed Refusal.notDirectory.words
      | .ok (_, none) => failed Refusal.noSuchEntry.words
      | .error cause => failed cause.words
  forEach names fun tree name => remove (name.length + 1) tree name

/-- Removes files, and directories with all that is in them if it is told to. -/
def rm : Tool := fun _ _ words => do
  let tool := words.headD []
  let known : Known := ⟨"dfiIrRv", [("force", 'f'), ("recursive", 'r'), ("dir", 'd'), ("verbose", 'v')]⟩
  let (given, names) ← options known 1 words
  let recursive := has given 'r' || has given 'R'
  let quiet := has given 'f'
  let told := has given 'v'
  if names.isEmpty && !quiet then misused tool 1 "missing operand"
  forEach names fun tree name =>
    let failed (words : Text) : Outcome := blames tree (tool ++ ": cannot remove " ++ inQuotes name ++ ": " ++ words)
    let removed (tree : FileTree) (kind path : Text) : Outcome :=
      if told then tells tree ("removed " ++ kind ++ inQuotes path) else fine tree
    let last := lastName name
    if recursive && name.all (· == '/') && !name.isEmpty then
      (blames tree (tool ++ ": it is dangerous to operate recursively on '/'")).andThen fun tree =>
        blames tree (tool ++ ": use --no-preserve-root to override this failsafe")
    else if recursive && (last = (['.'] : Text) || last = (['.', '.'] : Text)) then
      blames tree (tool ++ ": refusing to remove '.' or '..' directory: skipping " ++ inQuotes name)
    else
      match System.locate tree name with
      | .ok (loc, some (.file _)) => removed (tree.remove loc) [] name
      | .ok (loc, some .directory) =>
        let inner := below tree loc
        if recursive then
          -- what is further down goes first
          let lines := if told then
              (inner.reverse.flatMap fun e =>
                let kind : Text := if e.2 = .directory then "removed directory " else "removed "
                kind ++ inQuotes (pathBelow name (e.1.drop loc.length)) ++ ['\n'])
                ++ "removed directory " ++ inQuotes name ++ ['\n']
            else []
          (tree.remove loc, if lines.isEmpty then [] else [.write 1 lines], 0)
        else if has given 'd' then
          if inner.isEmpty then removed (tree.remove loc) "directory " name else failed "Directory not empty"
        else failed Refusal.isDirectory.words
      | .ok (_, none) => if quiet then fine tree else failed Refusal.noSuchEntry.words
      | .error cause =>
        if quiet && (cause = .noSuchEntry || cause = .notDirectory) then fine tree else failed cause.words

/-- Makes files that are missing. -/
def touch : Tool := fun _ _ words => do
  let tool := words.headD []
  let known : Known := ⟨"acd:fmr:t:", [("no-create", 'c'), ("date", 'd'), ("reference", 'r')]⟩
  let (given, names) ← options known 1 words
  if names.isEmpty then misused tool 1 "missing file operand"
  forEach names fun tree name =>
    match System.locate tree name with
    | .ok (loc, none) =>
      if has given 'c' then fine tree
      else if name.getLast? = some '/' then
        blames tree (tool ++ ": setting times of " ++ inQuotes name ++ ": No such file or directory")
      else fine (tree.put loc (.file []))
    | .ok _ => fine tree
    | .error cause =>
      if name.getLast? = some '/' then
        blames tree (tool ++ ": setting times of " ++ inQuotes name ++ ": " ++ cause.words)
      else if has given 'c' && cause = .noSuchEntry then fine tree
      else blames tree (tool ++ ": cannot touch " ++ inQuotes name ++ ": " ++ cause.words)

/-! ## Copying and moving -/

/-- A copy of what is at a location and below it. -/
def copyTree (tree : FileTree) (source target : Location) (entry : Entry) : FileTree :=
  ((below tree source).foldl (fun tree e => tree.put (target ++ e.1.drop source.length) e.2)
    (tree.put target entry))

/-- The sources and the target of a tool, and whether the target is a directory to put them into. -/
def sourcesAndTarget (tool : Text) (given : List Given) (names : List Text) :
    Errand (List Text × Text × Bool) := do
  let tree ← files
  match argument? given 't' with
  | some directory =>
    if names.isEmpty then misused tool 1 "missing file operand"
    if entryAt tree directory != some .directory then
      complain (tool ++ ": target directory " ++ inQuotes directory ++ ": No such file or directory")
      finish 1
    return (names, directory, true)
  | none =>
    match names.reverse with
    | [] => misused tool 1 "missing file operand"
    | [only] => misused tool 1 ("missing destination file operand after " ++ inQuotes only)
    | target :: others =>
      let sources := others.reverse
      if has given 'T' then
        if 1 < sources.length then misused tool 1 ("extra operand " ++ inQuotes target)
        return (sources, target, false)
      let isDirectory := entryAt tree target = some .directory
      if 1 < sources.length && !isDirectory then
        let cause := match System.locate tree target with
          | .ok (_, none) => Refusal.noSuchEntry
          | .ok _ => .notDirectory
          | .error cause => cause
        complain (tool ++ ": target " ++ inQuotes target ++ ": " ++ cause.words)
        finish 1
      return (sources, target, isDirectory)

/-- What is said of a file and its copies, and of those below it. -/
def copyLines (tree : FileTree) (source : Location) (old new : Text) : Text :=
  let line (a b : Text) : Text := inQuotes a ++ " -> " ++ inQuotes b ++ "\n"
  line old new ++ (below tree source).flatMap fun e =>
    let parts := e.1.drop source.length
    line (pathBelow old parts) (pathBelow new parts)

/-- Copies files, and directories if it is told to. -/
def cp : Tool := fun _ _ words => do
  let tool := words.headD []
  let known : Known := ⟨"abdfHiLlnpPrRsS:t:Tuvx", [("archive", 'a'), ("force", 'f'), ("no-clobber", 'n'),
    ("recursive", 'r'), ("target-directory", 't'), ("no-target-directory", 'T'), ("update", 'u'),
    ("verbose", 'v')]⟩
  let (given, names) ← options known 1 words
  let (sources, target, into) ← sourcesAndTarget tool given names
  let recursive := ['r', 'R', 'a'].any (has given)
  forEach sources fun tree source =>
    let blame (t : Text) : Outcome := blames tree (tool ++ ": " ++ t)
    let goalPath := if into then
        let last := lastName source
        if last = (['.'] : Text) || last = (['.', '.'] : Text) then target else inside target last
      else target
    let found := if source = ("/dev/null" : Text) then .ok ([], some (.file [])) else System.locate tree source
    match found with
    | .error cause => blame ("cannot stat " ++ inQuotes source ++ ": " ++ cause.words)
    | .ok (_, none) => blame ("cannot stat " ++ inQuotes source ++ ": " ++ Refusal.noSuchEntry.words)
    | .ok (loc, some entry) =>
      if entry = .directory && !recursive then
        blame ("-r not specified; omitting directory " ++ inQuotes source)
      else if goalPath = ("/dev/null" : Text) then fine tree
      else
        let cannot (cause : Refusal) : Outcome :=
          blame ("cannot create " ++ (if entry = .directory then ("directory " : Text) else "regular file ")
            ++ inQuotes goalPath ++ ": " ++ cause.words)
        match System.locate tree goalPath with
        | .error cause => cannot (if cause = .noSuchEntry && goalPath.getLast? = some '/' then .notDirectory else cause)
        | .ok (goal, there) =>
          let done (tree' : FileTree) : Outcome :=
            (tree', if has given 'v' then [.write 1 (copyLines tree loc source goalPath)] else [], 0)
          if there.isNone && entry != .directory && goalPath.getLast? = some '/' then cannot .notDirectory
          else if goal = loc && entry != .directory then
            blame (inQuotes source ++ " and " ++ inQuotes goalPath ++ " are the same file")
          else
            match entry, there with
            | .file _, some .directory =>
              blame ("cannot overwrite directory " ++ inQuotes goalPath ++ " with non-directory")
            | .directory, some (.file _) =>
              blame ("cannot overwrite non-directory " ++ inQuotes goalPath ++ " with directory " ++ inQuotes source)
            | .directory, _ =>
              if loc.isPrefixOf goal then
                let (tree', _, _) := done (if there.isNone then tree.put goal .directory else tree)
                (tree', [.write 2 (tool ++ ": cannot copy a directory, " ++ inQuotes source ++ ", into itself, "
                  ++ inQuotes goalPath ++ "\n")], 1)
              else done (copyTree tree loc goal .directory)
            | .file _, some (.file _) => if has given 'n' then fine tree else done (tree.put goal entry)
            | .file _, none => done (tree.put goal entry)

/-- Moves files and directories. -/
def mv : Tool := fun _ _ words => do
  let tool := words.headD []
  let known : Known := ⟨"bfinS:t:Tuv", [("force", 'f'), ("no-clobber", 'n'), ("target-directory", 't'),
    ("no-target-directory", 'T'), ("update", 'u'), ("verbose", 'v')]⟩
  let (given, names) ← options known 1 words
  let (sources, target, into) ← sourcesAndTarget tool given names
  forEach sources fun tree source =>
    let blame (t : Text) : Outcome := blames tree (tool ++ ": " ++ t)
    let goalPath := if into then inside target (lastName source) else target
    match System.locate tree source with
    | .error cause => blame ("cannot stat " ++ inQuotes source ++ ": " ++ cause.words)
    | .ok (_, none) => blame ("cannot stat " ++ inQuotes source ++ ": " ++ Refusal.noSuchEntry.words)
    | .ok (loc, some entry) =>
      let cannot (words : Text) : Outcome :=
        blame ("cannot move " ++ inQuotes source ++ " to " ++ inQuotes goalPath ++ ": " ++ words)
      match System.locate tree goalPath with
      | .error cause => cannot cause.words
      | .ok (goal, there) =>
        let done : Outcome :=
          let moved := (copyTree (tree.remove goal) loc goal entry).remove loc
          if has given 'v' then tells moved ("renamed " ++ inQuotes source ++ " -> " ++ inQuotes goalPath)
          else fine moved
        if there.isNone && entry != .directory && goalPath.getLast? = some '/' then cannot Refusal.notDirectory.words
        else if goal = loc then blame (inQuotes source ++ " and " ++ inQuotes goalPath ++ " are the same file")
        else if entry = .directory && loc.isPrefixOf goal then
          blame ("cannot move " ++ inQuotes source ++ " to a subdirectory of itself, " ++ inQuotes goalPath)
        else
          match entry, there with
          | .file _, some .directory =>
            blame ("cannot overwrite directory " ++ inQuotes goalPath ++ " with non-directory")
          | .directory, some (.file _) =>
            blame ("cannot overwrite non-directory " ++ inQuotes goalPath ++ " with directory " ++ inQuotes source)
          | .directory, some .directory =>
            if (below tree goal).isEmpty then done else cannot "Directory not empty"
          | _, some _ => if has given 'n' then fine tree else done
          | _, none => done

/-- Gives files further names; here each name has a file of its own from then on. -/
def ln : Tool := fun _ _ words => do
  let tool := words.headD []
  let known : Known := ⟨"bfinrsS:t:TvLP", [("force", 'f'), ("symbolic", 's'), ("target-directory", 't'),
    ("no-target-directory", 'T'), ("verbose", 'v')]⟩
  let (given, names) ← options known 1 words
  let soft := has given 's'
  let (sources, target, into) ← match names with
    | [only] => do
      if given.isEmpty || !has given 't' then pure ([only], ['.'], true) else sourcesAndTarget tool given names
    | _ => sourcesAndTarget tool given names
  forEach sources fun tree source =>
    let goalPath := if into then inside target (lastName source) else target
    let from_ := if soft && into && source.head? != some '/' then inside target source else source
    match System.locate tree from_, System.locate tree goalPath with
    | .ok (_, some (.file bytes)), .ok (goal, there) =>
      if there.isSome && !has given 'f' then
        blames tree (tool ++ ": failed to create " ++ (if soft then ("symbolic" : Text) else "hard") ++ " link "
          ++ inQuotes goalPath ++ ": File exists")
      else fine (tree.put goal (.file bytes))
    | .ok (loc, some .directory), .ok (goal, none) =>
      if soft then fine (copyTree tree loc goal .directory)
      else blames tree (tool ++ ": " ++ source ++ ": hard link not allowed for directory")
    | .ok (_, some .directory), _ =>
      blames tree (tool ++ ": " ++ source ++ ": hard link not allowed for directory")
    | _, .error cause =>
      blames tree (tool ++ ": failed to create " ++ (if soft then ("symbolic" : Text) else "hard") ++ " link "
        ++ inQuotes goalPath ++ ": " ++ cause.words)
    | .error cause, _ => blames tree (tool ++ ": failed to access " ++ inQuotes source ++ ": " ++ cause.words)
    | .ok (_, none), _ =>
      blames tree (tool ++ ": failed to access " ++ inQuotes source ++ ": " ++ Refusal.noSuchEntry.words)

/-! ## Who may run what -/

/-- A mode gives or takes the right to run a file; none if it is no mode. -/
def runnable? (old : Bool) (mode : Text) : Option Bool :=
  if !mode.isEmpty && mode.all (fun c => '0' ≤ c && c ≤ '7') then
    let n := Raw.octalOf mode
    some (n % 2 = 1 || n / 8 % 2 = 1 || n / 64 % 2 = 1)
  else
    (Raw.fields ',' mode).foldlM (fun old change =>
      match change.dropWhile (("ugoa".toList).contains ·) with
      | sign :: letters =>
        if !("+-=".toList).contains sign || !letters.all (("rwxXstugo".toList).contains ·) then none
        else if sign == '=' then some (letters.contains 'x')
        else if letters.contains 'x' then some (sign == '+')
        else some old
      | [] => none) old

/-- Changes who may run files. -/
def chmod : Tool := fun _ _ words => do
  let tool := words.headD []
  -- a mode may start with a hyphen
  let isMode (t : Text) : Bool := match t with
    | '-' :: c :: rest => (c :: rest).all (("rwxXst".toList).contains ·)
    | _ => false
  let others := words.filter (!isMode ·)
  let known : Known := ⟨"Rcfv", [("recursive", 'R'), ("changes", 'c'), ("silent", 'f'), ("quiet", 'f'),
    ("verbose", 'v')]⟩
  let (given, names) ← options known 1 others
  let (mode, names) ← match (words.drop 1).find? isMode, names with
    | some mode, _ => pure (mode, names)
    | none, mode :: rest => pure (mode, rest)
    | none, [] => misused tool 1 "missing operand"
  if (runnable? false mode).isNone then
    if names.isEmpty then misused tool 1 ("missing operand after " ++ quoted mode)
    complain (tool ++ ": invalid mode: " ++ quoted mode)
    complain ("Try '" ++ tool ++ " --help' for more information.")
    finish 1
  if names.isEmpty then misused tool 1 ("missing operand after " ++ quoted mode)
  each tool mode (has given 'R') 0 names
where
  /-- Files in turn. -/
  each (tool mode : Text) (recursive : Bool) (status : Nat) : List Text → Errand Nat
    | [] => return status
    | name :: rest => do
      let (tree, permitted) ← permissions
      match System.locate tree name with
      | .ok (loc, some entry) =>
        let locs := loc :: (if recursive then (below tree loc).map (·.1) else [])
        if entry != .directory || recursive then
          locs.forM fun loc =>
            tell (.permit loc ((runnable? (permitted.contains loc) mode).getD false))
        each tool mode recursive status rest
      | .ok (_, none) =>
        complain (tool ++ ": cannot access " ++ inQuotes name ++ ": " ++ Refusal.noSuchEntry.words)
        each tool mode recursive 1 rest
      | .error cause =>
        complain (tool ++ ": cannot access " ++ inQuotes name ++ ": " ++ cause.words)
        each tool mode recursive 1 rest
  /-- The files, and which of them may be run. -/
  permissions : Errand (FileTree × List Location) := fun next => .look fun tree permitted => next (tree, permitted)

/-! ## Names that nobody has -/

/-- A letter of a name that nobody has. -/
def freshLetter (n : Nat) : Char :=
  ("abcdefghijklmnopqrstuvwxyzABCDEFGHIJKLMNOPQRSTUVWXYZ0123456789".toList).getD (n % 62) 'a'

/-- Makes files or directories with names that nobody has. -/
def mktemp : Tool := fun _ environment words => do
  let tool := words.headD []
  let known : Known := ⟨"dqup::tS:", [("directory", 'd'), ("quiet", 'q'), ("dry-run", 'u'), ("tmpdir", 'p'),
    ("suffix", 'S')]⟩
  let words := words.foldr (fun t (rest : List Text) =>
    match t, rest with
    | ['-', 'p'], directory :: others => ("-p" ++ directory) :: others
    | _, _ => t :: rest) []
  let (given, names) ← options known 1 words
  let standard := (environment.lookup ("TMPDIR" : Text)).getD "/tmp"
  let template := names.headD "tmp.XXXXXXXXXX"
  let directory : Option Text :=
    if has given 'p' then some ((argument? given 'p').getD standard)
    else if has given 't' || names.isEmpty then some standard
    else none
  let count := (template.reverse.takeWhile (· == 'X')).length
  if count < 3 then
    complain (tool ++ ": too few X's in template " ++ quoted template)
    return 1
  let ending := (argument? given 'S').getD []
  let pathFor (seed : Nat) : Text :=
    let letters := (List.range count).map fun i => freshLetter (seed * 7 + i * 31 + seed * i)
    let name := template.take (template.length - count) ++ letters ++ ending
    match directory with
    | some d => inside d name
    | none => name
  let kind : Text := if has given 'd' then "directory" else "file"
  let outcome ← ask (.change fun tree =>
    let seed? := (List.range 1000).find? fun seed => (entryAt tree (pathFor seed)).isNone
    let path := pathFor (seed?.getD 0)
    match System.locate tree path with
    | .ok (loc, none) =>
      let tree := if has given 'u' then tree else tree.put loc (if has given 'd' then .directory else .file [])
      tells tree path
    | .ok _ => fine tree
    | .error cause =>
      blames tree (tool ++ ": failed to create " ++ kind ++ " via template " ++ quoted (match directory with
        | some d => inside d template
        | none => template) ++ ": " ++ cause.words))
  match outcome with
  | .steps list status =>
    list.forM fun step => match step with
      | .write channel bytes => do
        let _ ← ask (.write channel bytes)
      | .run _ _ => pure ()
    return status
  | _ => return 1

end FlowTypes.Script.Tool
