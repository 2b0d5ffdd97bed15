import FlowTypes.FileTree
import FlowTypes.FileTree.Wildcard

/-!
# Globs

A glob selects paths below a directory, component by component: a wildcard pattern selects among the
names in a directory, a plain component is taken as it is, and `**` stands for any number of directories
including none. A component with more behind it has to be a directory, and so has the last one of a glob
that ends with a slash.

A glob must not start with a slash, and two stars must be a component of their own.
-/

namespace FlowTypes.Glob

/-- One component of a glob. -/
inductive Component where
  | directories
  | names (marks : List Wildcard.Mark)
  | exact (name : Text)
  deriving DecidableEq, Repr

/-- Two stars side by side. -/
def hasTwoStars : Text → Bool
  | '*' :: '*' :: _ => true
  | _ :: rest => hasTwoStars rest
  | [] => false

/-- The component that a text stands for. -/
def component (t : Text) : Except FileFault Component :=
  if t = ['*', '*'] then .ok .directories
  else if hasTwoStars t then .error .misplacedStars
  else if Wildcard.isPattern t then .ok (.names (Wildcard.marks t))
  else .ok (.exact t)

/-- A glob: its components, and whether it ends with a slash. -/
structure Pattern where
  components : List Component
  onlyDirectories : Bool
  deriving DecidableEq, Repr

/-- The glob that a text stands for. -/
def read (t : Text) : Except FileFault Pattern := do
  if t.head? = some '/' then throw .anchoredPattern
  let components ← (Path.components t).mapM component
  pure ⟨components, t.getLast? = some '/'⟩

/-- The names in the directory at a path. -/
def namesAt (tree : FileTree) (path : Path) : List (Text × Option Entry) :=
  match tree.locate path with
  | .ok loc => (tree.namesIn loc).map fun name => (name, tree.get? (loc ++ [name]))
  | .error _ => []

/-- The paths of the directory at a path and of all directories below it. -/
def directoriesAt (tree : FileTree) (path : Path) : List Path :=
  match tree.locate path with
  | .ok loc =>
    path :: tree.entries.filterMap fun e =>
      if e.2 = .directory && loc.isPrefixOf e.1 && e.1 != loc then
        some ⟨path.slashes, path.parts ++ e.1.drop loc.length⟩
      else none
  | .error _ => []

/-- The paths that the components select from a path on. -/
def selectFrom (tree : FileTree) (onlyDirectories : Bool) :
    List Component → Path → Except FileFault (List Path)
  | [], path => .ok [path]
  | .exact name :: rest, path => do
    let next := path.child name
    let there ← if rest.isEmpty && !onlyDirectories then tree.pathExists next else tree.isDirectory next
    if there then selectFrom tree onlyDirectories rest next else pure []
  | .names marks :: rest, path => do
    let candidates := (namesAt tree path).filter fun (name, entry) =>
      Wildcard.fits marks name &&
        ((rest.isEmpty && !onlyDirectories) || entry = some .directory)
    let selected ← candidates.mapM fun (name, _) =>
      selectFrom tree onlyDirectories rest (path.child name)
    pure selected.flatten
  | .directories :: rest, path => do
    let selected ← (directoriesAt tree path).mapM fun directory =>
      selectFrom tree onlyDirectories rest directory
    -- several directories may lead to one path when `**` stands twice
    pure selected.flatten.eraseDups

/-- The paths below a directory that a glob selects; none if there is no such directory. -/
def select (tree : FileTree) (base : Path) (glob : Text) : Except FileFault (List Path) := do
  let pattern ← read glob
  if ← tree.isDirectory base then selectFrom tree pattern.onlyDirectories pattern.components base
  else pure []

/-- The files below a directory that a glob selects, in the order of their components. -/
def files (tree : FileTree) (base : Path) (glob : Text) : Except FileFault (List Path) := do
  let selected ← select tree base glob
  let kept ← selected.filterM fun path => tree.isFile path
  pure (kept.mergeSort Path.le)

end FlowTypes.Glob
