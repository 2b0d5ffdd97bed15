import FlowTypes.Catalog.Families
import FlowTypes.Patching

/-!
# The catalog

The rules of all families, checked and in the order of their phases. Two rules of one name are a fault,
since a name has to tell which rule missed; the fault lists every repeated name once.
-/

namespace FlowTypes.Catalog

/-- Why tables give no catalog. -/
inductive BuildFault where
  | rule (fault : RuleFault)
  | duplicateNames (names : List Text)
  deriving DecidableEq, Repr

/-- The fault in words. -/
def BuildFault.message : BuildFault → Text
  | rule fault => fault.message
  | duplicateNames names => "Duplicate patch rule names: " ++ Text.join ", " names

/-- The rules that drafts put down, or the first fault. -/
def checkAll (drafts : List Draft) : Except RuleFault (List Rule) := drafts.mapM Draft.check

/-- The names that several rules have, in ascending order, each one once. -/
def repeatedNames (rules : List Rule) : List Text :=
  let names := rules.map (·.name)
  Text.sortedDistinct (names.filter fun name => 1 < names.count name)

/-- The catalog of some tables. -/
def build (tables : Tables) : Except BuildFault (List Rule) :=
  match checkAll (drafts tables) with
  | .error fault => .error (.rule fault)
  | .ok rules =>
    if (repeatedNames rules).isEmpty then .ok (inOrder rules)
    else .error (.duplicateNames (repeatedNames rules))

/-- The catalog of the bindings. -/
def standard : List Rule := (build .standard).toOption.getD []

end FlowTypes.Catalog
