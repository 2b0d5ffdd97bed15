import FlowTypes.Catalog

/-!
# Listing rules

Rules can be listed as a table, all of them or those whose name or target holds a text, whatever the
letter case. Columns are as wide as their widest entry, and widths count code points.
-/

namespace FlowTypes.Catalog

/-- The rules whose name or target holds the text in lower case; without a text, or with an empty one,
all rules. -/
def filterByText (rules : List Rule) (filter : Option Text) : List Rule :=
  match filter with
  | none | some [] => rules
  | some t =>
    let needle := Text.lower t
    rules.filter fun rule =>
      Occurrence.occursIn needle (Text.lower rule.name) ||
        Occurrence.occursIn needle (Text.lower rule.target)

/-- The greatest length of the texts. -/
def widest (ts : List Text) : Nat := (ts.map List.length).foldl max 0

/-- One line of the table. -/
def tableLine (nameWidth editWidth : Nat) (phase name edit target : Text) : Text :=
  "  " ++ Text.padLeft 5 phase ++ "  " ++ Text.padRight nameWidth name ++ "  "
    ++ Text.padRight editWidth edit ++ "  " ++ target ++ "\n"

/-- The table of the rules, with their number below it. -/
def table (rules : List Rule) : Text :=
  if rules.isEmpty then "No patch rules match.\n"
  else
    let line := tableLine (widest (rules.map (·.name))) (widest (rules.map (·.edit.text)))
    line "Phase" "Rule" "Edit" "Target"
      ++ rules.flatMap (fun r => line (Text.ofInt r.phase) r.name r.edit.text r.target)
      ++ "\n  " ++ Text.ofNat rules.length ++ " rules\n"

/-- What is filtered is a part of the rules in their order. -/
theorem filterByText_sublist (rules : List Rule) (filter : Option Text) :
    (filterByText rules filter).Sublist rules := by
  unfold filterByText
  split
  · exact List.Sublist.refl _
  · exact List.Sublist.refl _
  · exact List.filter_sublist

end FlowTypes.Catalog
