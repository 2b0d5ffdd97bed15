import FlowTypes.Script.Raw

/-!
# Blanks as tabs

Blanks that reach up to a tab stop are replaced by a tab. A single blank before a tab stop stays as it is, unless
more blanks or a tab follow.
-/

namespace FlowTypes.Script.Blanks

/-- A line with tabs for blanks. The blanks since the last stop or other character are held back: how many they
are, and what is written for those before the last stop. -/
def intoTabs (size : Nat) (everywhere : Bool) (line : Text) : Text := go 0 0 true line
where
  /-- `column` is the column of the next character, `held` the number of blanks held back before it. -/
  go (column held : Nat) (active : Bool) : Text → Text
    | [] => List.replicate held ' '
    | c :: rest =>
      if active && c == ' ' then
        let next := column + 1
        if next % size = 0 then
          if held = 0 && rest.head? != some ' ' && rest.head? != some '\t' then ' ' :: go next 0 active rest
          else '\t' :: go next 0 active rest
        else go next (held + 1) active rest
      else if active && c == '\t' then '\t' :: go (column + size - column % size) 0 active rest
      else List.replicate held ' ' ++ c :: go (column + 1) 0 everywhere rest

end FlowTypes.Script.Blanks
