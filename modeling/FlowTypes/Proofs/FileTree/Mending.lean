import FlowTypes.Proofs.FileTree.Child

/-!
# Mending a directory

Entries of a directory that stand in the way are mended: each goes away with all below it, and a file may take
its place (`mend`). What a location holds afterwards depends on what it held only where nothing was mended
(`get?_mend`).

A way that comes past something below an entry passes the entry itself, unless it ends there
(`mem_wayFrom_of_below`). So where mending touches the way of a path, the path itself leads past a mended entry.
-/

namespace FlowTypes

/-- What becomes of an entry: a file with these bytes, or nothing. -/
structure Fix where
  name : Text
  bytes : Option (List UInt8)
  deriving DecidableEq, Repr

namespace FileTree

/-! ## Mending -/

/-- The entry that a fix names goes away with all below it, and the file takes its place. -/
def mendOne (loc : Location) (tree : FileTree) (fix : Fix) : FileTree :=
  match fix.bytes with
  | none => tree.remove (loc ++ [fix.name])
  | some bytes => (tree.remove (loc ++ [fix.name])).put (loc ++ [fix.name]) (.file bytes)

/-- The fixes are made one after the other in the directory at a location. -/
def mend (loc : Location) (fixes : List Fix) (tree : FileTree) : FileTree :=
  fixes.foldl (mendOne loc) tree

/-- What a fix leaves at a location, if it touches it. -/
def mendedOne (loc : Location) (fix : Fix) (l : Location) : Option (Option Entry) :=
  if loc ++ [fix.name] <+: l then some (if l = loc ++ [fix.name] then fix.bytes.map .file else none)
  else none

/-- What the fixes leave at a location, if one of them touches it; the last one counts. -/
def mended (loc : Location) : List Fix → Location → Option (Option Entry)
  | [], _ => none
  | fix :: rest, l => (mended loc rest l).or (mendedOne loc fix l)

section
variable {loc l : Location} {fixes : List Fix}

theorem get?_mendOne (tree : FileTree) (fix : Fix) :
    (mendOne loc tree fix).get? l = (mendedOne loc fix l).getD (tree.get? l) := by
  have hne := append_ne_nil loc fix.name
  unfold mendOne mendedOne
  cases fix.bytes with
  | none =>
    simp only [get?_remove _ _ _ hne]
    split <;> simp
  | some bytes =>
    simp only [get?_put _ _ _ _ hne, get?_remove _ _ _ hne]
    by_cases hl : l = loc ++ [fix.name]
    · simp [hl]
    · simp only [hl, if_false]
      split <;> simp

/-- **What was mended does not depend on what was there, and all else stays.** -/
theorem get?_mend : ∀ (fixes : List Fix) (tree : FileTree) (l : Location),
    (mend loc fixes tree).get? l = (mended loc fixes l).getD (tree.get? l)
  | [], _, _ => rfl
  | fix :: rest, tree, l => by
    show (mend loc rest (mendOne loc tree fix)).get? l = _
    rw [get?_mend rest, get?_mendOne, mended]
    cases mended loc rest l <;> rfl

theorem get?_mend_of_none (h : mended loc fixes l = none) (tree : FileTree) :
    (mend loc fixes tree).get? l = tree.get? l := by
  rw [get?_mend, h]
  rfl

theorem get?_mend_of_some {entry : Option Entry} (h : mended loc fixes l = some entry) (tree : FileTree) :
    (mend loc fixes tree).get? l = entry := by
  rw [get?_mend, h]
  rfl

@[simp] theorem workDir_mend : ∀ (fixes : List Fix) (tree : FileTree),
    (mend loc fixes tree).workDir = tree.workDir
  | [], _ => rfl
  | fix :: rest, tree => by
    show (mend loc rest (mendOne loc tree fix)).workDir = _
    rw [workDir_mend rest, mendOne]
    cases fix.bytes <;> rfl

@[simp] theorem locked_mend : ∀ (fixes : List Fix) (tree : FileTree),
    (mend loc fixes tree).locked = tree.locked
  | [], _ => rfl
  | fix :: rest, tree => by
    show (mend loc rest (mendOne loc tree fix)).locked = _
    rw [locked_mend rest, mendOne]
    cases fix.bytes <;> rfl

/-- Only what is below a mended entry is touched. -/
theorem exists_fix_of_mended : ∀ {fixes : List Fix} {entry : Option Entry},
    mended loc fixes l = some entry → ∃ fix ∈ fixes, loc ++ [fix.name] <+: l
  | fix :: rest, entry, h => by
    rcases Option.or_eq_some_iff.mp h with h | ⟨-, h⟩
    · obtain ⟨fix', hfix, hl⟩ := exists_fix_of_mended h
      exact ⟨fix', List.mem_cons_of_mem _ hfix, hl⟩
    · unfold mendedOne at h
      split at h
      · rename_i hl
        exact ⟨fix, List.mem_cons_self, hl⟩
      · cases h

end

/-! ## Ways past a mended entry -/

/-- **A way that comes past something below a location passes the location**, unless it ends below it. -/
theorem mem_wayFrom_of_below {p l : Location} :
    ∀ {names : List Text} {cur : Location}, l ∈ wayFrom cur names → p <+: l →
      ¬ p <+: follow cur names → p ∈ wayFrom cur names
  | [], cur, hl, hp, hend => by
    rw [List.mem_singleton.mp hl] at hp
    exact absurd hp hend
  | name :: rest, cur, hl, hp, hend => by
    by_cases hcur : p <+: cur
    · by_cases hnext : p <+: next cur name
      · have hmem : next cur name ∈ wayFrom (next cur name) rest := by cases rest <;> simp [wayFrom]
        exact List.mem_cons_of_mem _ (mem_wayFrom_of_below hmem hnext hend)
      · -- only a step up from the location itself leaves what is below it
        obtain ⟨s, rfl⟩ := hcur
        have hs : s = [] := by
          refine Decidable.byContradiction fun hs => hnext ?_
          unfold next
          split
          · rw [List.dropLast_append_of_ne_nil hs]
            exact List.prefix_append p _
          · rw [List.append_assoc]
            exact List.prefix_append p _
        subst hs
        rw [List.append_nil]
        exact List.mem_cons_self
    · rcases List.mem_cons.mp hl with rfl | hl
      · exact absurd hp hcur
      · exact List.mem_cons_of_mem _ (mem_wayFrom_of_below hl hp hend)

end FileTree

end FlowTypes
