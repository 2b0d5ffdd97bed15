import FlowTypes.Proofs.FileTree.Child

/-!
# Entries by name

A text without slashes names an entry of a directory (`Text.isName`), and what is under a name is all that is seen of a
directory by those who work in it (`FileTree.under`). Trees that differ in entries of one directory only agree if they
agree under every name (`SameOutside.get?_eq`).
-/

namespace FlowTypes

/-! ## Paths of one component -/

theorem Path.splitSlash_of_not_mem : ∀ {t : Text}, '/' ∉ t → splitSlash t = [t]
  | [], _ => rfl
  | c :: t, h => by
    have hc : (c == '/') = false := by
      simpa using fun e : c = '/' => h (e ▸ List.mem_cons_self)
    have ih := splitSlash_of_not_mem fun hm => h (List.mem_cons_of_mem c hm)
    rw [splitSlash, hc, ih]
    rfl

theorem Path.components_of_not_mem {t : Text} (h : '/' ∉ t) (hnil : t ≠ []) (hdot : t ≠ ['.']) :
    components t = [t] := by
  rw [components, splitSlash_of_not_mem h]
  simp [hnil, hdot]

theorem Path.ofText_of_not_mem {t : Text} (h : '/' ∉ t) (hnil : t ≠ []) (hdot : t ≠ ['.']) :
    ofText t = ⟨0, [t]⟩ := by
  have hstart : t.takeWhile (· == '/') = [] := by
    obtain ⟨c, rest, rfl⟩ := List.exists_cons_of_ne_nil hnil
    have hc : c ≠ '/' := fun e => h (e ▸ List.mem_cons_self)
    simp [hc]
  rw [ofText, hstart, components_of_not_mem h hnil hdot]
  rfl

/-- A text that names an entry of a directory. -/
def Text.isName (t : Text) : Bool := !t.contains '/' && !([[], ['.'], ['.', '.']].contains t)

theorem Text.isName_iff {t : Text} :
    t.isName = true ↔ '/' ∉ t ∧ t ≠ [] ∧ t ≠ ['.'] ∧ t ≠ ['.', '.'] := by
  simp [isName]

/-- A name leads one component further down. -/
theorem Path.join_ofText {t : Text} (h : t.isName = true) (out : Path) :
    out.join (ofText t) = out.child t := by
  obtain ⟨hslash, hnil, hdot, -⟩ := Text.isName_iff.mp h
  rw [ofText_of_not_mem hslash hnil hdot]
  rfl

/-! ## Entries by name -/

namespace FileTree

/-- The entry under a name of the directory at a location. -/
def under (tree : FileTree) (loc : Location) (name : Text) : Option Entry := tree.get? (loc ++ [name])

/-- The entry under a name may be written. -/
def writable (tree : FileTree) (loc : Location) (name : Text) : Bool := !tree.locked.contains (loc ++ [name])

theorem writable_of_locked {tree tree' : FileTree} (h : tree'.locked = tree.locked) (loc : Location) (name : Text) :
    tree'.writable loc name = tree.writable loc name := by
  simp only [writable, h]

theorem putAt_child (tree : FileTree) (path : Path) (loc : Location) (name : Text) (entry : Entry) :
    tree.putAt path (loc ++ [name]) entry =
      if tree.writable loc name = true then .ok (tree.put (loc ++ [name]) entry)
      else .error (.refused .permissionDenied path.text) := by
  unfold putAt writable
  cases tree.locked.contains (loc ++ [name]) <;> rfl

/-- Two trees differ in entries of the directory at a location only, and have the same directories. -/
structure SameOutside (loc : Location) (tree tree' : FileTree) : Prop extends SameSetting tree tree' where
  outside : ∀ l, (∀ name, l ≠ loc ++ [name]) → tree'.get? l = tree.get? l
  directory : ∀ l, tree'.get? l = some .directory ↔ tree.get? l = some .directory

namespace SameOutside

variable {loc : Location} {tree tree' tree'' : FileTree}

theorem refl (loc : Location) (tree : FileTree) : SameOutside loc tree tree :=
  ⟨.refl tree, fun _ _ => rfl, fun _ => Iff.rfl⟩

theorem trans (h : SameOutside loc tree tree') (h' : SameOutside loc tree' tree'') :
    SameOutside loc tree tree'' where
  toSameSetting := h.toSameSetting.trans h'.toSameSetting
  outside l hl := (h'.outside l hl).trans (h.outside l hl)
  directory l := (h'.directory l).trans (h.directory l)

theorem opens (h : SameOutside loc tree tree') {out : Path} (hopens : tree.Opens out loc) :
    tree'.Opens out loc :=
  hopens.mono ⟨h.workDir, fun l => (h.directory l).mpr⟩

theorem writable (h : SameOutside loc tree tree') (loc' : Location) (name : Text) :
    tree'.writable loc' name = tree.writable loc' name :=
  writable_of_locked h.locked loc' name

/-- Trees that differ in the directory only are the same if its entries are. -/
theorem get?_eq (h : SameOutside loc tree tree') (hunder : ∀ name, tree'.under loc name = tree.under loc name)
    (l : Location) : tree'.get? l = tree.get? l := by
  by_cases hl : ∃ name, l = loc ++ [name]
  · obtain ⟨name, rfl⟩ := hl
    exact hunder name
  · exact h.outside l fun name e => hl ⟨name, e⟩

end SameOutside

theorem under_put (tree : FileTree) (loc : Location) (name name' : Text) (entry : Entry) :
    (tree.put (loc ++ [name]) entry).under loc name' =
      if name' = name then some entry else tree.under loc name' := by
  rw [under, get?_put _ _ _ _ (append_ne_nil loc name)]
  simp [under]

theorem sameOutside_put {tree : FileTree} {loc : Location} {name : Text} (bytes : List UInt8)
    (h : tree.under loc name ≠ some .directory) :
    SameOutside loc tree (tree.put (loc ++ [name]) (.file bytes)) where
  toSameSetting := sameSetting_put tree _ _
  outside l hl := by rw [get?_put _ _ _ _ (append_ne_nil loc name), if_neg (hl name)]
  directory l := by
    rw [get?_put _ _ _ _ (append_ne_nil loc name)]
    split
    · rename_i hl
      subst hl
      exact ⟨nofun, fun hdir => absurd hdir h⟩
    · exact Iff.rfl

end FileTree

end FlowTypes
