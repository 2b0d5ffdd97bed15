import FlowTypes.Patching
import FlowTypes.Proofs.FileTree.Under
import FlowTypes.Proofs.Text.Encoding

/-!
# Edits of files by name

What an edit makes of the file under a name is said without a tree (`Rule.amendEntry`): nothing where nothing is, the
file with the amended text where there is a text, and a failure otherwise. The edit of a file in an open directory does
this to its entry and changes nothing else (`Rule.amendFile_ok`, `Rule.amendFile_error`), and the edits of several files
do it to each of them (`Rule.amendFiles_ok`, `Rule.amendFiles_error`).

A file is written only if its text changes (`Rule.changesEntry`), so a locked file fails no edit that has nothing to do.
-/

namespace FlowTypes

namespace Rule

/-! ## One entry -/

/-- What an edit makes of an entry, or nothing if it fails over it. -/
def amendEntry (r : Rule) (placement : Placement) (anchor : Anchor) :
    Option Entry → Option (Option Entry)
  | none => some none
  | some .directory => none
  | some (.file bytes) =>
    match FileTree.textOf bytes with
    | .error _ => none
    | .ok t =>
      let patched := Patch.amend placement anchor r.content t
      some (some (.file (if patched.text = t then bytes else Utf8.encode patched.text)))

/-- The edit changes the text of the entry, so its file has to be written. -/
def changesEntry (r : Rule) (placement : Placement) (anchor : Anchor) : Option Entry → Bool
  | none | some .directory => false
  | some (.file bytes) =>
    match FileTree.textOf bytes with
    | .error _ => false
    | .ok t => decide ((Patch.amend placement anchor r.content t).text ≠ t)

/-- The edit is not kept from what it does by a lock. -/
def mayAmend (r : Rule) (placement : Placement) (anchor : Anchor) (free : Bool) (entry : Option Entry) : Bool :=
  free || !r.changesEntry placement anchor entry

/-- An edit that need not write leaves the entry as it is. -/
theorem eq_of_changesEntry {r : Rule} {placement : Placement} {anchor : Anchor} {entry entry' : Option Entry}
    (hchanges : r.changesEntry placement anchor entry = false)
    (h : r.amendEntry placement anchor entry = some entry') : entry' = entry := by
  cases entry with
  | none => cases h; rfl
  | some old =>
    cases old with
    | directory => cases h
    | file bytes =>
      simp only [changesEntry, amendEntry] at hchanges h
      cases ht : FileTree.textOf bytes with
      | error fault => rw [ht] at h; cases h
      | ok t =>
        simp only [ht, decide_eq_false_iff_not, ne_eq, Decidable.not_not] at hchanges h
        rw [if_pos hchanges] at h
        exact (Option.some.inj h).symm

theorem amendEntry_ne_directory {r : Rule} {placement : Placement} {anchor : Anchor}
    {entry : Option Entry} : r.amendEntry placement anchor entry ≠ some (some .directory) := by
  unfold amendEntry
  split
  · nofun
  · nofun
  · split <;> nofun

/-! ## One file -/

section
variable {r : Rule} {placement : Placement} {anchor : Anchor} {tree : FileTree} {out : Path}
  {loc : Location} {name : Text}

/-- The edit of a file that can be reached. -/
theorem amendFile_child (h : tree.Opens out loc) (hname : name ≠ ['.', '.'])
    (hreach : out.reaches name = true) :
    r.amendFile placement anchor tree (out.child name) =
      match tree.under loc name with
      | none => (tree, .ok ⟨r, name, .artifactMissing, 0⟩)
      | some .directory => (tree, .error (.refused .isDirectory (out.child name).text))
      | some (.file bytes) =>
        match FileTree.textOf bytes with
        | .error fault => (tree, .error fault)
        | .ok t =>
          let patched := Patch.amend placement anchor r.content t
          if r.mayAmend placement anchor (tree.writable loc name) (some (.file bytes)) = true then
            (if patched.text = t then tree else tree.put (loc ++ [name]) (.file (Utf8.encode patched.text)),
              .ok ⟨r, name, patched.status, patched.edits⟩)
          else (tree, .error (.refused .permissionDenied (out.child name).text)) := by
  unfold amendFile FileTree.readText FileTree.under
  rw [FileTree.readBytes_child h hname hreach, Path.name_child]
  cases hget : tree.get? (loc ++ [name]) with
  | none => rfl
  | some entry =>
    cases entry with
    | directory => rfl
    | file bytes =>
      simp only [bind, Except.bind]
      cases ht : FileTree.textOf bytes with
      | error fault =>
        obtain ⟨fault, rfl⟩ := FileTree.textOf_error ht
        rfl
      | ok t =>
        simp only [mayAmend, changesEntry, ht]
        split
        · rename_i hsame
          simp [hsame]
        · rename_i hchanged
          rw [FileTree.writeText, FileTree.writeBytes_child h hname hreach, hget, if_neg (by simp),
            FileTree.putAt_child]
          cases tree.writable loc name <;> simp [hchanged]

theorem amendFile_of_not_reaches (h : tree.Opens out loc) (hname : name ≠ ['.', '.'])
    (hreach : out.reaches name = false) :
    ∃ fault, r.amendFile placement anchor tree (out.child name) = (tree, .error fault) ∧
      fault.ofEntry = false := by
  obtain ⟨fault, hfault, hentry, hne⟩ := FileTree.readBytes_of_not_reaches h hname hreach
  refine ⟨fault, ?_, hentry⟩
  unfold amendFile FileTree.readText
  rw [hfault]
  cases fault with
  | refused cause path => cases cause <;> first | rfl | exact absurd rfl (hne path)
  | _ => rfl

/-- What an edit of one file leaves. -/
theorem amendFile_ok (h : tree.Opens out loc) (hname : name ≠ ['.', '.']) {tree' : FileTree}
    {outcome : Outcome} (hok : r.amendFile placement anchor tree (out.child name) = (tree', .ok outcome)) :
    FileTree.SameOutside loc tree tree' ∧ out.reaches name = true ∧
      r.amendEntry placement anchor (tree.under loc name) = some (tree'.under loc name) ∧
      r.mayAmend placement anchor (tree.writable loc name) (tree.under loc name) = true ∧
      (∀ name', name' ≠ name → tree'.under loc name' = tree.under loc name') ∧
      (outcome.status = .applied → ∃ bytes t, tree.under loc name = some (.file bytes) ∧
        FileTree.textOf bytes = .ok t ∧ (Patch.amend placement anchor r.content t).status = .applied) := by
  cases hreach : out.reaches name with
  | false =>
    obtain ⟨fault, hfault, -⟩ := @amendFile_of_not_reaches r placement anchor _ _ _ _ h hname hreach
    rw [hfault] at hok
    cases hok
  | true =>
    rw [amendFile_child h hname hreach] at hok
    unfold amendEntry
    cases hunder : tree.under loc name with
    | none =>
      rw [hunder] at hok
      cases hok
      exact ⟨.refl _ _, rfl, by rw [hunder], by simp [mayAmend, changesEntry], fun _ _ => rfl, nofun⟩
    | some entry =>
      cases entry with
      | directory => rw [hunder] at hok; cases hok
      | file bytes =>
        simp only [hunder] at hok ⊢
        cases ht : FileTree.textOf bytes with
        | error fault => rw [ht] at hok; cases hok
        | ok t =>
          simp only [ht] at hok ⊢
          by_cases hmay : r.mayAmend placement anchor (tree.writable loc name) (some (.file bytes)) = true
          case neg => rw [if_neg hmay] at hok; cases hok
          simp only [if_pos hmay, Prod.mk.injEq, Except.ok.injEq] at hok
          obtain ⟨rfl, rfl⟩ := hok
          refine ⟨?_, trivial, ?_, hmay, fun name' hne => ?_, fun hs => ⟨bytes, t, rfl, ht, hs⟩⟩
          · split
            · exact .refl _ _
            · exact FileTree.sameOutside_put _ (by simp [hunder])
          · split
            · rw [hunder]
            · rw [FileTree.under_put, if_pos rfl]
          · split
            · rfl
            · rw [FileTree.under_put, if_neg hne]

theorem amendFile_error (h : tree.Opens out loc) (hname : name ≠ ['.', '.']) {tree' : FileTree}
    {fault : FileFault}
    (herror : r.amendFile placement anchor tree (out.child name) = (tree', .error fault)) :
    tree' = tree ∧ (out.reaches name = true →
      r.mayAmend placement anchor (tree.writable loc name) (tree.under loc name) = false ∨
        fault.ofEntry = true ∧ r.amendEntry placement anchor (tree.under loc name) = none) := by
  cases hreach : out.reaches name with
  | false =>
    obtain ⟨fault, hfault, -⟩ := @amendFile_of_not_reaches r placement anchor _ _ _ _ h hname hreach
    rw [hfault] at herror
    cases herror
    exact ⟨rfl, nofun⟩
  | true =>
    rw [amendFile_child h hname hreach] at herror
    unfold amendEntry
    cases hunder : tree.under loc name with
    | none => rw [hunder] at herror; cases herror
    | some entry =>
      cases entry with
      | directory =>
        rw [hunder] at herror
        cases herror
        exact ⟨rfl, fun _ => .inr ⟨rfl, rfl⟩⟩
      | file bytes =>
        simp only [hunder] at herror ⊢
        cases ht : FileTree.textOf bytes with
        | error fault' =>
          rw [ht] at herror
          cases herror
          obtain ⟨cause, rfl⟩ := FileTree.textOf_error ht
          exact ⟨rfl, fun _ => .inr ⟨rfl, rfl⟩⟩
        | ok t =>
          simp only [ht] at herror
          by_cases hmay : r.mayAmend placement anchor (tree.writable loc name) (some (.file bytes)) = true
          case pos => rw [if_pos hmay] at herror; cases herror
          rw [if_neg hmay] at herror
          exact ⟨(congrArg Prod.fst herror).symm, fun _ => .inl (Bool.eq_false_iff.mpr hmay)⟩

/-! ## Some files -/

/-- What the edits of several files leave, one after the other. -/
theorem amendFiles_ok :
    ∀ {names : List Text} {tree tree' : FileTree} {outcomes : List Outcome}, tree.Opens out loc →
      names.Nodup → (∀ name ∈ names, name ≠ ['.', '.']) →
        r.amendFiles placement anchor tree (names.map out.child) = (tree', .ok outcomes) →
          FileTree.SameOutside loc tree tree' ∧
            (∀ name ∈ names, out.reaches name = true ∧
              r.amendEntry placement anchor (tree.under loc name) = some (tree'.under loc name) ∧
              r.mayAmend placement anchor (tree.writable loc name) (tree.under loc name) = true) ∧
            (∀ name, name ∉ names → tree'.under loc name = tree.under loc name) ∧
            ∀ o ∈ outcomes, o.status = .applied → ∃ name ∈ names, ∃ bytes t,
              tree.under loc name = some (.file bytes) ∧ FileTree.textOf bytes = .ok t ∧
                (Patch.amend placement anchor r.content t).status = .applied
  | [], tree, tree', outcomes, _, _, _, hok => by
    cases hok
    exact ⟨.refl _ _, nofun, fun _ _ => rfl, nofun⟩
  | name :: names, tree, tree', outcomes, h, hnodup, hne, hok => by
    obtain ⟨hnotin, hnodup⟩ := List.nodup_cons.mp hnodup
    obtain ⟨treeFirst, outcome, more, hfirst, hrest, rfl⟩ := amendFiles_cons_ok_iff.mp hok
    obtain ⟨hsame, hreach, hentry, hmay, hothers, happlied⟩ :=
      amendFile_ok h (hne name List.mem_cons_self) hfirst
    obtain ⟨hsame', hentries, hothers', happlied'⟩ := amendFiles_ok (hsame.opens h) hnodup
      (fun name hm => hne name (List.mem_cons_of_mem _ hm)) hrest
    have hlater : ∀ name' ∈ names, treeFirst.under loc name' = tree.under loc name' :=
      fun name' hm => hothers name' fun e => hnotin (e ▸ hm)
    refine ⟨hsame.trans hsame', fun name' hm => ?_, fun name' hm => ?_, fun o ho hs => ?_⟩
    · rcases List.mem_cons.mp hm with rfl | hm
      · exact ⟨hreach, by rw [hothers' name' hnotin]; exact hentry, hmay⟩
      · rw [← hlater name' hm, ← hsame.writable]
        exact hentries name' hm
    · rw [hothers' name' fun hm' => hm (List.mem_cons_of_mem _ hm')]
      exact hothers name' fun e => hm (e ▸ List.mem_cons_self)
    · rcases List.mem_cons.mp ho with rfl | ho
      · exact ⟨name, List.mem_cons_self, happlied hs⟩
      · obtain ⟨name', hm, bytes, t, hunder, ht⟩ := happlied' o ho hs
        exact ⟨name', List.mem_cons_of_mem _ hm, bytes, t, by rw [← hlater name' hm]; exact hunder, ht⟩

/-- What is left when one of several edits fails. -/
theorem amendFiles_error :
    ∀ {names : List Text} {tree tree' : FileTree} {fault : FileFault}, tree.Opens out loc →
      names.Nodup → (∀ name ∈ names, name ≠ ['.', '.']) →
        r.amendFiles placement anchor tree (names.map out.child) = (tree', .error fault) →
          FileTree.SameOutside loc tree tree' ∧
            (∀ name, tree'.under loc name = tree.under loc name ∨ name ∈ names ∧
              out.reaches name = true ∧
                r.amendEntry placement anchor (tree.under loc name) = some (tree'.under loc name) ∧
                  r.mayAmend placement anchor (tree.writable loc name) (tree.under loc name) = true) ∧
            ∃ name ∈ names, out.reaches name = true →
              r.mayAmend placement anchor (tree.writable loc name) (tree.under loc name) = false ∨
                fault.ofEntry = true ∧ r.amendEntry placement anchor (tree.under loc name) = none
  | name :: names, tree, tree', fault, h, hnodup, hne, herror => by
    obtain ⟨hnotin, hnodup⟩ := List.nodup_cons.mp hnodup
    rcases amendFiles_cons_error_iff.mp herror with hfirst | ⟨treeFirst, outcome, hfirst, hrest⟩
    · obtain ⟨rfl, hfails⟩ := amendFile_error h (hne name List.mem_cons_self) hfirst
      exact ⟨.refl _ _, fun _ => .inl rfl, name, List.mem_cons_self, hfails⟩
    · obtain ⟨hsame, hreach, hentry, hmay, hothers, -⟩ :=
        amendFile_ok h (hne name List.mem_cons_self) hfirst
      obtain ⟨hsame', hentries, name', hm, hfails⟩ := amendFiles_error (hsame.opens h) hnodup
        (fun name hm => hne name (List.mem_cons_of_mem _ hm)) hrest
      refine ⟨hsame.trans hsame', fun name'' => ?_, name', List.mem_cons_of_mem _ hm, ?_⟩
      · by_cases hn : name'' = name
        · subst hn
          rcases hentries name'' with hstays | ⟨hm', -⟩
          · exact .inr ⟨List.mem_cons_self, hreach, by rw [hstays]; exact hentry, hmay⟩
          · exact absurd hm' hnotin
        · rw [← hothers name'' hn, ← hsame.writable]
          exact (hentries name'').imp_right fun ⟨hm', hr⟩ => ⟨List.mem_cons_of_mem _ hm', hr⟩
      · rw [← hothers name' fun e => hnotin (e ▸ hm), ← hsame.writable]
        exact hfails

end

end Rule

end FlowTypes
