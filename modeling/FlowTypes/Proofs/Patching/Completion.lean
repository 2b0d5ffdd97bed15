import FlowTypes.Proofs.FileTree.PathText
import FlowTypes.Proofs.Patching.Rest

/-!
# When a run completes

Rules succeed over a directory if every file that they are about is text, no directory has a name that they write
to, and the path of the directory leaves room for names (`exists_applyEach_ok_of_amenable`). What rules need of an
entry is bundled in `Amenable`, and every rule leaves an entry that is amenable to them.
-/

namespace FlowTypes

/-! ## Room for names -/

/-- Every name that is short enough for the system gives a path that is short enough. -/
def Path.leavesRoom (out : Path) : Bool :=
  !out.text.contains '\x00' &&
    decide ((Utf8.encode out.text).length + 1 + FileTree.nameLimit < FileTree.pathLimit)

/-- The text is short enough for a name, whatever its characters are. -/
def Text.isShortName (t : Text) : Bool := !t.contains '\x00' && decide (4 * t.length ≤ FileTree.nameLimit)

/-- **Short names are reached where there is room.** -/
theorem Path.reaches_of_isShortName {out : Path} {name : Text} (hout : out.leavesRoom = true)
    (hname : name.isShortName = true) : out.reaches name = true := by
  simp only [leavesRoom, Text.isShortName, Bool.and_eq_true, Bool.not_eq_true', List.contains_eq_mem,
    decide_eq_true_eq, decide_eq_false_iff_not] at hout hname
  have hbytes := Utf8.length_encode_le name
  obtain ⟨front, htext, hfront⟩ := out.text_child name
  obtain ⟨hnull, hlength⟩ : '\x00' ∉ front ∧ (Utf8.encode front).length ≤ (Utf8.encode out.text).length + 1 := by
    rcases hfront with rfl | ⟨rest, hrest⟩
    · refine ⟨by simpa using hout.1, ?_⟩
      rw [Utf8.length_encode_append]
      exact Nat.le_refl _
    · rw [← hrest] at hout ⊢
      rw [Utf8.length_encode_append]
      exact ⟨fun h => hout.1 (List.mem_append_left _ h), by omega⟩
  refine FileTree.reaches_iff.mpr ⟨?_, ?_, by omega⟩
  · simp [htext, hnull, hname.1]
  · rw [htext, Utf8.length_encode_append]
    omega

/-! ## Amenable entries -/

namespace Catalog

/-- What rules need of the entry under a name so that none of them fails over it. -/
structure Amenable (rules : List Rule) (out : Path) (name : Text) (entry : Option Entry) : Prop where
  reaches : ∀ r ∈ rules, r.meets out name entry = true → out.reaches name = true
  text : ∀ r ∈ rules, r.concerns name = true → ∀ bytes, entry = some (.file bytes) →
    ∃ t, FileTree.textOf bytes = .ok t
  passed : ∀ r ∈ rules, r.concerns name = true → entry = some .directory →
    Wildcard.isPattern r.target = true

section
variable {rules : List Rule} {out : Path} {name : Text} {entry : Option Entry}

theorem Amenable.tail {r : Rule} (h : Amenable (r :: rules) out name entry) :
    Amenable rules out name entry where
  reaches r hr := h.reaches r (List.mem_cons_of_mem _ hr)
  text r hr := h.text r (List.mem_cons_of_mem _ hr)
  passed r hr := h.passed r (List.mem_cons_of_mem _ hr)

/-- Nothing is amenable to rules whose own targets are within reach. -/
theorem amenable_none
    (hreach : ∀ r ∈ rules, Wildcard.isPattern r.target = false → out.reaches r.target = true) :
    Amenable rules out name none where
  reaches r hr hmeets := by
    cases hp : Wildcard.isPattern r.target with
    | true => simp [Rule.meets, hp] at hmeets
    | false =>
      rw [Rule.meets_plain hp] at hmeets
      rw [of_decide_eq_true hmeets]
      exact hreach r hr hp
  text _ _ _ _ := nofun
  passed _ _ _ := nofun

/-- A text within reach is amenable to all rules. -/
theorem amenable_file {bytes : List UInt8} {t : Text} (hreach : out.reaches name = true)
    (ht : FileTree.textOf bytes = .ok t) : Amenable rules out name (some (.file bytes)) where
  reaches _ _ _ := hreach
  text _ _ _ bytes' h := by
    cases h
    exact ⟨t, ht⟩
  passed _ _ _ := nofun

/-- **A rule succeeds over an amenable entry that is not locked**, and what it leaves is amenable. -/
theorem Amenable.revise {r : Rule} (h : Amenable rules out name entry) (hr : r ∈ rules)
    (hsound : r.isSound = true) :
    ∃ entry', r.revise out name true entry = some entry' ∧ Amenable rules out name entry' := by
  cases hmeets : r.meets out name entry with
  | false => exact ⟨entry, Rule.revise_of_not_meets hmeets, h⟩
  | true =>
    have hreach := h.reaches r hr hmeets
    have hconcerns : r.concerns name = true := by
      unfold Rule.meets at hmeets
      exact (Bool.and_eq_true_iff.mp hmeets).1
    have hrevise : r.revise out name true entry = r.rewrite entry := by
      simp [Rule.revise, hmeets, hreach, Rule.mayRevise_true]
    rw [hrevise]
    cases haction : r.action with
    | create =>
      have hp := Rule.not_isPattern_of_create haction
      have hdir : entry ≠ some .directory := fun hdir =>
        Bool.noConfusion (hp.symm.trans (h.passed r hr hconcerns hdir))
      have hcr : '\r' ∉ r.content := by simpa [Rule.isSound, haction] using hsound
      refine ⟨some (.file (Utf8.encode r.content)), by simp [Rule.rewrite, haction, hdir], ?_⟩
      exact amenable_file hreach (FileTree.textOf_encode hcr)
    | amend placement anchor =>
      cases entry with
      | none => exact ⟨none, by simp [Rule.rewrite, haction, Rule.amendEntry], h⟩
      | some old =>
        cases old with
        | directory =>
          have hp := h.passed r hr hconcerns rfl
          exact ⟨some .directory, by simp [Rule.rewrite, haction, hp], h⟩
        | file bytes =>
          obtain ⟨t, ht⟩ := h.text r hr hconcerns bytes rfl
          obtain ⟨entry', hentry⟩ : ∃ entry', r.amendEntry placement anchor (some (.file bytes)) =
              some entry' := by simp [Rule.amendEntry, ht]
          obtain ⟨_, bytes', -, rfl, ht', -⟩ := Rule.amendEntry_file hsound haction hentry
          rw [Rule.rewrite_file haction]
          exact ⟨_, hentry, amenable_file hreach ht'⟩

/-- Rules succeed over an entry that is amenable to them. -/
theorem Amenable.reviseEach_ne_none :
    ∀ {rules : List Rule} {entry : Option Entry}, Amenable rules out name entry →
      (∀ r ∈ rules, r.isSound = true) → reviseEach out name true rules entry ≠ none
  | [], _, _, _ => nofun
  | r :: rest, entry, h, hsound => by
    obtain ⟨entry', hrevise, h'⟩ := h.revise List.mem_cons_self (hsound r List.mem_cons_self)
    rw [reviseEach, hrevise]
    exact h'.tail.reviseEach_ne_none fun r hr => hsound r (List.mem_cons_of_mem _ hr)

/-- **Rules succeed over a directory of amenable entries** without locks. -/
theorem exists_applyEach_ok_of_amenable {tree : FileTree} {loc : Location} (h : tree.Opens out loc)
    (hsingle : ∀ r ∈ rules, r.isSingle = true) (hsound : ∀ r ∈ rules, r.isSound = true)
    (hfree : ∀ name, tree.writable loc name = true)
    (hentries : ∀ name, Amenable rules out name (tree.under loc name)) :
    ∃ tree' outcomes, applyEach tree out rules = (tree', .ok outcomes) :=
  exists_applyEach_ok h hsingle fun name => hfree name ▸ (hentries name).reviseEach_ne_none hsound

/-- **Rules with short targets succeed over a directory of texts** without locks whose path leaves room for names. -/
theorem exists_applyEach_ok_of_texts {tree : FileTree} {loc : Location} (h : tree.Opens out loc)
    (hroom : out.leavesRoom = true) (hsingle : ∀ r ∈ rules, r.isSingle = true) (hsound : ∀ r ∈ rules, r.isSound = true)
    (hshort : ∀ r ∈ rules, r.target.isShortName = true) (hfree : ∀ name, tree.writable loc name = true)
    (htexts : ∀ name entry, tree.under loc name = some entry → out.reaches name = true ∧
      ∃ bytes t, entry = .file bytes ∧ FileTree.textOf bytes = .ok t) :
    ∃ tree' outcomes, applyEach tree out rules = (tree', .ok outcomes) := by
  refine exists_applyEach_ok_of_amenable h hsingle hsound hfree fun name => ?_
  cases hunder : tree.under loc name with
  | none => exact amenable_none fun r hr _ => Path.reaches_of_isShortName hroom (hshort r hr)
  | some entry =>
    obtain ⟨hreach, bytes, t, rfl, ht⟩ := htexts name entry hunder
    exact amenable_file hreach ht

end

end Catalog

end FlowTypes
