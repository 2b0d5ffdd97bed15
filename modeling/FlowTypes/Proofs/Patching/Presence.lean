import FlowTypes.Proofs.Patch.Presence
import FlowTypes.Proofs.Patching.Outcomes
import FlowTypes.Proofs.Patching.Rest

/-!
# Rules that find something

A rule for one file is ready if the file is there and its edit finds something in it (`Rule.Ready`). This stays so when a
rule comes that spares it (`Rule.Ready.revise`), and a rule that is ready does not miss (`Rule.Ready.missed_eq_false`). A
glob does not miss either where it finds its anchor together with a rule that is ready
(`Rule.missed_eq_false_of_isPattern`).

In a catalog whose rules spare each other all of them are ready at all times, if they are at the start. So **no rule of a
run misses**, and after the run all of them are ready for another one (`Catalog.Ready.applyEach`).
-/

namespace FlowTypes

namespace Rule

/-! ## Conditions -/

/-- The rule edits one file. -/
def isPlainEdit (r : Rule) : Bool := !Wildcard.isPattern r.target && r.plan?.isSome

/-- The edit of the rule takes nothing away that the edit of the other looks for. -/
def editSpares (r other : Rule) (word : Text) : Bool :=
  r.plan?.any fun q => other.plan?.any fun p => q.spares p word

/-- The rule takes nothing away that the other looks for, in files in which the word only starts lines. -/
def spares (r other : Rule) (word : Text) : Bool := !r.concerns other.target || r.editSpares other word

/-- The rule finds its anchor where the other finds something. -/
def findsWith (r other : Rule) : Bool :=
  r.concerns other.target && r.plan?.any fun q => other.plan?.any fun p => q.findsWith p

/-- A file is there in which the word only starts lines, and the edit of the rule finds something in it. -/
def Ready (r : Rule) (word : Text) (entry : Option Entry) : Prop :=
  ∃ bytes t, entry = some (.file bytes) ∧ FileTree.textOf bytes = .ok t ∧ Text.OnlyStartsLines word t ∧
    ∀ p, r.plan? = some p → p.FindsIn t

section
variable {r s : Rule} {out : Path} {loc : Location} {tree : FileTree} {name word : Text} {free : Bool}
  {entry entry' : Option Entry} {placement : Placement} {anchor : Anchor}

theorem exists_action_of_isPlainEdit (h : r.isPlainEdit = true) :
    Wildcard.isPattern r.target = false ∧ ∃ placement anchor, r.action = .amend placement anchor := by
  simp only [isPlainEdit, Bool.and_eq_true, Bool.not_eq_true'] at h
  obtain ⟨p, hp⟩ := Option.isSome_iff_exists.mp h.2
  obtain ⟨anchor, haction, -⟩ := plan?_eq_some hp
  exact ⟨h.1, p.placement, anchor, haction⟩

/-! ## One step -/

/-- **A rule stays ready when one comes that spares it.** -/
theorem Ready.revise (hs : s.isSound = true) (hspares : s.spares r word = true)
    (h : r.Ready word entry) (hrevise : s.revise out r.target free entry = some entry') : r.Ready word entry' := by
  cases hmeets : s.meets out r.target entry with
  | false =>
    rw [revise_of_not_meets hmeets] at hrevise
    cases hrevise
    exact h
  | true =>
    obtain ⟨-, hrewrite⟩ := revise_of_meets hmeets hrevise
    have hconcerns : s.concerns r.target = true := by
      simp only [meets, Bool.and_eq_true] at hmeets
      exact hmeets.1
    simp only [spares, editSpares, hconcerns, Bool.not_true, Bool.false_or, Option.any_eq_true] at hspares
    obtain ⟨q, hq, p, hp, hspares⟩ := hspares
    obtain ⟨anchor, haction, hf, hcontent⟩ := plan?_eq_some hq
    obtain ⟨anchor', -, hf', -⟩ := plan?_eq_some hp
    obtain ⟨bytes, t, rfl, ht, hlines, hfinds⟩ := h
    rw [rewrite_file haction] at hrewrite
    obtain ⟨told, bytes', htold, rfl, ht', -⟩ := amendEntry_file hs haction hrewrite
    rw [ht] at htold
    cases htold
    have hkeeps : q.keepsLineStarts word = true := (Bool.and_eq_true_iff.mp hspares).1
    rw [← hcontent] at ht'
    refine ⟨bytes', _, rfl, ht', Patch.Plan.onlyStartsLines_amend hf hkeeps hlines, fun p' hp' => ?_⟩
    rw [hp] at hp'
    cases hp'
    exact (hfinds p hp).amend hf' hf hspares hlines

/-! ## Reports -/

/-- What a sound edit reports of a file. -/
theorem missed_outcomeAt_iff (hr : r.isSound = true) (haction : r.action = .amend placement anchor) {p : Patch.Plan}
    (hp : r.plan? = some p) {bytes : List UInt8} {t : Text} (ht : FileTree.textOf bytes = .ok t) :
    (r.outcomeAt placement anchor name (some (.file bytes))).missed = false ↔ p.FindsIn t := by
  obtain ⟨p', hp', -, hf, hamend⟩ := exists_plan hr haction
  rw [hp] at hp'
  cases hp'
  rw [outcomeAt_file ht, hamend, Outcome.missed, Patch.Plan.missed_amend_iff hf]

/-- **A rule that is ready does not miss.** -/
theorem Ready.missed_eq_false (hr : r.isSound = true) (hplain : r.isPlainEdit = true)
    (h : r.Ready word (tree.under loc r.target)) {o : Outcome} (ho : o ∈ r.outcomesIn tree out loc) :
    o.missed = false := by
  obtain ⟨hp, placement, anchor, haction⟩ := exists_action_of_isPlainEdit hplain
  obtain ⟨p, hplan, -, -, -⟩ := exists_plan hr haction
  obtain ⟨bytes, t, hentry, ht, -, hfinds⟩ := h
  rw [outcomesIn_plain haction hp, List.mem_singleton] at ho
  subst ho
  rw [hentry]
  exact (missed_outcomeAt_iff hr haction hplan ht).mpr (hfinds p hplan)

/-- A glob that finds its anchor somewhere, and its files everywhere, does not miss. -/
theorem missed_eq_false_of_mem_foldMisses {outcomes : List Outcome} (hfound : ∃ o ∈ outcomes, o.missed = false)
    (hthere : ∀ o ∈ outcomes, o.status ≠ .artifactMissing) {o : Outcome} (ho : o ∈ r.foldMisses outcomes) :
    o.missed = false := by
  have hall : outcomes.all (·.status = .anchorMissed) = false := by
    obtain ⟨o, ho, hmissed⟩ := hfound
    refine Bool.eq_false_iff.mpr fun hall => ?_
    have hstatus := of_decide_eq_true (List.all_eq_true.mp hall o ho)
    rw [Outcome.missed, hstatus] at hmissed
    cases hmissed
  rw [foldMisses, hall, if_neg Bool.false_ne_true] at ho
  obtain ⟨o', ho', rfl⟩ := List.mem_map.mp ho
  have hthere := hthere o' ho'
  split
  · rfl
  · rename_i hstatus
    unfold Outcome.missed
    cases hcase : o'.status <;> first | rfl | exact absurd hcase hstatus | exact absurd hcase hthere

/-- **A glob does not miss where a rule is ready with which it finds its anchor.** -/
theorem missed_eq_false_of_isPattern (hs : s.isSound = true) (hp : Wildcard.isPattern s.target = true)
    (hsome : ∀ name, s.revise out name (tree.writable loc name) (tree.under loc name) ≠ none) (hfinds : s.findsWith r = true)
    (hreach : out.reaches r.target = true) (h : r.Ready word (tree.under loc r.target)) {o : Outcome}
    (ho : o ∈ s.outcomesIn tree out loc) : o.missed = false := by
  simp only [findsWith, Bool.and_eq_true, Option.any_eq_true] at hfinds
  obtain ⟨hconcerns, q, hq, p, hplan, hfinds⟩ := hfinds
  obtain ⟨anchor, haction, hf, hcontent⟩ := plan?_eq_some hq
  have hamend : ∀ t, Patch.amend q.placement anchor s.content t = q.amend anchor t := fun t => by
    rw [Patch.Plan.amend, hcontent]
  obtain ⟨bytes, t, hentry, ht, -, hready⟩ := h
  have hmem : r.target ∈ Glob.filesIn tree out loc s.target := by
    refine Glob.mem_filesIn.mpr ⟨⟨?_, ?_, (FileTree.reaches_iff.mp hreach).1⟩, bytes, hentry⟩
    · simpa [concerns, hp] using hconcerns
    · rw [← FileTree.under, hentry]
      rfl
  rw [outcomesIn_glob haction hp hmem] at ho
  refine missed_eq_false_of_mem_foldMisses ⟨_, List.mem_map_of_mem hmem, ?_⟩ (fun o ho => ?_) ho
  · rw [hentry]
    exact (missed_outcomeAt_iff hs haction hq ht).mpr ((hready p hplan).of_findsWith hfinds)
  · -- a file that cannot be read would have stopped the rule
    obtain ⟨name, hname, rfl⟩ := List.mem_map.mp ho
    obtain ⟨hfitting, bytes', hfile⟩ := Glob.mem_filesIn.mp hname
    cases ht' : FileTree.textOf bytes' with
    | ok t' =>
      rw [hfile, outcomeAt_file ht', hamend]
      exact Patch.Plan.status_amend_ne_artifactMissing q anchor t'
    | error fault =>
      refine absurd ?_ (hsome name)
      rw [revise, if_pos ((meets_glob hp).mpr hfitting), hfile, rewrite_file haction]
      simp [amendEntry, ht']

end

end Rule

namespace Catalog

/-! ## Runs -/

/-- Every rule spares those for one file, and every glob finds its anchor together with one of those. -/
structure Considerate (word : Text) (rules : List Rule) : Prop where
  single : ∀ r ∈ rules, r.isSingle = true
  sound : ∀ r ∈ rules, r.isSound = true
  spares : ∀ r ∈ rules, r.isPlainEdit = true → ∀ s ∈ rules, s.spares r word = true
  finds : ∀ s ∈ rules, Wildcard.isPattern s.target = true → ∃ r ∈ rules, r.isPlainEdit = true ∧ s.findsWith r = true

/-- All rules for one file are ready in the directory. -/
def Ready (word : Text) (rules : List Rule) (tree : FileTree) (out : Path) (loc : Location) : Prop :=
  ∀ r ∈ rules, r.isPlainEdit = true → out.reaches r.target = true ∧ r.Ready word (tree.under loc r.target)

section
variable {word : Text} {rules : List Rule} {out : Path} {loc : Location}

/-- **A rule does not miss where all are ready, and leaves all ready.** -/
theorem Ready.apply (hc : Considerate word rules) {tree tree' : FileTree} (h : tree.Opens out loc)
    (hready : Ready word rules tree out loc) {s : Rule} (hs : s ∈ rules) {outcomes : List Outcome}
    (hok : s.apply tree out = (tree', .ok outcomes)) :
    Ready word rules tree' out loc ∧ ∀ o ∈ outcomes, o.missed = false := by
  obtain ⟨-, hrevise, -⟩ := Rule.apply_ok h (hc.single s hs) hok
  have houtcomes := Rule.apply_outcomes h (Rule.selectsIn_of_isSingle (hc.single s hs)) hok
  refine ⟨fun r hr hplain => ?_, fun o ho => ?_⟩
  · obtain ⟨hreach, hr'⟩ := hready r hr hplain
    exact ⟨hreach, hr'.revise (hc.sound s hs) (hc.spares r hr hplain s hs) (hrevise r.target)⟩
  · rw [houtcomes] at ho
    cases haction : s.action with
    | create =>
      simp only [Rule.outcomesIn, haction, List.mem_singleton] at ho
      rw [ho]
      rfl
    | amend placement anchor =>
    cases hp : Wildcard.isPattern s.target with
    | true =>
      obtain ⟨r, hr, hplain, hfinds⟩ := hc.finds s hs hp
      obtain ⟨hreach, hr'⟩ := hready r hr hplain
      have hsome : ∀ name, s.revise out name (tree.writable loc name) (tree.under loc name) ≠ none := fun name => by
        rw [hrevise]
        exact Option.some_ne_none _
      exact Rule.missed_eq_false_of_isPattern (hc.sound s hs) hp hsome hfinds hreach hr' ho
    | false =>
      obtain ⟨p, hplan, -⟩ := Rule.exists_plan (hc.sound s hs) haction
      have hplain : s.isPlainEdit = true := by simp [Rule.isPlainEdit, hp, hplan]
      exact (hready s hs hplain).2.missed_eq_false (hc.sound s hs) hplain ho

/-- **No rule of a run misses** if all are ready at the start, and then all are ready at the end. -/
theorem Ready.applyEach (hc : Considerate word rules) :
    ∀ {part : List Rule} {tree tree' : FileTree} {outcomes : List Outcome}, part ⊆ rules → tree.Opens out loc →
      Ready word rules tree out loc → Catalog.applyEach tree out part = (tree', .ok outcomes) →
        Ready word rules tree' out loc ∧ ∀ o ∈ outcomes, o.missed = false
  | [], tree, tree', outcomes, _, _, hready, hok => by
    cases hok
    exact ⟨hready, nofun⟩
  | s :: rest, tree, tree', outcomes, hsub, h, hready, hok => by
    obtain ⟨between, first, more, hfirst, hrest, rfl⟩ := applyEach_cons_ok_iff.mp hok
    have hs := hsub List.mem_cons_self
    obtain ⟨hready', hmissed⟩ := hready.apply hc h hs hfirst
    obtain ⟨hsame, -, -⟩ := Rule.apply_ok h (hc.single s hs) hfirst
    obtain ⟨hend, hmissed'⟩ :=
      Ready.applyEach hc (fun r hr => hsub (List.mem_cons_of_mem _ hr)) (hsame.opens h) hready' hrest
    refine ⟨hend, fun o ho => ?_⟩
    rcases List.mem_append.mp ho with ho | ho
    · exact hmissed o ho
    · exact hmissed' o ho

end

end Catalog

end FlowTypes
