import FlowTypes.Proofs.Patch.Settled
import FlowTypes.Proofs.Patching.Revision

/-!
# Rules at rest

A rule is at rest at an entry if it leaves the entry as it is and has nothing to do there (`Rule.AtRest`). A
sound rule comes to rest by its own work (`Rule.atRest_revise`), and it stays at rest when a rule that it bears
comes after it (`Rule.AtRest.of_bears`).

In an orderly catalog every rule is sound and bears those after it that are about the same names
(`Catalog.Orderly`). So **after a run all its rules are at rest** (`Orderly.atRest`), which is the invariant from
which everything about repeated runs follows: a second run changes nothing (`Orderly.applyEach_applyEach`), and a
run over entries to which some of its rules have been applied already comes to the same end
(`Orderly.reviseEach_absorbs`).
-/

namespace FlowTypes

namespace Rule

/-! ## Conditions -/

/-- The plan of a rule whose anchor looks for one text. -/
def plan? (r : Rule) : Option Patch.Plan :=
  match r.action with
  | .create => none
  | .amend placement anchor => anchor.needle?.map fun needle => ⟨placement, needle, r.content⟩

/-- The rule leaves nothing to do for itself. -/
def isSound (r : Rule) : Bool :=
  match r.action with
  | .create => !r.content.contains '\r'
  | .amend _ _ => r.plan?.any (·.sound)

/-- What the rule has done stays done when the other comes later. -/
def bears (r later : Rule) : Bool :=
  match later.plan?, r.action with
  | none, _ => false
  | some plan, .create => !Occurrence.occursIn plan.needle.text r.content
  | some plan, .amend _ _ => r.plan?.any (·.bears plan)

/-- Every later rule that is about one of the same names is borne, or it is the same rule. -/
def ToleratesLater (r later : Rule) : Prop :=
  r = later ∨ (∀ name, r.concerns name = true → later.concerns name = false) ∨ r.bears later = true

section
variable {r : Rule} {p : Patch.Plan} {placement : Placement} {anchor : Anchor}

theorem plan?_eq_some (h : r.plan? = some p) : ∃ anchor, r.action = .amend p.placement anchor ∧
    anchor.Finds p.needle ∧ p.content = r.content := by
  unfold plan? at h
  cases haction : r.action with
  | create => rw [haction] at h; cases h
  | amend placement anchor =>
    rw [haction] at h
    obtain ⟨needle, hneedle, rfl⟩ := Option.map_eq_some_iff.mp h
    exact ⟨anchor, rfl, Anchor.finds_of_needle? hneedle, rfl⟩

theorem exists_plan (hsound : r.isSound = true) (haction : r.action = .amend placement anchor) :
    ∃ p : Patch.Plan, r.plan? = some p ∧ p.sound = true ∧ anchor.Finds p.needle ∧
      ∀ t, Patch.amend placement anchor r.content t = p.amend anchor t := by
  unfold isSound at hsound
  rw [haction] at hsound
  obtain ⟨p, hp⟩ : ∃ p, r.plan? = some p := by
    cases hp : r.plan? with
    | none => simp [hp] at hsound
    | some p => exact ⟨p, rfl⟩
  have hps : p.sound = true := by simpa [hp] using hsound
  obtain ⟨anchor', haction', hfinds, hcontent⟩ := plan?_eq_some hp
  rw [haction] at haction'
  cases haction'
  exact ⟨p, hp, hps, hfinds, fun t => by rw [Patch.Plan.amend, hcontent]⟩

end

/-! ## Rest -/

/-- The rule leaves the entry as it is and has nothing to do there. -/
structure AtRest (r : Rule) (out : Path) (name : Text) (free : Bool) (entry : Option Entry) : Prop where
  stays : r.revise out name free entry = some entry
  settled : r.meets out name entry = true → ∀ p bytes t, r.plan? = some p →
    entry = some (.file bytes) → FileTree.textOf bytes = .ok t → p.Settled t

section
variable {r later : Rule} {out : Path} {name : Text} {free : Bool} {entry entry' : Option Entry}
  {placement : Placement} {anchor : Anchor}

theorem atRest_of_not_meets (h : r.meets out name entry = false) : r.AtRest out name free entry :=
  ⟨revise_of_not_meets h, fun hmeets => nomatch h.symm.trans hmeets⟩

theorem not_meets_of_not_concerns (h : r.concerns name = false) : r.meets out name entry = false := by
  simp [meets, h]

/-- A rule at rest has nothing to do. -/
theorem AtRest.not_edits (hsound : r.isSound = true) (h : r.AtRest out name free entry) :
    ¬ r.Edits out name entry := by
  rintro ⟨hmeets, placement, anchor, bytes, t, haction, rfl, ht, hstatus⟩
  obtain ⟨p, hp, hps, hfinds, hamend⟩ := exists_plan hsound haction
  rw [hamend] at hstatus
  exact (Patch.amend_of_settled hfinds hps (h.settled hmeets p bytes t hp rfl ht)).2 hstatus

/-- What an edit makes of a file: one that is read as the amended text. -/
theorem amendEntry_file (hsound : r.isSound = true) (haction : r.action = .amend placement anchor)
    {bytes : List UInt8} (h : r.amendEntry placement anchor (some (.file bytes)) = some entry') :
    ∃ t bytes', FileTree.textOf bytes = .ok t ∧ entry' = some (.file bytes') ∧
      FileTree.textOf bytes' = .ok (Patch.amend placement anchor r.content t).text ∧
      ((Patch.amend placement anchor r.content t).text = t → bytes' = bytes) := by
  obtain ⟨p, -, hps, hfinds, hamend⟩ := exists_plan hsound haction
  unfold amendEntry at h
  cases ht : FileTree.textOf bytes with
  | error fault => simp [ht] at h
  | ok t =>
    simp only [ht, Option.some.injEq] at h
    subst h
    refine ⟨t, _, rfl, rfl, ?_, fun hsame => by rw [if_pos hsame]⟩
    split
    · rename_i hsame
      rw [ht, hsame]
    · rw [hamend]
      exact FileTree.textOf_encode (Patch.not_mem_amend hfinds (Patch.Plan.not_mem_of_sound hps)
        (FileTree.not_mem_of_textOf ht))

/-- A file at whose text nothing is due stays. -/
theorem amendEntry_of_settled (hsound : r.isSound = true) (haction : r.action = .amend placement anchor)
    {bytes : List UInt8} {t : Text} (ht : FileTree.textOf bytes = .ok t)
    (h : ∀ p, r.plan? = some p → p.Settled t) :
    r.amendEntry placement anchor (some (.file bytes)) = some (some (.file bytes)) ∧
      r.writes (some (.file bytes)) = false := by
  obtain ⟨p, hp, hps, hfinds, hamend⟩ := exists_plan hsound haction
  have hstays := (Patch.amend_of_settled hfinds hps (h p hp)).1
  unfold amendEntry writes
  simp [changesEntry, haction, ht, hamend, hstays]

theorem rewrite_file (haction : r.action = .amend placement anchor) (bytes : List UInt8) :
    r.rewrite (some (.file bytes)) = r.amendEntry placement anchor (some (.file bytes)) := by
  simp [rewrite, haction]

/-- A rule meets whatever is under a name, or nothing. -/
theorem meets_some (old new : Entry) : r.meets out name (some old) = r.meets out name (some new) := by
  simp [meets]

theorem revise_of_meets (hmeets : r.meets out name entry = true)
    (h : r.revise out name free entry = some entry') :
    out.reaches name = true ∧ r.rewrite entry = some entry' := by
  unfold revise at h
  rw [if_pos hmeets] at h
  split at h
  · rename_i hmay
    exact ⟨(Bool.and_eq_true_iff.mp hmay).1, h⟩
  · cases h

/-- A rule that writes an entry was not kept from it. -/
theorem free_of_writes (hmeets : r.meets out name entry = true) (hwrites : r.writes entry = true)
    (h : r.revise out name free entry = some entry') : free = true := by
  unfold revise at h
  rw [if_pos hmeets] at h
  split at h
  · rename_i hmay
    have hfree := (Bool.and_eq_true_iff.mp hmay).2
    simpa [mayRevise, hwrites] using hfree
  · cases h

/-- A file at whose text nothing is due is a place of rest. -/
theorem atRest_file (hsound : r.isSound = true) (haction : r.action = .amend placement anchor)
    (hreach : out.reaches name = true) {bytes : List UInt8} {t : Text}
    (ht : FileTree.textOf bytes = .ok t) (h : ∀ p, r.plan? = some p → p.Settled t) :
    r.AtRest out name free (some (.file bytes)) where
  stays := by
    unfold revise
    split
    · obtain ⟨hstays, hwrites⟩ := amendEntry_of_settled hsound haction ht h
      simp [hreach, mayRevise, hwrites, rewrite_file haction, hstays]
    · rfl
  settled _ p bytes' t' hp hbytes ht' := by
    cases hbytes
    rw [ht] at ht'
    cases ht'
    exact h p hp

/-- **A sound rule comes to rest by its own work.** -/
theorem atRest_revise (hsound : r.isSound = true) (h : r.revise out name free entry = some entry') :
    r.AtRest out name free entry' := by
  cases hmeets : r.meets out name entry with
  | false =>
    rw [revise_of_not_meets hmeets] at h
    cases h
    exact atRest_of_not_meets hmeets
  | true =>
    obtain ⟨hreach, hrewrite⟩ := revise_of_meets hmeets h
    cases haction : r.action with
    | create =>
      simp only [rewrite, haction] at hrewrite
      split at hrewrite
      · cases hrewrite
      · cases hrewrite
        refine ⟨?_, fun _ p _ _ hp => ?_⟩
        · have hfree : free = true := free_of_writes hmeets (by simp [writes, haction]) h
          simp [revise, hreach, hfree, mayRevise, rewrite, haction]
        · simp [plan?, haction] at hp
    | amend placement anchor =>
      cases entry with
      | none =>
        simp only [rewrite, haction, amendEntry, Bool.and_eq_true, decide_eq_true_eq] at hrewrite
        simp at hrewrite
        subst hrewrite
        exact ⟨h, fun _ _ _ _ _ hfile => by cases hfile⟩
      | some old =>
        cases old with
        | directory =>
          have hdir := (revise_directory_iff h).mpr rfl
          subst hdir
          exact ⟨h, fun _ _ _ _ _ hfile => by cases hfile⟩
        | file bytes =>
          rw [rewrite_file haction] at hrewrite
          obtain ⟨t, bytes', -, rfl, ht', -⟩ := amendEntry_file hsound haction hrewrite
          refine atRest_file hsound haction hreach ht' fun p hp => ?_
          obtain ⟨p', hp', hps, hfinds, hamend⟩ := exists_plan hsound haction
          rw [hp] at hp'
          cases hp'
          rw [hamend]
          exact Patch.Plan.settled_amend hfinds hps

/-- **A rule stays at rest when one comes that it bears.** -/
theorem AtRest.of_bears (hsound : r.isSound = true) (hlater : later.isSound = true)
    (hbears : r.bears later = true) (hrest : r.AtRest out name free entry)
    (h : later.revise out name free entry = some entry') : r.AtRest out name free entry' := by
  unfold bears at hbears
  cases hplan : later.plan? with
  | none => rw [hplan] at hbears; cases hbears
  | some plan =>
  obtain ⟨anchor, haction, hfinds, hcontent⟩ := plan?_eq_some hplan
  have hamend : ∀ t, Patch.amend plan.placement anchor later.content t = plan.amend anchor t :=
    fun t => by rw [Patch.Plan.amend, hcontent]
  cases hmeets : later.meets out name entry with
  | false =>
    rw [revise_of_not_meets hmeets] at h
    cases h
    exact hrest
  | true =>
    obtain ⟨hreach, hrewrite⟩ := revise_of_meets hmeets h
    cases entry with
    | none =>
      simp [rewrite, haction, amendEntry] at hrewrite
      subst hrewrite
      exact hrest
    | some old =>
    cases old with
    | directory =>
      have hdir := (revise_directory_iff h).mpr rfl
      subst hdir
      exact hrest
    | file bytes =>
      rw [rewrite_file haction] at hrewrite
      obtain ⟨t, bytes', ht, rfl, ht', hsame⟩ := amendEntry_file hlater haction hrewrite
      rw [hamend] at ht' hsame
      cases hmeets' : r.meets out name (some (.file bytes)) with
      | false =>
        rw [meets_some (.file bytes) (.file bytes')] at hmeets'
        exact atRest_of_not_meets hmeets'
      | true =>
      cases haction' : r.action with
      | create =>
        -- the file holds the content, in which the other rule finds nothing
        rw [hplan, haction'] at hbears
        obtain ⟨-, hold⟩ := revise_of_meets hmeets' hrest.stays
        simp only [rewrite, haction'] at hold
        split at hold
        · cases hold
        · cases hold
          have hcr : '\r' ∉ r.content := by simpa [isSound, haction'] using hsound
          rw [FileTree.textOf_encode hcr] at ht
          cases ht
          obtain ⟨p, hp, hps, -, -⟩ := exists_plan hlater haction
          rw [hplan] at hp
          cases hp
          have hsettled : plan.Settled r.content := Patch.Plan.settled_of_not_infix
            (Occurrence.occursIn_eq_false_iff.mp (by simpa using hbears))
          rw [hsame (Patch.amend_of_settled hfinds hps hsettled).1]
          exact hrest
      | amend placement' anchor' =>
        rw [hplan, haction'] at hbears
        obtain ⟨p, hp, hps, -, -⟩ := exists_plan hsound haction'
        refine atRest_file hsound haction' hreach ht' fun p' hp' => ?_
        rw [hp] at hp' hbears
        cases hp'
        exact (hrest.settled hmeets' p bytes t hp rfl ht).amend hfinds hps (by simpa using hbears)

/-- A rule stays at rest when one comes that it tolerates. -/
theorem AtRest.of_toleratesLater (hsound : r.isSound = true) (hlater : later.isSound = true)
    (htolerates : r.ToleratesLater later) (hrest : r.AtRest out name free entry)
    (h : later.revise out name free entry = some entry') : r.AtRest out name free entry' := by
  rcases htolerates with rfl | hapart | hbears
  · rw [hrest.stays] at h
    cases h
    exact hrest
  · cases hconcerns : r.concerns name with
    | false => exact atRest_of_not_meets (not_meets_of_not_concerns hconcerns)
    | true =>
      rw [revise_of_not_meets (not_meets_of_not_concerns (hapart name hconcerns))] at h
      cases h
      exact hrest
  · exact hrest.of_bears hsound hlater hbears h

end

end Rule

namespace Catalog

/-! ## Orderly catalogs -/

/-- The rules are about names in the directory, they leave nothing to do for themselves, and each tolerates
those after it. -/
structure Orderly (rules : List Rule) : Prop where
  single : ∀ r ∈ rules, r.isSingle = true
  sound : ∀ r ∈ rules, r.isSound = true
  tolerates : rules.Pairwise Rule.ToleratesLater

namespace Orderly

variable {rules : List Rule} {out : Path} {name : Text} {free : Bool} {entry entry' : Option Entry}

theorem tail {r : Rule} (h : Orderly (r :: rules)) : Orderly rules where
  single r hr := h.single r (List.mem_cons_of_mem _ hr)
  sound r hr := h.sound r (List.mem_cons_of_mem _ hr)
  tolerates := (List.pairwise_cons.mp h.tolerates).2

theorem prefix_of_append {more : List Rule} (h : Orderly (rules ++ more)) : Orderly rules where
  single r hr := h.single r (List.mem_append_left _ hr)
  sound r hr := h.sound r (List.mem_append_left _ hr)
  tolerates := (List.pairwise_append.mp h.tolerates).1

/-- A rule at rest stays at rest while those that it tolerates are applied. -/
theorem stays_atRest {r : Rule} (hsound : r.isSound = true) :
    ∀ {rules : List Rule} {entry : Option Entry}, (∀ later ∈ rules, later.isSound = true) →
      (∀ later ∈ rules, r.ToleratesLater later) → r.AtRest out name free entry →
        reviseEach out name free rules entry = some entry' → r.AtRest out name free entry'
  | [], entry, _, _, hrest, h => by
    cases h
    exact hrest
  | later :: rest, entry, hlater, htolerates, hrest, h => by
    obtain ⟨between, hbetween, hafter⟩ := Option.bind_eq_some_iff.mp h
    refine stays_atRest hsound (fun l hl => hlater l (List.mem_cons_of_mem _ hl))
      (fun l hl => htolerates l (List.mem_cons_of_mem _ hl)) ?_ hafter
    exact hrest.of_toleratesLater hsound (hlater later List.mem_cons_self)
      (htolerates later List.mem_cons_self) hbetween

/-- **After a run all its rules are at rest.** -/
theorem atRest : ∀ {rules : List Rule} {entry : Option Entry}, Orderly rules →
    reviseEach out name free rules entry = some entry' → ∀ r ∈ rules, r.AtRest out name free entry'
  | r :: rest, entry, ho, h, r', hr' => by
    obtain ⟨between, hbetween, hafter⟩ := Option.bind_eq_some_iff.mp h
    rcases List.mem_cons.mp hr' with rfl | hr'
    · have hsound := ho.sound r' List.mem_cons_self
      exact stays_atRest hsound ho.tail.sound (List.pairwise_cons.mp ho.tolerates).1
        (Rule.atRest_revise hsound hbetween) hafter
    · exact ho.tail.atRest hafter r' hr'

theorem reviseEach_of_atRest :
    ∀ {rules : List Rule}, (∀ r ∈ rules, r.AtRest out name free entry) →
      reviseEach out name free rules entry = some entry
  | [], _ => rfl
  | r :: rest, h => by
    rw [reviseEach, (h r List.mem_cons_self).stays]
    exact reviseEach_of_atRest fun r' hr' => h r' (List.mem_cons_of_mem _ hr')

/-- A run over what it made changes nothing. -/
theorem reviseEach_reviseEach (ho : Orderly rules) (h : reviseEach out name free rules entry = some entry') :
    reviseEach out name free rules entry' = some entry' :=
  reviseEach_of_atRest (ho.atRest h)

/-- **A run absorbs what a part of it has done before.** -/
theorem reviseEach_absorbs {done rest : List Rule} (ho : Orderly (done ++ rest))
    (h : reviseEach out name free done entry = some entry') :
    reviseEach out name free (done ++ rest) entry' = reviseEach out name free (done ++ rest) entry := by
  rw [reviseEach_append, reviseEach_append, ho.prefix_of_append.reviseEach_reviseEach h, h]

end Orderly

/-! ## Runs over rules at rest -/

section
variable {out : Path} {loc : Location}

/-- Rules at rest succeed, change nothing, and apply nothing. -/
theorem applyEach_of_atRest :
    ∀ {rules : List Rule} {tree : FileTree}, tree.Opens out loc → (∀ r ∈ rules, r.isSingle = true) →
      (∀ r ∈ rules, r.isSound = true) → (∀ r ∈ rules, ∀ name, r.AtRest out name (tree.writable loc name) (tree.under loc name)) →
        ∃ tree' outcomes, applyEach tree out rules = (tree', .ok outcomes) ∧
          FileTree.SameOutside loc tree tree' ∧ (∀ name, tree'.under loc name = tree.under loc name) ∧
            ∀ o ∈ outcomes, o.status ≠ .applied
  | [], tree, _, _, _, _ => ⟨tree, [], rfl, .refl _ _, fun _ => rfl, nofun⟩
  | r :: rest, tree, h, hsingle, hsound, hrest => by
    have hr := hrest r List.mem_cons_self
    cases hfirst : r.apply tree out with
    | mk treeFirst answer =>
    cases answer with
    | error fault =>
      obtain ⟨-, -, name, hfails, -⟩ := Rule.apply_error h (hsingle r List.mem_cons_self) hfirst
      rw [(hr name).stays] at hfails
      cases hfails
    | ok first =>
      obtain ⟨hsame, hrevise, happlied⟩ := Rule.apply_ok h (hsingle r List.mem_cons_self) hfirst
      have hunder : ∀ name, treeFirst.under loc name = tree.under loc name := fun name =>
        (Option.some.inj ((hr name).stays.symm.trans (hrevise name))).symm
      obtain ⟨treeRest, more, hmore, hsame', hunder', happlied'⟩ := applyEach_of_atRest
        (hsame.opens h) (fun r (hr : r ∈ rest) => hsingle r (List.mem_cons_of_mem _ hr))
        (fun r hr => hsound r (List.mem_cons_of_mem _ hr)) fun r hr name => by
          rw [hunder name, hsame.writable]
          exact hrest r (List.mem_cons_of_mem _ hr) name
      refine ⟨treeRest, first ++ more, by rw [applyEach, hfirst]; dsimp only; rw [hmore],
        hsame.trans hsame', fun name => (hunder' name).trans (hunder name), fun o ho => ?_⟩
      rcases List.mem_append.mp ho with ho | ho
      · intro hs
        obtain ⟨name, hedits⟩ := happlied o ho hs
        exact (hr name).not_edits (hsound r List.mem_cons_self) hedits
      · exact happlied' o ho

/-- The first rule of the catalog writes a file, so the directory is made before anything else. -/
def StartsWithCreate (rules : List Rule) : Prop := ∃ r rest, rules = r :: rest ∧ r.action = .create

theorem applyEach_of_ensureDirectory {rules : List Rule} (hstart : StartsWithCreate rules)
    {tree made : FileTree} (h : tree.ensureDirectory out = (made, .ok ())) :
    applyEach tree out rules = applyEach made out rules := by
  obtain ⟨r, rest, rfl, hcreate⟩ := hstart
  obtain ⟨loc, hopens⟩ := FileTree.opens_of_ensureDirectory h
  have happly : r.apply tree out = r.apply made out := by
    unfold Rule.apply
    rw [hcreate]
    dsimp only
    unfold Rule.create
    rw [h, FileTree.ensureDirectory_of_opens hopens]
  rw [applyEach, applyEach, happly]

theorem applyEach_of_ensureDirectory_error {rules : List Rule} (hstart : StartsWithCreate rules)
    {tree made : FileTree} {fault : FileFault} (h : tree.ensureDirectory out = (made, .error fault)) :
    applyEach tree out rules = (made, .error fault) := by
  obtain ⟨r, rest, rfl, hcreate⟩ := hstart
  simp [applyEach, Rule.apply, hcreate, Rule.create, h]

/-- A run that comes past the making of the directory starts from an open directory. -/
theorem exists_opens_of_applyEach {rules : List Rule} (hstart : StartsWithCreate rules)
    {tree tree' : FileTree} {answer : Except FileFault (List Outcome)}
    (h : applyEach tree out rules = (tree', answer))
    (hanswer : ∀ fault, answer = .error fault → fault.ofEntry = true) :
    ∃ made loc, tree.ensureDirectory out = (made, .ok ()) ∧ made.Opens out loc ∧
      applyEach made out rules = (tree', answer) := by
  cases hmake : tree.ensureDirectory out with
  | mk made result =>
  cases result with
  | error fault =>
    rw [applyEach_of_ensureDirectory_error hstart hmake] at h
    cases h
    have hentry := hanswer fault rfl
    rw [(FileTree.ensureDirectory_error hmake).ofEntry] at hentry
    cases hentry
  | ok _ =>
    obtain ⟨loc, hopens⟩ := FileTree.opens_of_ensureDirectory hmake
    exact ⟨made, loc, rfl, hopens, applyEach_of_ensureDirectory hstart hmake ▸ h⟩

/-- **A second run changes nothing and applies nothing.** -/
theorem Orderly.applyEach_applyEach {rules : List Rule} (ho : Orderly rules)
    (hstart : StartsWithCreate rules) {tree tree' : FileTree} {outcomes : List Outcome}
    (h : applyEach tree out rules = (tree', .ok outcomes)) :
    ∃ tree'' again, applyEach tree' out rules = (tree'', .ok again) ∧
      (∀ l, tree''.get? l = tree'.get? l) ∧ ∀ o ∈ again, o.status ≠ .applied := by
  obtain ⟨made, loc, -, hopens, hmade⟩ := exists_opens_of_applyEach hstart h nofun
  obtain ⟨hsame, hrevise⟩ := applyEach_ok hopens ho.single hmade
  obtain ⟨tree'', again, happly, hsame', hunder, happlied⟩ :=
    applyEach_of_atRest (hsame.opens hopens) ho.single ho.sound fun r hr name => by
      rw [hsame.writable]
      exact ho.atRest (hrevise name) r hr
  exact ⟨tree'', again, happly, hsame'.get?_eq hunder, happlied⟩

end

end Catalog

end FlowTypes
