import FlowTypes.Proofs.Patch.Weaving
import FlowTypes.Proofs.Patching.Outcomes
import FlowTypes.Proofs.Patching.Rest

/-!
# Rules that commute

Rules about different files commute, and so do rules about one file whose edits commute (`Rule.commutes`). Two such rules
make the same of every entry in both orders (`Rule.revise_comm`), and each reports the same (`Rule.outcomeAt_revise`). So
two neighbours in a run may change places (`Rule.apply_swap`).

Runs over trees with the same entries are the same (`Catalog.applyEach_congr`), so the trees need not be equal as lists
of entries for this. `FileTree.Alike` says that they have the same entries and the same locks.
-/

namespace FlowTypes

/-! ## Trees with the same entries -/

/-- The trees have the same entries and the same locks. -/
structure FileTree.Alike (tree tree' : FileTree) : Prop where
  workDir : tree'.workDir = tree.workDir
  locked : tree'.locked = tree.locked
  get? : ∀ l, tree'.get? l = tree.get? l

namespace FileTree.Alike

variable {tree tree' tree'' : FileTree}

theorem refl (tree : FileTree) : Alike tree tree := ⟨rfl, rfl, fun _ => rfl⟩

theorem trans (h : Alike tree tree') (h' : Alike tree' tree'') : Alike tree tree'' :=
  ⟨h'.workDir.trans h.workDir, h'.locked.trans h.locked, fun l => (h'.get? l).trans (h.get? l)⟩

theorem under (h : Alike tree tree') (loc : Location) (name : Text) : tree'.under loc name = tree.under loc name :=
  h.get? _

theorem writable (h : Alike tree tree') (loc : Location) (name : Text) :
    tree'.writable loc name = tree.writable loc name :=
  writable_of_locked h.locked loc name

theorem opens (h : Alike tree tree') {out : Path} {loc : Location} (hopens : tree.Opens out loc) :
    tree'.Opens out loc :=
  hopens.mono ⟨h.workDir, fun l hl => (h.get? l).trans hl⟩

/-- Trees that differ from alike trees in one directory only are alike if they agree in it. -/
theorem of_sameOutside {loc : Location} {left left' : FileTree} (h : Alike tree tree') (hleft : SameOutside loc tree left)
    (hleft' : SameOutside loc tree' left') (hunder : ∀ name, left'.under loc name = left.under loc name) :
    Alike left left' where
  workDir := hleft'.workDir.trans (h.workDir.trans hleft.workDir.symm)
  locked := hleft'.locked.trans (h.locked.trans hleft.locked.symm)
  get? l := by
    by_cases hl : ∃ name, l = loc ++ [name]
    · obtain ⟨name, rfl⟩ := hl
      exact hunder name
    · have houtside : ∀ name, l ≠ loc ++ [name] := fun name e => hl ⟨name, e⟩
      rw [hleft'.outside l houtside, hleft.outside l houtside, h.get?]

end FileTree.Alike

namespace Rule

/-- The edits of one file commute. -/
def editCommutes (r s : Rule) : Bool := r.plan?.any fun p => s.plan?.any fun q => p.commutes q

/-- The rules are about different files, or their edits of one file commute. -/
def commutes (r s : Rule) : Bool :=
  !Wildcard.isPattern r.target && !Wildcard.isPattern s.target &&
    (decide (r.target ≠ s.target) || r.editCommutes s)

section
variable {r s : Rule} {out : Path} {loc : Location} {name : Text} {entry entry₁ entry₂ : Option Entry}
  {placement placement' : Placement} {anchor anchor' : Anchor}

/-! ## One entry -/

/-- An edit changes a text exactly if it says so. -/
theorem text_amend_eq_iff (hsound : r.isSound = true) (haction : r.action = .amend placement anchor) (t : Text) :
    (Patch.amend placement anchor r.content t).text = t ↔
      (Patch.amend placement anchor r.content t).status ≠ .applied := by
  obtain ⟨p, -, hps, hfinds, hamend⟩ := exists_plan hsound haction
  rw [hamend]
  constructor
  · intro htext
    have hsettled := Patch.Plan.settled_amend (t := t) hfinds hps
    rw [htext] at hsettled
    exact (Patch.amend_of_settled hfinds hps hsettled).2
  · intro hstatus
    unfold Patch.Plan.amend Patch.amend Patch.amendAt at hstatus ⊢
    dsimp only at hstatus ⊢
    split
    · rfl
    · split
      · rfl
      · rename_i hnone hzero
        rw [if_neg hnone, if_neg hzero] at hstatus
        exact absurd rfl hstatus

/-- The bytes of a file whose text was edited: the old ones if the text is the old one. -/
def rewritten (bytes : List UInt8) (t new : Text) : List UInt8 := if new = t then bytes else Utf8.encode new

theorem rewritten_rewritten (bytes : List UInt8) (t between new : Text) :
    rewritten (rewritten bytes t between) between new =
      if new = between ∧ between = t then bytes else Utf8.encode new := by
  unfold rewritten
  by_cases hnew : new = between
  · subst hnew
    simp
  · simp [hnew]

theorem amendEntry_text {bytes : List UInt8} {t : Text} (ht : FileTree.textOf bytes = .ok t) :
    r.amendEntry placement anchor (some (.file bytes)) =
      some (some (.file (rewritten bytes t (Patch.amend placement anchor r.content t).text))) := by
  unfold amendEntry
  simp only [ht]
  rfl

theorem textOf_rewritten (hsound : r.isSound = true) (haction : r.action = .amend placement anchor)
    {bytes : List UInt8} {t : Text} (ht : FileTree.textOf bytes = .ok t) :
    FileTree.textOf (rewritten bytes t (Patch.amend placement anchor r.content t).text) =
      .ok (Patch.amend placement anchor r.content t).text := by
  obtain ⟨t', bytes', ht', hentry, htext, -⟩ := amendEntry_file hsound haction (amendEntry_text ht)
  rw [ht] at ht'
  cases ht'
  cases hentry
  exact htext

/-- An edit reports the same of a file after one that it commutes with. -/
theorem outcomeAt_amendEntry (hr : r.isSound = true) (hs : s.isSound = true)
    (haction : r.action = .amend placement anchor) (haction' : s.action = .amend placement' anchor')
    {p q : Patch.Plan} (hp : r.plan? = some p) (hq : s.plan? = some q) (hcommutes : p.commutes q = true)
    (h : s.amendEntry placement' anchor' entry = some entry₁) (name : Text) :
    r.outcomeAt placement anchor name entry₁ = r.outcomeAt placement anchor name entry := by
  obtain ⟨p', hp', -, hfinds, hamend⟩ := exists_plan hr haction
  obtain ⟨q', hq', -, hfinds', hamend'⟩ := exists_plan hs haction'
  rw [hp] at hp'
  rw [hq] at hq'
  cases hp'
  cases hq'
  cases entry with
  | none => cases h; rfl
  | some old =>
  cases old with
  | directory => cases h
  | file bytes =>
  obtain ⟨t, bytes', ht, rfl, ht', -⟩ := amendEntry_file hs haction' h
  obtain ⟨hstatus, hedits⟩ := Patch.Plan.amend_amend hcommutes hfinds hfinds' t
  rw [outcomeAt_file ht, outcomeAt_file ht', hamend, hamend, hamend', hstatus, hedits]

/-- **Edits that commute make the same of a file in both orders.** -/
theorem amendEntry_comm (hr : r.isSound = true) (hs : s.isSound = true)
    (haction : r.action = .amend placement anchor) (haction' : s.action = .amend placement' anchor')
    {p q : Patch.Plan} (hp : r.plan? = some p) (hq : s.plan? = some q) (hcommutes : p.commutes q = true)
    (h₁ : r.amendEntry placement anchor entry = some entry₁)
    (h₂ : s.amendEntry placement' anchor' entry₁ = some entry₂) :
    ∃ entry', s.amendEntry placement' anchor' entry = some entry' ∧
      r.amendEntry placement anchor entry' = some entry₂ := by
  obtain ⟨p', hp', -, hfinds, hamend⟩ := exists_plan hr haction
  obtain ⟨q', hq', -, hfinds', hamend'⟩ := exists_plan hs haction'
  rw [hp] at hp'
  rw [hq] at hq'
  cases hp'
  cases hq'
  cases entry with
  | none =>
    cases h₁
    cases h₂
    exact ⟨none, rfl, rfl⟩
  | some old =>
  cases old with
  | directory => cases h₁
  | file bytes =>
  obtain ⟨t, -, ht, -⟩ := amendEntry_file hr haction h₁
  have hsame := text_amend_eq_iff hr haction
  have hsame' := text_amend_eq_iff hs haction'
  -- each edit finds the same to do after the other one
  obtain ⟨hstatus, -⟩ := Patch.Plan.amend_amend hcommutes hfinds hfinds' t
  obtain ⟨hstatus', -⟩ := Patch.Plan.amend_amend (Patch.Plan.commutes_symm hcommutes) hfinds' hfinds t
  have htext := Patch.Plan.amend_comm hcommutes hfinds hfinds' t
  -- so the bytes stay in either order exactly if neither edit has something to do
  have hlast : (Patch.amend placement anchor r.content (Patch.amend placement' anchor' s.content t).text).text =
      (Patch.amend placement' anchor' s.content t).text ↔ (Patch.amend placement anchor r.content t).text = t := by
    rw [hsame, hsame, hamend, hamend, hamend', hstatus]
  have hlast' : (Patch.amend placement' anchor' s.content (Patch.amend placement anchor r.content t).text).text =
      (Patch.amend placement anchor r.content t).text ↔ (Patch.amend placement' anchor' s.content t).text = t := by
    rw [hsame', hsame', hamend', hamend', hamend, hstatus']
  rw [amendEntry_text ht] at h₁
  cases h₁
  rw [amendEntry_text (textOf_rewritten hr haction ht), rewritten_rewritten] at h₂
  refine ⟨_, amendEntry_text ht, ?_⟩
  rw [← h₂, amendEntry_text (textOf_rewritten hs haction' ht), rewritten_rewritten]
  simp only [hlast, hlast', and_comm]
  simp only [hamend, hamend', htext]

/-! ## One name -/

theorem commutes_iff : r.commutes s = true ↔
    Wildcard.isPattern r.target = false ∧ Wildcard.isPattern s.target = false ∧
      (r.target ≠ s.target ∨ ∃ p q, r.plan? = some p ∧ s.plan? = some q ∧ p.commutes q = true) := by
  simp only [commutes, editCommutes, Bool.and_eq_true, Bool.or_eq_true, Bool.not_eq_true', decide_eq_true_eq, and_assoc,
    Option.any_eq_true, exists_and_left]

theorem revise_of_ne (hp : Wildcard.isPattern r.target = false) (hne : name ≠ r.target) (free : Bool)
    (entry : Option Entry) : r.revise out name free entry = some entry :=
  revise_of_not_meets (by rw [meets_plain hp]; exact decide_eq_false hne)

theorem revise_target (hp : Wildcard.isPattern r.target = false) (haction : r.action = .amend placement anchor) :
    r.revise out r.target true entry =
      if out.reaches r.target then r.amendEntry placement anchor entry else none := by
  rw [revise, meets_plain hp, decide_eq_true rfl, if_pos rfl]
  simp [mayRevise_true, rewrite, haction, hp]

/-- **Rules that commute make the same of an entry in both orders.** -/
theorem revise_comm (hr : r.isSound = true) (hs : s.isSound = true) (h : r.commutes s = true)
    (h₁ : r.revise out name free entry = some entry₁) (h₂ : s.revise out name free entry₁ = some entry₂) :
    ∃ entry', s.revise out name free entry = some entry' ∧ r.revise out name free entry' = some entry₂ := by
  -- a locked entry is as it was all the time
  cases free with
  | false =>
    obtain rfl := eq_of_revise_locked h₁
    obtain rfl := eq_of_revise_locked h₂
    exact ⟨_, h₂, h₁⟩
  | true =>
  obtain ⟨hp, hp', hapart⟩ := commutes_iff.mp h
  by_cases hname : name = r.target
  case neg =>
    rw [revise_of_ne hp hname] at h₁
    cases h₁
    exact ⟨entry₂, h₂, revise_of_ne hp hname _ _⟩
  case pos =>
  by_cases hname' : name = s.target
  case neg =>
    rw [revise_of_ne hp' hname'] at h₂
    cases h₂
    exact ⟨entry, revise_of_ne hp' hname' _ _, h₁⟩
  case pos =>
  obtain ⟨p, q, hplan, hplan', hcommutes⟩ := hapart.resolve_left fun hne => hne (hname.symm.trans hname')
  obtain ⟨anchor, haction, -⟩ := plan?_eq_some hplan
  obtain ⟨anchor', haction', -⟩ := plan?_eq_some hplan'
  cases hreach : out.reaches name with
  | false =>
    rw [hname, revise_target hp haction, ← hname, hreach] at h₁
    cases h₁
  | true =>
    have hrevise : ∀ entry, r.revise out name true entry = r.amendEntry p.placement anchor entry := fun entry => by
      rw [hname, revise_target hp haction, ← hname, hreach, if_pos rfl]
    have hrevise' : ∀ entry, s.revise out name true entry = s.amendEntry q.placement anchor' entry := fun entry => by
      rw [hname', revise_target hp' haction', ← hname', hreach, if_pos rfl]
    simp only [hrevise, hrevise'] at h₁ h₂ ⊢
    exact amendEntry_comm hr hs haction haction' hplan hplan' hcommutes h₁ h₂

/-! ## One directory -/

variable {tree tree' tree₁ tree₂ : FileTree} {outcomes outcomes' : List Outcome}

/-- A rule that fails over no entry succeeds. -/
theorem exists_apply_ok (h : tree.Opens out loc) (hr : r.isSingle = true)
    (hsome : ∀ name, r.revise out name (tree.writable loc name) (tree.under loc name) ≠ none) :
    ∃ tree' outcomes, r.apply tree out = (tree', .ok outcomes) := by
  cases happly : r.apply tree out with
  | mk tree' answer =>
  cases answer with
  | ok outcomes => exact ⟨tree', outcomes, rfl⟩
  | error fault =>
    obtain ⟨-, -, name, hfails, -⟩ := apply_error h hr happly
    exact absurd hfails (hsome name)

/-- **A rule does and reports the same over trees with the same entries.** -/
theorem apply_congr (h : tree.Opens out loc) (hr : r.isSingle = true) (halike : tree.Alike tree')
    (hok : r.apply tree out = (tree₁, .ok outcomes)) :
    ∃ tree₁', r.apply tree' out = (tree₁', .ok outcomes) ∧ tree₁.Alike tree₁' := by
  obtain ⟨hsame, hrevise, -⟩ := apply_ok h hr hok
  have hopens := halike.opens h
  obtain ⟨tree₁', outcomes', hok'⟩ := exists_apply_ok hopens hr fun name => by
    rw [halike.under, halike.writable, hrevise]
    nofun
  obtain ⟨hsame', hrevise', -⟩ := apply_ok hopens hr hok'
  have houtcomes : outcomes' = outcomes := by
    rw [apply_outcomes h (selectsIn_of_isSingle hr) hok, apply_outcomes hopens (selectsIn_of_isSingle hr) hok']
    exact outcomesIn_congr (halike.under loc)
  refine ⟨tree₁', houtcomes ▸ hok', halike.of_sameOutside hsame hsame' fun name => ?_⟩
  have hboth := hrevise' name
  rw [halike.under, halike.writable, hrevise] at hboth
  exact (Option.some.inj hboth).symm

/-- A rule reports the same after one that it commutes with. -/
theorem outcomesIn_of_commutes (hr : r.isSound = true) (hs : s.isSound = true) (h : r.commutes s = true)
    {free : Bool} (hrevise : s.revise out r.target free (tree.under loc r.target) = some (tree'.under loc r.target)) :
    r.outcomesIn tree' out loc = r.outcomesIn tree out loc := by
  have hrevise := revise_free hrevise
  obtain ⟨hp, hp', hapart⟩ := commutes_iff.mp h
  by_cases htarget : r.target = s.target
  case neg =>
    rw [revise_of_ne hp' htarget, Option.some.injEq] at hrevise
    exact outcomesIn_congr_of_plain hp hrevise.symm
  case pos =>
  obtain ⟨p, q, hplan, hplan', hcommutes⟩ := hapart.resolve_left fun hne => hne htarget
  obtain ⟨anchor, haction, -⟩ := plan?_eq_some hplan
  obtain ⟨anchor', haction', -⟩ := plan?_eq_some hplan'
  rw [htarget, revise_target hp' haction', ← htarget] at hrevise
  split at hrevise
  · rw [outcomesIn_plain haction hp, outcomesIn_plain haction hp,
      outcomeAt_amendEntry hr hs haction haction' hplan hplan' hcommutes hrevise]
  · cases hrevise

theorem commutes_symm (h : r.commutes s = true) : s.commutes r = true := by
  obtain ⟨hp, hp', hapart⟩ := commutes_iff.mp h
  refine commutes_iff.mpr ⟨hp', hp, hapart.imp Ne.symm ?_⟩
  rintro ⟨p, q, hplan, hplan', hcommutes⟩
  exact ⟨q, p, hplan', hplan, Patch.Plan.commutes_symm hcommutes⟩

/-- **Rules that commute may change places.** -/
theorem apply_swap (h : tree.Opens out loc) (hr : r.isSingle = true ∧ r.isSound = true)
    (hs : s.isSingle = true ∧ s.isSound = true) (hcommutes : r.commutes s = true)
    (h₁ : r.apply tree out = (tree₁, .ok outcomes)) (h₂ : s.apply tree₁ out = (tree₂, .ok outcomes')) :
    ∃ tree₁' tree₂', s.apply tree out = (tree₁', .ok outcomes') ∧ r.apply tree₁' out = (tree₂', .ok outcomes) ∧
      tree₂.Alike tree₂' := by
  obtain ⟨hsame₁, hrevise₁, -⟩ := apply_ok h hr.1 h₁
  obtain ⟨hsame₂, hrevise₂, -⟩ := apply_ok (hsame₁.opens h) hs.1 h₂
  have hcomm := fun name => revise_comm hr.2 hs.2 hcommutes (hrevise₁ name)
    (hsame₁.writable loc name ▸ hrevise₂ name)
  obtain ⟨tree₁', first, h₁'⟩ := exists_apply_ok h hs.1 fun name => by
    obtain ⟨entry', hfirst, -⟩ := hcomm name
    rw [hfirst]
    nofun
  obtain ⟨hsame₁', hrevise₁', -⟩ := apply_ok h hs.1 h₁'
  have hthen : ∀ name, r.revise out name (tree₁'.writable loc name) (tree₁'.under loc name) =
      some (tree₂.under loc name) := fun name => by
    obtain ⟨entry', hfirst, hthen⟩ := hcomm name
    rw [hrevise₁', Option.some.injEq] at hfirst
    rw [hfirst, hsame₁'.writable, hthen]
  obtain ⟨tree₂', second, h₂'⟩ := exists_apply_ok (hsame₁'.opens h) hr.1 fun name => by
    rw [hthen]
    nofun
  obtain ⟨hsame₂', hrevise₂', -⟩ := apply_ok (hsame₁'.opens h) hr.1 h₂'
  have hfirst : first = outcomes' := by
    rw [apply_outcomes h (selectsIn_of_isSingle hs.1) h₁',
      apply_outcomes (hsame₁.opens h) (selectsIn_of_isSingle hs.1) h₂]
    exact (outcomesIn_of_commutes hs.2 hr.2 (commutes_symm hcommutes) (hrevise₁ s.target)).symm
  have hsecond : second = outcomes := by
    rw [apply_outcomes (hsame₁'.opens h) (selectsIn_of_isSingle hr.1) h₂',
      apply_outcomes h (selectsIn_of_isSingle hr.1) h₁]
    exact outcomesIn_of_commutes hr.2 hs.2 hcommutes (hrevise₁' r.target)
  refine ⟨tree₁', tree₂', hfirst ▸ h₁', hsecond ▸ h₂', ?_⟩
  refine (FileTree.Alike.refl tree).of_sameOutside (hsame₁.trans hsame₂) (hsame₁'.trans hsame₂') fun name => ?_
  have hboth := hrevise₂' name
  rw [hthen] at hboth
  exact (Option.some.inj hboth).symm

end

end Rule

namespace Catalog

/-! ## Several rules -/

/-- Every rule has the same outcomes in both lists, in the same order. -/
def SameOutcomes (outcomes outcomes' : List Outcome) : Prop :=
  ∀ r : Rule, outcomes'.filter (·.rule = r) = outcomes.filter (·.rule = r)

theorem SameOutcomes.refl (outcomes : List Outcome) : SameOutcomes outcomes outcomes := fun _ => rfl

theorem SameOutcomes.trans {outcomes outcomes' outcomes'' : List Outcome} (h : SameOutcomes outcomes outcomes')
    (h' : SameOutcomes outcomes' outcomes'') : SameOutcomes outcomes outcomes'' :=
  fun r => (h' r).trans (h r)

theorem SameOutcomes.append_left {outcomes outcomes' : List Outcome} (h : SameOutcomes outcomes outcomes')
    (first : List Outcome) : SameOutcomes (first ++ outcomes) (first ++ outcomes') := fun r => by
  rw [List.filter_append, List.filter_append, h r]

/-- Outcomes of different rules may change places. -/
theorem sameOutcomes_swap {r s : Rule} (hne : r ≠ s) {first second : List Outcome} (hfirst : ∀ o ∈ first, o.rule = r)
    (hsecond : ∀ o ∈ second, o.rule = s) (rest : List Outcome) :
    SameOutcomes (first ++ (second ++ rest)) (second ++ (first ++ rest)) := by
  intro r'
  simp only [List.filter_append]
  by_cases hr : r' = r
  · have hnone : second.filter (·.rule = r') = [] := List.filter_eq_nil_iff.mpr fun o ho => by
      simpa [hsecond o ho, hr] using Ne.symm hne
    simp [hnone]
  · have hnone : first.filter (·.rule = r') = [] := List.filter_eq_nil_iff.mpr fun o ho => by
      simpa [hfirst o ho] using Ne.symm hr
    simp [hnone]

section
variable {out : Path} {loc : Location} {tree tree' tree₁ : FileTree} {outcomes : List Outcome}

/-- **Rules do and report the same over trees with the same entries.** -/
theorem applyEach_congr : ∀ {rules : List Rule} {tree tree' tree₁ : FileTree} {outcomes : List Outcome},
    tree.Opens out loc → (∀ r ∈ rules, r.isSingle = true) → tree.Alike tree' →
      applyEach tree out rules = (tree₁, .ok outcomes) →
        ∃ tree₁', applyEach tree' out rules = (tree₁', .ok outcomes) ∧ tree₁.Alike tree₁'
  | [], tree, tree', tree₁, outcomes, _, _, halike, hok => by
    cases hok
    exact ⟨tree', rfl, halike⟩
  | r :: rest, tree, tree', tree₁, outcomes, h, hsingle, halike, hok => by
    obtain ⟨between, first, more, hfirst, hrest, rfl⟩ := applyEach_cons_ok_iff.mp hok
    obtain ⟨hsame, -, -⟩ := Rule.apply_ok h (hsingle r List.mem_cons_self) hfirst
    obtain ⟨between', hfirst', halike'⟩ := Rule.apply_congr h (hsingle r List.mem_cons_self) halike hfirst
    obtain ⟨tree₁', hrest', hend⟩ := applyEach_congr (hsame.opens h)
      (fun r hr => hsingle r (List.mem_cons_of_mem _ hr)) halike' hrest
    exact ⟨tree₁', applyEach_cons_ok_iff.mpr ⟨between', first, more, hfirst', hrest', rfl⟩, hend⟩

/-- A rule may come before those that it commutes with. -/
theorem applyEach_bring_forward {s : Rule} {back : List Rule} :
    ∀ {front : List Rule} {tree tree₁ : FileTree} {outcomes : List Outcome}, tree.Opens out loc →
      (∀ r ∈ front ++ s :: back, r.isSingle = true ∧ r.isSound = true) →
        (∀ r ∈ front, r = s ∨ r.commutes s = true) →
          applyEach tree out (front ++ s :: back) = (tree₁, .ok outcomes) →
            ∃ tree₁' outcomes', applyEach tree out (s :: (front ++ back)) = (tree₁', .ok outcomes') ∧
              tree₁.Alike tree₁' ∧ SameOutcomes outcomes outcomes'
  | [], tree, tree₁, outcomes, _, _, _, hok => ⟨tree₁, outcomes, hok, .refl _, .refl _⟩
  | r :: front, tree, tree₁, outcomes, h, hfit, hcommutes, hok => by
    have hfit' : ∀ r ∈ front ++ s :: back, r.isSingle = true ∧ r.isSound = true :=
      fun r hr => hfit r (List.mem_cons_of_mem _ hr)
    obtain ⟨between, first, more, hfirst, hrest, rfl⟩ := applyEach_cons_ok_iff.mp hok
    obtain ⟨hsame, -, -⟩ := Rule.apply_ok h (hfit r List.mem_cons_self).1 hfirst
    obtain ⟨tree₁', outcomes', hforward, halike, houtcomes⟩ := applyEach_bring_forward (hsame.opens h) hfit'
      (fun r hr => hcommutes r (List.mem_cons_of_mem _ hr)) hrest
    by_cases hrs : r = s
    · subst hrs
      exact ⟨tree₁', first ++ outcomes', applyEach_cons_ok_iff.mpr ⟨between, first, outcomes', hfirst, hforward, rfl⟩,
        halike, houtcomes.append_left first⟩
    · obtain ⟨beyond, second, third, hsecond, hthird, rfl⟩ := applyEach_cons_ok_iff.mp hforward
      have hs := hfit' s (by simp)
      obtain ⟨hsame', -, -⟩ := Rule.apply_ok (hsame.opens h) hs.1 hsecond
      obtain ⟨left, left', hleft, hleft', hswap⟩ := Rule.apply_swap h (hfit r List.mem_cons_self) hs
        ((hcommutes r List.mem_cons_self).resolve_left hrs) hfirst hsecond
      obtain ⟨tree₁'', hthird', halike'⟩ := applyEach_congr ((hsame.trans hsame').opens h)
        (fun r hr => (hfit' r (((List.sublist_cons_self s back).append_left front).subset hr)).1) hswap hthird
      refine ⟨tree₁'', second ++ (first ++ third), applyEach_cons_ok_iff.mpr ⟨left, second, first ++ third, hleft,
        applyEach_cons_ok_iff.mpr ⟨left', first, third, hleft', hthird', rfl⟩, rfl⟩, halike.trans halike', ?_⟩
      refine (houtcomes.append_left first).trans (sameOutcomes_swap hrs ?_ ?_ third)
      · exact fun o ho => ((Rule.isBlock_apply hfirst).reports o ho).rule
      · exact fun o ho => ((Rule.isBlock_apply hsecond).reports o ho).rule

/-- **The order of the rules of one phase does not matter if they commute.** -/
theorem applyEach_perm : ∀ {rules' rules : List Rule} {tree tree₁ : FileTree} {outcomes : List Outcome},
    tree.Opens out loc → rules'.Perm rules → (∀ r ∈ rules, r.isSingle = true ∧ r.isSound = true) →
      (∀ r ∈ rules, ∀ s ∈ rules, r.phase = s.phase → r = s ∨ r.commutes s = true) →
        rules.Pairwise (fun r later => r.phase ≤ later.phase) →
          rules'.Pairwise (fun r later => r.phase ≤ later.phase) →
            applyEach tree out rules = (tree₁, .ok outcomes) →
              ∃ tree₁' outcomes', applyEach tree out rules' = (tree₁', .ok outcomes') ∧
                tree₁.Alike tree₁' ∧ SameOutcomes outcomes outcomes'
  | [], rules, tree, tree₁, outcomes, _, hperm, _, _, _, _, hok => by
    obtain rfl := hperm.nil_eq
    exact ⟨tree₁, outcomes, hok, .refl _, .refl _⟩
  | s :: rest, rules, tree, tree₁, outcomes, h, hperm, hfit, hcommutes, hsorted, hsorted', hok => by
    obtain ⟨front, back, rfl⟩ := List.append_of_mem (hperm.subset List.mem_cons_self)
    have hperm' : rest.Perm (front ++ back) := (List.perm_cons s).mp (hperm.trans List.perm_middle)
    -- the rules before this one are in its phase
    have hfront : ∀ r ∈ front, r = s ∨ r.commutes s = true := by
      intro r hr
      have hle : r.phase ≤ s.phase := (List.pairwise_append.mp hsorted).2.2 r hr s List.mem_cons_self
      have hge : s.phase ≤ r.phase :=
        (List.pairwise_cons.mp hsorted').1 r (hperm'.symm.subset (List.mem_append_left _ hr))
      exact hcommutes r (List.mem_append_left _ hr) s (by simp) (by omega)
    obtain ⟨treeMid, outcomesMid, hforward, halike, houtcomes⟩ := applyEach_bring_forward h hfit hfront hok
    obtain ⟨between, first, more, hfirst, hmore, rfl⟩ := applyEach_cons_ok_iff.mp hforward
    have hs := hfit s (by simp)
    obtain ⟨hsame, -, -⟩ := Rule.apply_ok h hs.1 hfirst
    have hsub : (front ++ back).Sublist (front ++ s :: back) := (List.sublist_cons_self s back).append_left front
    obtain ⟨tree₁', outcomes', hrest, halike', houtcomes'⟩ := applyEach_perm (hsame.opens h) hperm'
      (fun r hr => hfit r (hsub.subset hr))
      (fun r hr s hs => hcommutes r (hsub.subset hr) s (hsub.subset hs)) (hsorted.sublist hsub) (List.pairwise_cons.mp hsorted').2 hmore
    exact ⟨tree₁', first ++ outcomes', applyEach_cons_ok_iff.mpr ⟨between, first, outcomes', hfirst, hrest, rfl⟩,
      halike.trans halike', houtcomes.trans (houtcomes'.append_left first)⟩

end

end Catalog

end FlowTypes
