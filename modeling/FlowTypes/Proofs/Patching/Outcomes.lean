import FlowTypes.Proofs.FileTree.Listing
import FlowTypes.Proofs.Patching.Revision

/-!
# What a rule reports

A rule that succeeds reports something, and only of itself: whether it writes a file, finds none, amends one or folds the
misses of many (`Rule.isBlock_apply`).

Like what a rule does, what it reports is a matter of the entries that it finds. `Rule.outcomeAt` says what an edit
reports of one entry, and `Rule.outcomesIn` what a rule reports of a directory. A rule that succeeds reports this
(`Rule.apply_outcomes`), and so it reports the same of directories with the same entries (`Rule.outcomesIn_congr`).
-/

namespace FlowTypes

/-! ## What may be reported -/

/-- The labels that rules give. -/
def Status.given : List Status :=
  [.created, .applied, .alreadyApplied, .anchorMissed, .artifactMissing, .notApplicable]

/-- An outcome that a rule may report. -/
structure Rule.Reports (r : Rule) (o : Outcome) : Prop where
  /-- It names the rule. -/
  rule : o.rule = r
  /-- It counts edits exactly where it says that there are any. -/
  edits : 0 < o.edits ↔ o.status = .applied
  /-- It has one of the labels. -/
  status : o.status ∈ Status.given

/-- The outcomes that a rule may report of all its artifacts together. -/
structure Rule.IsBlock (r : Rule) (block : List Outcome) : Prop where
  ne_nil : block ≠ []
  reports : ∀ o ∈ block, r.Reports o

theorem Patch.status_amend_mem (placement : Placement) (anchor : Anchor) (content t : Text) :
    (amend placement anchor content t).status ∈ Status.given := by
  unfold amend amendAt unmatched
  dsimp only
  split
  · split <;> simp [Status.given]
  · split <;> simp [Status.given]

namespace Rule

variable {r : Rule}

/-- Where nothing is edited there is nothing to count. -/
theorem reports_of_edits_eq_zero {artifact : Text} {status : Status} (hstatus : status ∈ Status.given)
    (hne : status ≠ .applied) : r.Reports ⟨r, artifact, status, 0⟩ where
  rule := rfl
  edits := by simp [hne]
  status := hstatus

theorem isBlock_singleton {o : Outcome} (h : r.Reports o) : r.IsBlock [o] where
  ne_nil := List.cons_ne_nil _ _
  reports := fun _ ho => List.mem_singleton.mp ho ▸ h

section
variable {placement : Placement} {anchor : Anchor}

theorem reports_amendFile {tree tree' : FileTree} {path : Path} {o : Outcome}
    (h : r.amendFile placement anchor tree path = (tree', .ok o)) : r.Reports o := by
  have hamended : ∀ t : Text, r.Reports ⟨r, path.name, (Patch.amend placement anchor r.content t).status,
      (Patch.amend placement anchor r.content t).edits⟩ := by
    intro t
    constructor
    case rule => rfl
    case edits => exact Patch.edits_amend_pos_iff placement anchor r.content t
    case status => exact Patch.status_amend_mem placement anchor r.content t
  unfold amendFile at h
  split at h
  · cases h
    exact reports_of_edits_eq_zero (by decide) (by decide)
  · cases h
  · rename_i t ht
    dsimp only at h
    split at h
    · cases h
      exact hamended t
    · split at h
      · cases h
        exact hamended t
      · cases h

/-- There is one outcome for each file. -/
theorem reports_amendFiles :
    ∀ {paths : List Path} {tree tree' : FileTree} {outcomes : List Outcome},
      r.amendFiles placement anchor tree paths = (tree', .ok outcomes) →
        outcomes.length = paths.length ∧ ∀ o ∈ outcomes, r.Reports o
  | [], tree, tree', outcomes, h => by
    cases h
    exact ⟨rfl, by simp⟩
  | path :: rest, tree, tree', outcomes, h => by
    obtain ⟨treeFirst, outcome, more, hfirst, hrest, rfl⟩ := amendFiles_cons_ok_iff.mp h
    obtain ⟨hlength, hmore⟩ := reports_amendFiles hrest
    refine ⟨by simp [hlength], fun o ho => ?_⟩
    rcases List.mem_cons.mp ho with rfl | ho
    · exact reports_amendFile hfirst
    · exact hmore o ho

end

/-- Folding makes one miss of many, or gives another label to those that there are. -/
theorem isBlock_foldMisses {outcomes : List Outcome} (h : r.IsBlock outcomes) :
    r.IsBlock (r.foldMisses outcomes) := by
  unfold foldMisses
  split
  · exact isBlock_singleton (reports_of_edits_eq_zero (by decide) (by decide))
  · constructor
    case ne_nil => simpa using h.ne_nil
    case reports =>
      intro o ho
      obtain ⟨o', ho', rfl⟩ := List.mem_map.mp ho
      have hreports := h.reports o' ho'
      split
      · rename_i hmissed
        -- a miss has no edits, so the new label needs none either
        have hnone : ¬ 0 < o'.edits := fun hpos => by
          have happlied := hreports.edits.mp hpos
          rw [hmissed] at happlied
          cases happlied
        exact ⟨hreports.rule, iff_of_false hnone nofun, by simp [Status.given]⟩
      · exact hreports

/-- **A rule that succeeds reports something, and only of itself.** -/
theorem isBlock_apply {tree tree' : FileTree} {out : Path} {outcomes : List Outcome}
    (h : r.apply tree out = (tree', .ok outcomes)) : r.IsBlock outcomes := by
  unfold apply at h
  cases haction : r.action with
  | create =>
    simp only [haction, create] at h
    split at h
    · cases h
    · split at h
      · cases h
        exact isBlock_singleton (reports_of_edits_eq_zero (by decide) (by decide))
      · cases h
  | amend placement anchor =>
    simp only [haction] at h
    split at h
    · cases h
    · cases h
      exact isBlock_singleton (reports_of_edits_eq_zero (by decide) (by decide))
    · rename_i paths hpaths _
      split at h
      · cases h
      · rename_i treeFiles more hfiles
        obtain ⟨hlength, hreports⟩ := reports_amendFiles hfiles
        have hblock : r.IsBlock more := by
          refine ⟨fun hnil => ?_, hreports⟩
          rw [hnil] at hlength
          exact hpaths (List.length_eq_zero_iff.mp hlength.symm)
        cases h
        split
        · exact isBlock_foldMisses hblock
        · exact hblock

end Rule

namespace Rule

/-! ## One entry -/

/-- What an edit reports of the entry under a name. -/
def outcomeAt (r : Rule) (placement : Placement) (anchor : Anchor) (name : Text) : Option Entry → Outcome
  | some (.file bytes) =>
    match FileTree.textOf bytes with
    | .ok t =>
      let patched := Patch.amend placement anchor r.content t
      ⟨r, name, patched.status, patched.edits⟩
    | .error _ => ⟨r, name, .artifactMissing, 0⟩
  | _ => ⟨r, name, .artifactMissing, 0⟩

section
variable {r : Rule} {placement : Placement} {anchor : Anchor} {tree tree' : FileTree} {out : Path} {loc : Location}

theorem outcomeAt_file {bytes : List UInt8} {t : Text} (ht : FileTree.textOf bytes = .ok t) (name : Text) :
    r.outcomeAt placement anchor name (some (.file bytes)) =
      ⟨r, name, (Patch.amend placement anchor r.content t).status,
        (Patch.amend placement anchor r.content t).edits⟩ := by
  simp [outcomeAt, ht]

theorem amendFile_outcome (h : tree.Opens out loc) {name : Text} (hname : name ≠ ['.', '.']) {outcome : Outcome}
    (hok : r.amendFile placement anchor tree (out.child name) = (tree', .ok outcome)) :
    outcome = r.outcomeAt placement anchor name (tree.under loc name) := by
  obtain ⟨-, hreach, -, hmay, -⟩ := amendFile_ok h hname hok
  rw [amendFile_child h hname hreach] at hok
  cases hunder : tree.under loc name with
  | none =>
    rw [hunder] at hok
    cases hok
    rfl
  | some entry =>
    cases entry with
    | directory => rw [hunder] at hok; cases hok
    | file bytes =>
      simp only [hunder] at hok
      cases ht : FileTree.textOf bytes with
      | error fault => rw [ht] at hok; cases hok
      | ok t =>
        rw [hunder] at hmay
        simp only [ht, if_pos hmay, Prod.mk.injEq, Except.ok.injEq] at hok
        rw [outcomeAt_file ht, ← hok.2]

/-! ## A directory -/

/-- Edits of several files report what they find, one after the other. -/
theorem amendFiles_outcomes :
    ∀ {names : List Text} {tree tree' : FileTree} {outcomes : List Outcome}, tree.Opens out loc →
      names.Nodup → (∀ name ∈ names, name ≠ ['.', '.']) →
        r.amendFiles placement anchor tree (names.map out.child) = (tree', .ok outcomes) →
          outcomes = names.map fun name => r.outcomeAt placement anchor name (tree.under loc name)
  | [], tree, tree', outcomes, _, _, _, hok => by
    cases hok
    rfl
  | name :: names, tree, tree', outcomes, h, hnodup, hne, hok => by
    obtain ⟨hnotin, hnodup⟩ := List.nodup_cons.mp hnodup
    obtain ⟨treeFirst, outcome, more, hfirst, hrest, rfl⟩ := amendFiles_cons_ok_iff.mp hok
    have houtcome := amendFile_outcome h (hne name List.mem_cons_self) hfirst
    obtain ⟨hsame, -, -, -, hothers, -⟩ := amendFile_ok h (hne name List.mem_cons_self) hfirst
    have hmore := amendFiles_outcomes (hsame.opens h) hnodup
      (fun name hm => hne name (List.mem_cons_of_mem _ hm)) hrest
    rw [List.map_cons, houtcome, hmore]
    congr 1
    refine List.map_congr_left fun name' hm => ?_
    rw [hothers name' fun e => hnotin (e ▸ hm)]

/-- What a rule reports of the directory at a path. -/
def outcomesIn (r : Rule) (tree : FileTree) (out : Path) (loc : Location) : List Outcome :=
  match r.action with
  | .create => [⟨r, r.target, .created, 0⟩]
  | .amend placement anchor =>
    if Wildcard.isPattern r.target then
      match Glob.filesIn tree out loc r.target with
      | [] => [⟨r, r.target, .artifactMissing, 0⟩]
      | names => r.foldMisses (names.map fun name => r.outcomeAt placement anchor name (tree.under loc name))
    else [r.outcomeAt placement anchor r.target (tree.under loc r.target)]

theorem outcomesIn_plain (haction : r.action = .amend placement anchor) (hp : Wildcard.isPattern r.target = false) :
    r.outcomesIn tree out loc = [r.outcomeAt placement anchor r.target (tree.under loc r.target)] := by
  simp [outcomesIn, haction, hp]

/-- A glob that selects a file reports its files. -/
theorem outcomesIn_glob (haction : r.action = .amend placement anchor) (hp : Wildcard.isPattern r.target = true)
    {name : Text} (hname : name ∈ Glob.filesIn tree out loc r.target) :
    r.outcomesIn tree out loc = r.foldMisses ((Glob.filesIn tree out loc r.target).map fun name =>
      r.outcomeAt placement anchor name (tree.under loc name)) := by
  simp only [outcomesIn, haction, hp, if_true]
  cases hnames : Glob.filesIn tree out loc r.target with
  | nil =>
    rw [hnames] at hname
    cases hname
  | cons first rest => rfl

section
variable {placement : Placement} {anchor : Anchor} {outcomes : List Outcome}

theorem create_outcomes (haction : r.action = .create) (hok : r.apply tree out = (tree', .ok outcomes)) :
    outcomes = r.outcomesIn tree out loc := by
  simp only [apply, haction, create] at hok
  simp only [outcomesIn, haction]
  split at hok
  · cases hok
  · split at hok
    · cases hok
      rfl
    · cases hok

/-- An edit of one file reports what it finds there. -/
theorem apply_outcomes_plain (h : tree.Opens out loc) (haction : r.action = .amend placement anchor)
    (hp : Wildcard.isPattern r.target = false) (hname : r.target.isName = true)
    (hok : r.apply tree out = (tree', .ok outcomes)) : outcomes = r.outcomesIn tree out loc := by
  have htargets : r.targets tree out = .ok ([r.target].map out.child) := targets_plain hp hname tree
  rw [apply_of_targets haction htargets (by simp), hp] at hok
  cases hfiles : r.amendFiles placement anchor tree ([r.target].map out.child) with
  | mk treeFiles answer =>
  rw [hfiles] at hok
  cases answer with
  | error fault => cases hok
  | ok more =>
    have hmore := amendFiles_outcomes h (by simp)
      (fun name hm => List.mem_singleton.mp hm ▸ target_ne_dots hname) hfiles
    cases hok
    rw [outcomesIn_plain haction hp, hmore]
    rfl

/-- An edit of all files that fit reports what it finds in them, in the order of their listing. -/
theorem apply_outcomes_glob (h : tree.Opens out loc) (hr : r.SelectsIn tree loc)
    (haction : r.action = .amend placement anchor) (hp : Wildcard.isPattern r.target = true)
    (hok : r.apply tree out = (tree', .ok outcomes)) : outcomes = r.outcomesIn tree out loc := by
  obtain ⟨hsingle, hdots⟩ := hr.glob hp
  cases htargets : r.targets tree out with
  | error fault => simp [apply, haction, htargets] at hok
  | ok paths =>
    have hpaths : paths = (Glob.filesIn tree out loc r.target).map out.child := by
      rw [targets, if_pos hp] at htargets
      exact Glob.files_eq_filesIn h hsingle hdots htargets
    subst hpaths
    simp only [outcomesIn, haction, hp, if_true]
    cases hnames : Glob.filesIn tree out loc r.target with
    | nil =>
      rw [hnames] at htargets
      rw [apply_of_targets_nil haction htargets] at hok
      cases hok
      rfl
    | cons first rest =>
      rw [hnames] at htargets
      rw [apply_of_targets haction htargets (by simp), hp] at hok
      cases hfiles : r.amendFiles placement anchor tree ((first :: rest).map out.child) with
      | mk treeFiles answer =>
      rw [hfiles] at hok
      cases answer with
      | error fault => cases hok
      | ok more =>
        have hmore := amendFiles_outcomes h (hnames ▸ Glob.nodup_filesIn tree out loc r.target)
          (fun name hm => by
            rw [← hnames, Glob.mem_filesIn] at hm
            exact hdots name hm.1.1 hm.1.2.1) hfiles
        cases hok
        rw [hmore]
        rfl

/-- **A rule that succeeds reports what it finds.** -/
theorem apply_outcomes (h : tree.Opens out loc) (hr : r.SelectsIn tree loc)
    (hok : r.apply tree out = (tree', .ok outcomes)) : outcomes = r.outcomesIn tree out loc := by
  cases haction : r.action with
  | create => exact create_outcomes haction hok
  | amend placement anchor =>
    cases hp : Wildcard.isPattern r.target with
    | false => exact apply_outcomes_plain h haction hp (hr.isName hp) hok
    | true => exact apply_outcomes_glob h hr haction hp hok

end

/-- A rule reports the same of directories with the same entries. -/
theorem outcomesIn_congr (h : ∀ name, tree'.under loc name = tree.under loc name) :
    r.outcomesIn tree' out loc = r.outcomesIn tree out loc := by
  unfold outcomesIn
  rw [Glob.filesIn_congr h]
  simp only [h]

/-- A plain rule reports the same where its target is the same. -/
theorem outcomesIn_congr_of_plain (hp : Wildcard.isPattern r.target = false)
    (h : tree'.under loc r.target = tree.under loc r.target) :
    r.outcomesIn tree' out loc = r.outcomesIn tree out loc := by
  unfold outcomesIn
  simp only [hp, Bool.false_eq_true, if_false, h]

end

end Rule

end FlowTypes
