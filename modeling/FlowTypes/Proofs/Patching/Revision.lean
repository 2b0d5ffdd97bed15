import FlowTypes.Proofs.FileTree.Glob
import FlowTypes.Proofs.Patching.Amending

/-!
# What a rule does, name by name

A rule whose target is a name in the directory, or a glob of such names, treats every entry of the directory by
itself: `Rule.revise` says what it makes of the entry under a name, or that it fails over it. The tree is not
mentioned there, and this is what makes runs of rules tractable. Of the tree it matters only whether the name is
locked; what a rule makes of a locked entry is the entry itself (`Rule.eq_of_revise_locked`).

The application of a rule to an open directory revises the entry under every name and changes nothing outside
(`Rule.apply_ok_of_selectsIn`). If it fails, every entry is as it was or revised, and there is one over which the rule fails
(`Rule.apply_error`). The same holds for a list of rules (`Catalog.applyEach_ok`, `Catalog.applyEach_error`),
where a run that fails may have come to a different rule at every name.
-/

namespace FlowTypes

/-! ## Revision -/

namespace Rule

/-- The target is a name in the directory, or a glob of such names. -/
def isSingle (r : Rule) : Bool :=
  if Wildcard.isPattern r.target then
    Glob.isSingle r.target && !Wildcard.fits (Wildcard.marks r.target) ['.', '.']
  else r.target.isName

/-- The target is a name, or a glob that selects among the entries of the directory at a location, where none that it
selects leads back up. -/
def SelectsIn (r : Rule) (tree : FileTree) (loc : Location) : Prop :=
  if Wildcard.isPattern r.target then
    Glob.isSingle r.target = true ∧ ∀ name, Wildcard.fits (Wildcard.marks r.target) name = true →
      (tree.under loc name).isSome = true → name ≠ ['.', '.']
  else r.target.isName = true

/-- The rule is about entries of this name. -/
def concerns (r : Rule) (name : Text) : Bool :=
  if Wildcard.isPattern r.target then Wildcard.fits (Wildcard.marks r.target) name
  else decide (name = r.target)

/-- The rule meets the entry under a name. A glob sees only what is there, and no name with a null byte. -/
def meets (r : Rule) (out : Path) (name : Text) (entry : Option Entry) : Bool :=
  r.concerns name &&
    (!Wildcard.isPattern r.target || (entry.isSome && !(out.child name).text.contains '\x00'))

/-- What the action of a rule makes of an entry, or nothing if it fails over it. A glob passes over
directories. -/
def rewrite (r : Rule) (entry : Option Entry) : Option (Option Entry) :=
  match r.action with
  | .create => if entry = some .directory then none else some (some (.file (Utf8.encode r.content)))
  | .amend placement anchor =>
    if Wildcard.isPattern r.target && entry = some .directory then some entry
    else r.amendEntry placement anchor entry

/-- The rule writes the entry. A rule that has nothing to amend does not. -/
def writes (r : Rule) (entry : Option Entry) : Bool :=
  match r.action with
  | .create => true
  | .amend placement anchor => r.changesEntry placement anchor entry

/-- The rule is not kept from what it does by a lock. -/
def mayRevise (r : Rule) (free : Bool) (entry : Option Entry) : Bool := free || !r.writes entry

/-- What a rule makes of the entry under a name, which is free or locked, or nothing if it fails over it. -/
def revise (r : Rule) (out : Path) (name : Text) (free : Bool) (entry : Option Entry) : Option (Option Entry) :=
  if r.meets out name entry then
    (if out.reaches name && r.mayRevise free entry then r.rewrite entry else none)
  else some entry

/-- The rule finds something to do at the entry under a name. -/
def Edits (r : Rule) (out : Path) (name : Text) (entry : Option Entry) : Prop :=
  r.meets out name entry = true ∧ ∃ placement anchor bytes t, r.action = .amend placement anchor ∧
    entry = some (.file bytes) ∧ FileTree.textOf bytes = .ok t ∧
      (Patch.amend placement anchor r.content t).status = .applied

theorem mayRevise_true (r : Rule) (entry : Option Entry) : r.mayRevise true entry = true := rfl

theorem mayRevise_of_amend {r : Rule} {placement : Placement} {anchor : Anchor}
    (haction : r.action = .amend placement anchor) (free : Bool) (entry : Option Entry) :
    r.mayRevise free entry = r.mayAmend placement anchor free entry := by
  simp [mayRevise, writes, mayAmend, haction]

/-- What was revised under a lock would have been revised without it. -/
theorem revise_free {r : Rule} {out : Path} {name : Text} {free : Bool} {entry entry' : Option Entry}
    (h : r.revise out name free entry = some entry') : r.revise out name true entry = some entry' := by
  unfold revise at h ⊢
  split at h
  · rename_i hmeets
    rw [if_pos hmeets]
    split at h
    · rename_i hmay
      rw [Bool.and_eq_true] at hmay
      rw [hmay.1, mayRevise_true]
      exact h
    · cases h
  · rename_i hmeets
    rw [if_neg hmeets, h]

/-- **A locked entry is as it was.** -/
theorem eq_of_revise_locked {r : Rule} {out : Path} {name : Text} {entry entry' : Option Entry}
    (h : r.revise out name false entry = some entry') : entry' = entry := by
  unfold revise at h
  split at h
  · split at h
    · rename_i hmay
      simp only [mayRevise, Bool.false_or, Bool.and_eq_true, Bool.not_eq_true'] at hmay
      unfold writes at hmay
      unfold rewrite at h
      cases haction : r.action with
      | create => simp [haction] at hmay
      | amend placement anchor =>
        simp only [haction] at hmay h
        split at h
        · exact (Option.some.inj h).symm
        · exact eq_of_changesEntry hmay.2 h
    · cases h
  · exact (Option.some.inj h).symm

/-- No rule makes a directory, and none replaces one. -/
theorem revise_directory_iff {r : Rule} {out : Path} {name : Text} {free : Bool} {entry entry' : Option Entry}
    (h : r.revise out name free entry = some entry') : entry' = some .directory ↔ entry = some .directory := by
  unfold revise at h
  split at h
  · split at h
    · unfold rewrite at h
      split at h
      · split at h
        · cases h
        · rename_i hdir
          cases h
          exact ⟨nofun, fun e => absurd e hdir⟩
      · split at h
        · cases h
          exact Iff.rfl
        · constructor
          · rintro rfl
            exact absurd h amendEntry_ne_directory
          · rintro rfl
            cases h
    · cases h
  · cases h
    exact Iff.rfl

/-! ## One rule -/

section
variable {r : Rule} {tree tree' : FileTree} {out : Path} {loc : Location}

theorem not_isPattern_of_create (h : r.action = .create) : Wildcard.isPattern r.target = false := by
  have haccepted := r.accepted
  rw [h] at haccepted
  simpa [Action.accepts] using haccepted

theorem single_of_isPattern (hr : r.isSingle = true) (hp : Wildcard.isPattern r.target = true) :
    Glob.isSingle r.target = true ∧ Wildcard.fits (Wildcard.marks r.target) ['.', '.'] = false := by
  simpa [isSingle, hp] using hr

theorem isName_target (hr : r.isSingle = true) (hp : Wildcard.isPattern r.target = false) :
    r.target.isName = true := by
  simpa [isSingle, hp] using hr

theorem target_ne_dots (hname : r.target.isName = true) : r.target ≠ ['.', '.'] :=
  (Text.isName_iff.mp hname).2.2.2

theorem targetPath_eq (hname : r.target.isName = true) : r.targetPath out = out.child r.target :=
  Path.join_ofText hname out

theorem targets_plain (hp : Wildcard.isPattern r.target = false) (hname : r.target.isName = true) (tree : FileTree) :
    r.targets tree out = .ok [out.child r.target] := by
  rw [targets, if_neg (by simp [hp]), targetPath_eq hname]

theorem selectsIn_of_isSingle (hr : r.isSingle = true) : r.SelectsIn tree loc := by
  unfold SelectsIn
  split
  · rename_i hp
    obtain ⟨hsingle, hdots⟩ := single_of_isPattern hr hp
    exact ⟨hsingle, fun name hfits _ => Glob.ne_dots_of_fits hdots hfits⟩
  · rename_i hp
    exact isName_target hr (Bool.eq_false_iff.mpr hp)

theorem SelectsIn.glob (hr : r.SelectsIn tree loc) (hp : Wildcard.isPattern r.target = true) :
    Glob.isSingle r.target = true ∧ ∀ name, Wildcard.fits (Wildcard.marks r.target) name = true →
      (tree.under loc name).isSome = true → name ≠ ['.', '.'] := by
  rw [SelectsIn, if_pos hp] at hr
  exact hr

theorem SelectsIn.isName (hr : r.SelectsIn tree loc) (hp : Wildcard.isPattern r.target = false) :
    r.target.isName = true := by
  rw [SelectsIn, if_neg (by simp [hp])] at hr
  exact hr

/-- A plain rule meets the entries of its target. -/
theorem meets_plain (hp : Wildcard.isPattern r.target = false) {name : Text} {entry : Option Entry} :
    r.meets out name entry = decide (name = r.target) := by
  simp [meets, concerns, hp]

/-- A glob meets the names that it sees. -/
theorem meets_glob (hp : Wildcard.isPattern r.target = true) {name : Text} :
    r.meets out name (tree.under loc name) = true ↔ Glob.Fitting tree out loc r.target name := by
  simp [meets, concerns, hp, Glob.Fitting, FileTree.under, -List.contains_eq_mem]

theorem revise_of_not_meets {name : Text} {free : Bool} {entry : Option Entry}
    (h : r.meets out name entry = false) : r.revise out name free entry = some entry := by
  simp [revise, h]

theorem create_ok (h : tree.Opens out loc) (hname : r.target.isName = true) (hcreate : r.action = .create)
    {outcomes : List Outcome} (hok : r.create tree out = (tree', .ok outcomes)) :
    FileTree.SameOutside loc tree tree' ∧
      (∀ name, r.revise out name (tree.writable loc name) (tree.under loc name) = some (tree'.under loc name)) ∧
      ∀ o ∈ outcomes, o.status ≠ .applied := by
  have hp := not_isPattern_of_create hcreate
  unfold create at hok
  rw [FileTree.ensureDirectory_of_opens h, targetPath_eq hname] at hok
  dsimp only [FileTree.writeText] at hok
  cases hreach : out.reaches r.target with
  | false =>
    obtain ⟨fault, hfault, -⟩ := FileTree.writeBytes_of_not_reaches h (target_ne_dots hname) hreach
      (Utf8.encode r.content)
    rw [hfault] at hok
    cases hok
  | true =>
    rw [FileTree.writeBytes_child h (target_ne_dots hname) hreach] at hok
    by_cases hdir : tree.get? (loc ++ [r.target]) = some .directory
    · rw [if_pos hdir] at hok
      cases hok
    · rw [if_neg hdir, FileTree.putAt_child] at hok
      by_cases hfree : tree.writable loc r.target = true
      case neg => rw [if_neg hfree] at hok; cases hok
      rw [if_pos hfree] at hok
      cases hok
      refine ⟨FileTree.sameOutside_put _ hdir, fun name => ?_, fun o ho => ?_⟩
      · rw [FileTree.under_put, revise, meets_plain hp]
        by_cases hname : name = r.target
        · subst hname
          simp [hreach, hfree, mayRevise, rewrite, hcreate, FileTree.under, hdir]
        · simp [hname]
      · rw [List.mem_singleton.mp ho]
        exact fun happlied => by cases happlied

theorem create_error (h : tree.Opens out loc) (hname : r.target.isName = true) (hcreate : r.action = .create)
    {fault : FileFault} (herror : r.create tree out = (tree', .error fault)) :
    tree' = tree ∧ r.revise out r.target (tree.writable loc r.target) (tree.under loc r.target) = none ∧
      (out.reaches r.target = true → tree.writable loc r.target = true → fault.ofEntry = true) := by
  have hp := not_isPattern_of_create hcreate
  unfold create at herror
  rw [FileTree.ensureDirectory_of_opens h, targetPath_eq hname] at herror
  dsimp only [FileTree.writeText] at herror
  rw [revise, meets_plain hp]
  cases hreach : out.reaches r.target with
  | false =>
    obtain ⟨fault, hfault, -⟩ := FileTree.writeBytes_of_not_reaches h (target_ne_dots hname) hreach
      (Utf8.encode r.content)
    rw [hfault] at herror
    cases herror
    simp
  | true =>
    rw [FileTree.writeBytes_child h (target_ne_dots hname) hreach] at herror
    by_cases hdir : tree.get? (loc ++ [r.target]) = some .directory
    · rw [if_pos hdir] at herror
      cases herror
      simp [rewrite, hcreate, FileTree.under, hdir, FileFault.ofEntry]
    · rw [if_neg hdir, FileTree.putAt_child] at herror
      by_cases hfree : tree.writable loc r.target = true
      case pos => rw [if_pos hfree] at herror; cases herror
      rw [if_neg hfree] at herror
      cases herror
      simp [mayRevise, writes, hcreate, hfree]

theorem mem_of_mem_foldMisses {outcomes : List Outcome} {o : Outcome} (ho : o ∈ r.foldMisses outcomes)
    (hs : o.status = .applied) : o ∈ outcomes := by
  unfold foldMisses at ho
  split at ho
  · rw [List.mem_singleton.mp ho] at hs
    cases hs
  · obtain ⟨o', ho', rfl⟩ := List.mem_map.mp ho
    split at hs
    · cases hs
    · rename_i hmissed
      rw [if_neg hmissed]
      exact ho'

/-- The files that a rule is to amend, by name. -/
theorem exists_names_of_targets (h : tree.Opens out loc) (hr : r.SelectsIn tree loc) {paths : List Path}
    (htargets : r.targets tree out = .ok paths) :
    ∃ names : List Text, paths = names.map out.child ∧ names.Nodup ∧
      (∀ name ∈ names, name ≠ ['.', '.'] ∧ r.meets out name (tree.under loc name) = true ∧
        (Wildcard.isPattern r.target = true → tree.under loc name ≠ some .directory)) ∧
      ∀ name, r.meets out name (tree.under loc name) = true → name ∉ names →
        Wildcard.isPattern r.target = true ∧ out.reaches name = true ∧
          tree.under loc name = some .directory := by
  unfold targets at htargets
  cases hp : Wildcard.isPattern r.target with
  | false =>
    rw [hp] at htargets
    cases htargets
    refine ⟨[r.target], by rw [targetPath_eq (hr.isName hp)]; rfl, by simp, ?_, ?_⟩
    · intro name hm
      rw [List.mem_singleton.mp hm]
      exact ⟨target_ne_dots (hr.isName hp), by simp [meets_plain hp], fun h => by cases h⟩
    · intro name hmeets hm
      rw [meets_plain hp] at hmeets
      exact absurd (List.mem_singleton.mpr (of_decide_eq_true hmeets)) hm
  | true =>
    rw [hp] at htargets
    obtain ⟨hsingle, hdots⟩ := hr.glob hp
    obtain ⟨names, hpaths, hnodup, hmem, hreaches⟩ := Glob.exists_names_of_files h hsingle hdots htargets
    refine ⟨names, hpaths, hnodup, fun name hm => ?_, fun name hmeets hm => ?_⟩
    · obtain ⟨hfitting, bytes, hbytes⟩ := (hmem name).mp hm
      exact ⟨hdots name hfitting.1 hfitting.2.1, (meets_glob hp).mpr hfitting,
        fun _ => by simp [FileTree.under, hbytes]⟩
    · have hfitting := (meets_glob hp).mp hmeets
      refine ⟨rfl, hreaches name hfitting, ?_⟩
      obtain ⟨entry, hentry⟩ := Option.isSome_iff_exists.mp hfitting.2.1
      cases entry with
      | file bytes => exact absurd ((hmem name).mpr ⟨hfitting, bytes, hentry⟩) hm
      | directory => exact hentry

/-- What a rule makes of an entry that it amends. -/
theorem revise_of_reaches {placement : Placement} {anchor : Anchor} {name : Text} {free : Bool}
    {entry : Option Entry} (haction : r.action = .amend placement anchor) (hmeets : r.meets out name entry = true)
    (hreach : out.reaches name = true)
    (hdir : Wildcard.isPattern r.target = true → entry ≠ some .directory) :
    r.revise out name free entry =
      if r.mayAmend placement anchor free entry = true then r.amendEntry placement anchor entry else none := by
  have hpass : (Wildcard.isPattern r.target && decide (entry = some .directory)) = false := by
    cases hp : Wildcard.isPattern r.target with
    | false => rfl
    | true => simpa using hdir hp
  simp [revise, hmeets, hreach, mayRevise_of_amend haction, rewrite, haction, hpass]

theorem revise_directory {placement : Placement} {anchor : Anchor} {name : Text} {free : Bool}
    (haction : r.action = .amend placement anchor) (hp : Wildcard.isPattern r.target = true)
    (hreach : out.reaches name = true) :
    r.revise out name free (some .directory) = some (some .directory) := by
  unfold revise
  split
  · simp [hreach, mayRevise, writes, changesEntry, rewrite, haction, hp]
  · rfl

theorem apply_of_targets_nil {placement : Placement} {anchor : Anchor}
    (haction : r.action = .amend placement anchor) (htargets : r.targets tree out = .ok []) :
    r.apply tree out = (tree, .ok [⟨r, r.target, .artifactMissing, 0⟩]) := by
  simp [apply, haction, htargets]

theorem apply_of_targets {placement : Placement} {anchor : Anchor} {paths : List Path}
    (haction : r.action = .amend placement anchor) (htargets : r.targets tree out = .ok paths)
    (hne : paths ≠ []) :
    r.apply tree out =
      match r.amendFiles placement anchor tree paths with
      | (tree, .error fault) => (tree, .error fault)
      | (tree, .ok outcomes) =>
        (tree, .ok (if Wildcard.isPattern r.target then r.foldMisses outcomes else outcomes)) := by
  unfold apply
  rw [haction]
  dsimp only
  rw [htargets]
  cases paths with
  | nil => exact absurd rfl hne
  | cons path rest => rfl

/-- **A rule that succeeds revises the entry under every name**, and changes nothing outside. -/
theorem apply_ok_of_selectsIn (h : tree.Opens out loc) (hr : r.SelectsIn tree loc) {outcomes : List Outcome}
    (hok : r.apply tree out = (tree', .ok outcomes)) :
    FileTree.SameOutside loc tree tree' ∧
      (∀ name, r.revise out name (tree.writable loc name) (tree.under loc name) = some (tree'.under loc name)) ∧
      ∀ o ∈ outcomes, o.status = .applied → ∃ name, r.Edits out name (tree.under loc name) := by
  cases haction : r.action with
  | create =>
    rw [apply, haction] at hok
    obtain ⟨hsame, hrevise, happlied⟩ := create_ok h (hr.isName (not_isPattern_of_create haction)) haction hok
    exact ⟨hsame, hrevise, fun o ho hs => absurd hs (happlied o ho)⟩
  | amend placement anchor =>
    cases htargets : r.targets tree out with
    | error fault => simp [apply, haction, htargets] at hok
    | ok paths =>
      obtain ⟨names, rfl, hnodup, hnames, hpassed⟩ := exists_names_of_targets h hr htargets
      -- what a glob passes over stays
      have hstays : ∀ name, name ∉ names →
          r.revise out name (tree.writable loc name) (tree.under loc name) = some (tree.under loc name) := by
        intro name hm
        cases hmeets : r.meets out name (tree.under loc name) with
        | false => exact revise_of_not_meets hmeets
        | true =>
          obtain ⟨hp, hreach, hdir⟩ := hpassed name hmeets hm
          rw [hdir]
          exact revise_directory haction hp hreach
      by_cases hnone : names = []
      · subst hnone
        rw [apply_of_targets_nil haction htargets] at hok
        cases hok
        refine ⟨.refl _ _, fun name => hstays name List.not_mem_nil, fun o ho hs => ?_⟩
        rw [List.mem_singleton.mp ho] at hs
        cases hs
      · rw [apply_of_targets haction htargets (by simpa using hnone)] at hok
        cases hfiles : r.amendFiles placement anchor tree (names.map out.child) with
        | mk treeFiles answer =>
        rw [hfiles] at hok
        cases answer with
        | error fault => cases hok
        | ok more =>
          simp only [Prod.mk.injEq, Except.ok.injEq] at hok
          obtain ⟨rfl, rfl⟩ := hok
          obtain ⟨hsame, hentries, hothers, happlied⟩ :=
            amendFiles_ok h hnodup (fun name hm => (hnames name hm).1) hfiles
          refine ⟨hsame, fun name => ?_, fun o ho hs => ?_⟩
          · by_cases hm : name ∈ names
            · obtain ⟨-, hmeets, hdir⟩ := hnames name hm
              obtain ⟨hreach, hentry, hmay⟩ := hentries name hm
              rw [revise_of_reaches haction hmeets hreach hdir, if_pos hmay]
              exact hentry
            · rw [hothers name hm]
              exact hstays name hm
          · have ho' : o ∈ more := by
              split at ho
              · exact mem_of_mem_foldMisses ho hs
              · exact ho
            obtain ⟨name, hm, bytes, t, hunder, ht, hstatus⟩ := happlied o ho' hs
            exact ⟨name, (hnames name hm).2.1, placement, anchor, bytes, t, haction, hunder, ht, hstatus⟩

theorem apply_ok (h : tree.Opens out loc) (hr : r.isSingle = true) {outcomes : List Outcome}
    (hok : r.apply tree out = (tree', .ok outcomes)) :
    FileTree.SameOutside loc tree tree' ∧
      (∀ name, r.revise out name (tree.writable loc name) (tree.under loc name) = some (tree'.under loc name)) ∧
      ∀ o ∈ outcomes, o.status = .applied → ∃ name, r.Edits out name (tree.under loc name) :=
  apply_ok_of_selectsIn h (selectsIn_of_isSingle hr) hok

/-- **A rule that fails has left every entry as it was or revised it**, and it fails over one of them, which is at
fault itself if it is within reach. -/
theorem apply_error (h : tree.Opens out loc) (hr : r.isSingle = true) {fault : FileFault}
    (herror : r.apply tree out = (tree', .error fault)) :
    FileTree.SameOutside loc tree tree' ∧
      (∀ name, tree'.under loc name = tree.under loc name ∨
        r.revise out name (tree.writable loc name) (tree.under loc name) = some (tree'.under loc name)) ∧
      ∃ name, r.revise out name (tree.writable loc name) (tree.under loc name) = none ∧
        (out.reaches name = true → tree.writable loc name = true → fault.ofEntry = true) := by
  cases haction : r.action with
  | create =>
    rw [apply, haction] at herror
    obtain ⟨rfl, hfails⟩ := create_error h (isName_target hr (not_isPattern_of_create haction)) haction herror
    exact ⟨.refl _ _, fun _ => .inl rfl, r.target, hfails⟩
  | amend placement anchor =>
    cases htargets : r.targets tree out with
    | error fault' =>
      simp only [apply, haction, htargets, Prod.mk.injEq] at herror
      obtain ⟨rfl, -⟩ := herror
      refine ⟨.refl _ _, fun _ => .inl rfl, ?_⟩
      unfold targets at htargets
      cases hp : Wildcard.isPattern r.target with
      | false => rw [hp] at htargets; cases htargets
      | true =>
        rw [hp] at htargets
        obtain ⟨hsingle, hdots⟩ := single_of_isPattern hr hp
        obtain ⟨-, name, hfitting, hreach⟩ := Glob.exists_name_of_files_error h hsingle hdots htargets
        exact ⟨name, by simp [revise, (meets_glob hp).mpr hfitting, hreach], by simp [hreach]⟩
    | ok paths =>
      obtain ⟨names, rfl, hnodup, hnames, -⟩ := exists_names_of_targets h (selectsIn_of_isSingle hr) htargets
      by_cases hnone : names = []
      · subst hnone
        rw [apply_of_targets_nil haction htargets] at herror
        cases herror
      · rw [apply_of_targets haction htargets (by simpa using hnone)] at herror
        cases hfiles : r.amendFiles placement anchor tree (names.map out.child) with
        | mk treeFiles answer =>
        rw [hfiles] at herror
        cases answer with
        | ok more => cases herror
        | error fault' =>
          cases herror
          obtain ⟨hsame, hentries, name, hm, hfails⟩ :=
            amendFiles_error h hnodup (fun name hm => (hnames name hm).1) hfiles
          refine ⟨hsame, fun name' => ?_, name, ?_, fun hreach hfree => ?_⟩
          · rcases hentries name' with hstays | ⟨hm', hreach, hentry, hmay⟩
            · exact .inl hstays
            · obtain ⟨-, hmeets, hdir⟩ := hnames name' hm'
              rw [revise_of_reaches haction hmeets hreach hdir, if_pos hmay]
              exact .inr hentry
          · obtain ⟨-, hmeets, hdir⟩ := hnames name hm
            cases hreach : out.reaches name with
            | false => simp [revise, hmeets, hreach]
            | true =>
              rw [revise_of_reaches haction hmeets hreach hdir]
              rcases hfails hreach with hmay | ⟨-, hentry⟩
              · rw [if_neg (Bool.eq_false_iff.mp hmay)]
              · rw [hentry, ite_self]
          · rcases hfails hreach with hmay | ⟨hfault, -⟩
            · simp [mayAmend, hfree] at hmay
            · exact hfault

end

end Rule

/-! ## A catalog -/

namespace Catalog

/-- What rules make of the entry under a name, one after the other, or nothing if one of them fails. -/
def reviseEach (out : Path) (name : Text) (free : Bool) : List Rule → Option Entry → Option (Option Entry)
  | [], entry => some entry
  | r :: rest, entry => (r.revise out name free entry).bind (reviseEach out name free rest)

theorem reviseEach_append (out : Path) (name : Text) (free : Bool) :
    ∀ (rules more : List Rule) (entry : Option Entry),
      reviseEach out name free (rules ++ more) entry =
        (reviseEach out name free rules entry).bind (reviseEach out name free more)
  | [], _, _ => rfl
  | r :: rest, more, entry => by
    rw [List.cons_append, reviseEach, reviseEach]
    cases r.revise out name free entry with
    | none => rfl
    | some entry' => exact reviseEach_append out name free rest more entry'

section
variable {out : Path} {loc : Location}

/-- **Rules that succeed revise the entry under every name**, and change nothing outside. -/
theorem applyEach_ok :
    ∀ {rules : List Rule} {tree tree' : FileTree} {outcomes : List Outcome}, tree.Opens out loc →
      (∀ r ∈ rules, r.isSingle = true) → applyEach tree out rules = (tree', .ok outcomes) →
        FileTree.SameOutside loc tree tree' ∧
          ∀ name, reviseEach out name (tree.writable loc name) rules (tree.under loc name) =
            some (tree'.under loc name)
  | [], tree, tree', outcomes, _, _, hok => by
    cases hok
    exact ⟨.refl _ _, fun _ => rfl⟩
  | r :: rest, tree, tree', outcomes, h, hsingle, hok => by
    obtain ⟨between, first, more, hfirst, hrest, -⟩ := applyEach_cons_ok_iff.mp hok
    obtain ⟨hsame, hrevise, -⟩ := Rule.apply_ok h (hsingle r List.mem_cons_self) hfirst
    obtain ⟨hsame', hrevise'⟩ := applyEach_ok (hsame.opens h)
      (fun r hr => hsingle r (List.mem_cons_of_mem _ hr)) hrest
    exact ⟨hsame.trans hsame', fun name => by
      rw [reviseEach, hrevise name, ← hsame.writable]
      exact hrevise' name⟩

/-- **Rules that fail have come some way at every name**, and all of them together fail over one, which is at fault
itself if it is within reach. -/
theorem applyEach_error :
    ∀ {rules : List Rule} {tree tree' : FileTree} {fault : FileFault}, tree.Opens out loc →
      (∀ r ∈ rules, r.isSingle = true) → applyEach tree out rules = (tree', .error fault) →
        FileTree.SameOutside loc tree tree' ∧
          (∀ name, ∃ done rest, rules = done ++ rest ∧
            reviseEach out name (tree.writable loc name) done (tree.under loc name) = some (tree'.under loc name)) ∧
          ∃ name, reviseEach out name (tree.writable loc name) rules (tree.under loc name) = none ∧
            (out.reaches name = true → tree.writable loc name = true → fault.ofEntry = true)
  | r :: rest, tree, tree', fault, h, hsingle, herror => by
    rcases applyEach_cons_error_iff.mp herror with hfirst | ⟨treeFirst, first, hfirst, hrest⟩
    · obtain ⟨hsame, hrevise, name, hfails, hfault⟩ :=
        Rule.apply_error h (hsingle r List.mem_cons_self) hfirst
      refine ⟨hsame, fun name => ?_, name, by rw [reviseEach, hfails]; rfl, hfault⟩
      rcases hrevise name with hstays | hrevised
      · exact ⟨[], r :: rest, rfl, by rw [hstays]; rfl⟩
      · exact ⟨[r], rest, rfl, by rw [reviseEach, hrevised]; rfl⟩
    · obtain ⟨hsame, hrevise, -⟩ := Rule.apply_ok h (hsingle r List.mem_cons_self) hfirst
      obtain ⟨hsame', hrevise', name, hfails, hfault⟩ := applyEach_error (hsame.opens h)
        (fun r hr => hsingle r (List.mem_cons_of_mem _ hr)) hrest
      refine ⟨hsame.trans hsame', fun name => ?_, name,
        by rw [reviseEach, hrevise name, ← hsame.writable]; exact hfails, hsame.writable loc name ▸ hfault⟩
      obtain ⟨done, left, rfl, hdone⟩ := hrevise' name
      exact ⟨r :: done, left, rfl, by rw [reviseEach, hrevise name, ← hsame.writable]; exact hdone⟩

/-- Rules that fail over no entry succeed. -/
theorem exists_applyEach_ok {rules : List Rule} {tree : FileTree} (h : tree.Opens out loc)
    (hsingle : ∀ r ∈ rules, r.isSingle = true)
    (hsome : ∀ name, reviseEach out name (tree.writable loc name) rules (tree.under loc name) ≠ none) :
    ∃ tree' outcomes, applyEach tree out rules = (tree', .ok outcomes) := by
  cases happly : applyEach tree out rules with
  | mk tree' answer =>
  cases answer with
  | ok outcomes => exact ⟨tree', outcomes, rfl⟩
  | error fault =>
    obtain ⟨-, -, name, hfails, -⟩ := applyEach_error h hsingle happly
    exact absurd hfails (hsome name)

end

end Catalog

end FlowTypes
