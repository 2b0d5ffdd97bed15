import FlowTypes.Proofs.FileTree.Selection
import FlowTypes.Proofs.Patch.Parts
import FlowTypes.Proofs.Patching.Revision
import FlowTypes.Proofs.Patching.Writing
import Mathlib

/-!
# When a rule misses

A rule that edits files finds something in a text if its anchor has a match there, or if it is a replacement and its
content is there (`Patch.FoundIn`). Only where it finds something may an edit change a text (`amend_of_not_foundIn`).

The files of a rule are read one after the other, each one when it is its turn (`Rule.readings`). Several paths may lead
to one file, so what is read of a file may be what the rule has made of it by then. But as long as nothing is found,
nothing is changed, so **something is found at some turn exactly if something was to be found at the start**
(`Rule.exists_foundIn_readings_iff`).

What a rule that succeeds reports is put together from this (`Rule.Verdict`): it misses if it finds nothing anywhere, and
then it reports this once and leaves all files as they are; otherwise it reports every file, and none as missed.
-/

namespace FlowTypes

/-! ## One text -/

namespace Patch

/-- There is something for an edit in a text: a match of its anchor, or what a replacement has put in its place. -/
def FoundIn (placement : Placement) (anchor : Anchor) (content t : Text) : Prop :=
  anchor.occursIn t = true ∨ placement = .over ∧ content <:+: t

section
variable {placement : Placement} {anchor : Anchor} {content t : Text}

/-- **An edit that finds nothing leaves the text and says so.** -/
theorem amend_of_not_foundIn (h : ¬ FoundIn placement anchor content t) :
    amend placement anchor content t = ⟨t, .anchorMissed, 0⟩ := by
  obtain ⟨hanchor, hcontent⟩ := not_or.mp h
  have hnone : (anchor.cuts t).segments.isEmpty = true := by simpa [Anchor.occursIn] using hanchor
  have hmissed : unmatched placement content t = .anchorMissed := by
    refine if_neg fun hover => hcontent ?_
    simp only [Bool.and_eq_true, decide_eq_true_eq] at hover
    exact ⟨hover.1, Occurrence.occursIn_iff_infix.mp hover.2⟩
  rw [amend, amendAt, if_pos hnone, hmissed]

/-- **An edit that finds something is applied, or it was already.** -/
theorem status_amend_of_foundIn (h : FoundIn placement anchor content t) :
    (amend placement anchor content t).status = .applied ∨
      (amend placement anchor content t).status = .alreadyApplied := by
  unfold amend amendAt
  dsimp only
  split
  · rename_i hnone
    rcases h with hanchor | ⟨rfl, hcontent⟩
    · rw [Anchor.occursIn, hnone] at hanchor
      cases hanchor
    · exact .inr (if_pos (by simp [Occurrence.occursIn_iff_infix.mpr hcontent]))
  · split
    · exact .inr rfl
    · exact .inl rfl

/-- The status tells whether something was found. -/
theorem status_amend_eq_anchorMissed_iff :
    (amend placement anchor content t).status = .anchorMissed ↔ ¬ FoundIn placement anchor content t := by
  constructor
  · intro hstatus hfound
    rcases status_amend_of_foundIn hfound with h | h <;> rw [hstatus] at h <;> cases h
  · intro h
    rw [amend_of_not_foundIn h]

end

end Patch

/-! ## One file -/

namespace Rule

variable {r : Rule} {placement : Placement} {anchor : Anchor} {tree tree' : FileTree} {path : Path}

/-- An edit of a file that succeeds has found no file, or it has read one. -/
theorem amendFile_eq_ok {o : Outcome} (h : r.amendFile placement anchor tree path = (tree', .ok o)) :
    (tree.isFile path = .ok false ∧ tree' = tree ∧ o = ⟨r, path.name, .artifactMissing, 0⟩) ∨
      ∃ t, tree.readText path = .ok t ∧ o = ⟨r, path.name, (Patch.amend placement anchor r.content t).status,
        (Patch.amend placement anchor r.content t).edits⟩ := by
  unfold amendFile at h
  split at h
  · rename_i hread
    cases h
    exact .inl ⟨FileTree.isFile_of_noSuchEntry hread, rfl, rfl⟩
  · cases h
  · rename_i t hread
    refine .inr ⟨t, hread, ?_⟩
    dsimp only at h
    split at h
    · cases h
      rfl
    · split at h <;> cases h
      rfl

/-- **Where nothing is found nothing is written.** -/
theorem amendFile_of_not_foundIn {t : Text} (hread : tree.readText path = .ok t)
    (h : ¬ Patch.FoundIn placement anchor r.content t) :
    r.amendFile placement anchor tree path = (tree, .ok ⟨r, path.name, .anchorMissed, 0⟩) := by
  rw [amendFile, hread]
  dsimp only
  rw [Patch.amend_of_not_foundIn h]
  exact if_pos rfl

/-- What cannot be read is not written. -/
theorem amendFile_fst_of_readText {fault : FileFault} (hread : tree.readText path = .error fault) :
    (r.amendFile placement anchor tree path).1 = tree := by
  rw [amendFile, hread]
  cases fault with
  | refused cause p => cases cause <;> rfl
  | _ => rfl

/-! ## Files in a row -/

/-- The files among the paths and the texts that are read of them, each one when it is its turn. -/
def readings (r : Rule) (placement : Placement) (anchor : Anchor) (tree : FileTree) : List Path → List (Path × Text)
  | [] => []
  | path :: rest =>
    let further := r.readings placement anchor (r.amendFile placement anchor tree path).1 rest
    match tree.readText path with
    | .ok t => (path, t) :: further
    | .error _ => further

theorem readings_cons {t : Text} (hread : tree.readText path = .ok t) (rest : List Path) :
    r.readings placement anchor tree (path :: rest) =
      (path, t) :: r.readings placement anchor (r.amendFile placement anchor tree path).1 rest := by
  rw [readings, hread]

theorem readings_eq_nil {paths : List Path} (h : ∀ p ∈ paths, ∀ t, tree.readText p ≠ .ok t) :
    r.readings placement anchor tree paths = [] := by
  induction paths with
  | nil => rfl
  | cons path rest ih =>
    have hrest := ih fun p hp => h p (List.mem_cons_of_mem _ hp)
    cases hread : tree.readText path with
    | ok t => exact absurd hread (h path List.mem_cons_self t)
    | error fault => rw [readings, hread, amendFile_fst_of_readText hread, hrest]

/-- What an edit reports of a file it has read. -/
def outcomeOf (r : Rule) (placement : Placement) (anchor : Anchor) (x : Path × Text) : Outcome :=
  ⟨r, x.1.name, (Patch.amend placement anchor r.content x.2).status, (Patch.amend placement anchor r.content x.2).edits⟩

/-- **Edits of files report what they have read.** -/
theorem amendFiles_readings :
    ∀ {paths : List Path} {tree tree' : FileTree} {outcomes : List Outcome},
      (∀ p ∈ paths, tree.isFile p = .ok true) → r.amendFiles placement anchor tree paths = (tree', .ok outcomes) →
        (r.readings placement anchor tree paths).map Prod.fst = paths ∧
          outcomes = (r.readings placement anchor tree paths).map (r.outcomeOf placement anchor)
  | [], tree, tree', outcomes, _, hok => by
    cases hok
    exact ⟨rfl, rfl⟩
  | path :: rest, tree, tree', outcomes, hfiles, hok => by
    obtain ⟨between, o, more, hfirst, hrest, rfl⟩ := amendFiles_cons_ok_iff.mp hok
    have honly := (amendFile_writes hfirst).1
    obtain ⟨hpaths, hmore⟩ := amendFiles_readings
      (fun p hp => honly.isFile (hfiles p (List.mem_cons_of_mem _ hp))) hrest
    rcases amendFile_eq_ok hfirst with ⟨hmissing, -, -⟩ | ⟨t, hread, rfl⟩
    · rw [hfiles path List.mem_cons_self] at hmissing
      cases hmissing
    · rw [readings_cons hread, hfirst, List.map_cons, List.map_cons, hpaths, hmore]
      exact ⟨rfl, rfl⟩

/-- Files in which nothing is found stay as they are. -/
theorem amendFiles_of_not_foundIn :
    ∀ {paths : List Path} {tree tree' : FileTree} {outcomes : List Outcome},
      r.amendFiles placement anchor tree paths = (tree', .ok outcomes) →
        (∀ x ∈ r.readings placement anchor tree paths, ¬ Patch.FoundIn placement anchor r.content x.2) → tree' = tree
  | [], tree, tree', outcomes, hok, _ => by
    cases hok
    rfl
  | path :: rest, tree, tree', outcomes, hok, hnone => by
    obtain ⟨between, o, more, hfirst, hrest, rfl⟩ := amendFiles_cons_ok_iff.mp hok
    rcases amendFile_eq_ok hfirst with ⟨hmissing, rfl, -⟩ | ⟨t, hread, -⟩
    · refine amendFiles_of_not_foundIn hrest fun x hx => hnone x ?_
      rw [readings, hfirst]
      dsimp only
      split
      · exact List.mem_cons_of_mem _ hx
      · exact hx
    · rw [readings_cons hread] at hnone
      rw [amendFile_of_not_foundIn hread (hnone _ List.mem_cons_self)] at hfirst hnone
      cases hfirst
      exact amendFiles_of_not_foundIn hrest fun x hx => hnone x (List.mem_cons_of_mem _ hx)

/-- **Something is found at some turn exactly if something was to be found at the start.** -/
theorem exists_foundIn_readings_iff (r : Rule) (placement : Placement) (anchor : Anchor) (paths : List Path)
    (tree : FileTree) :
    (∃ x ∈ r.readings placement anchor tree paths, Patch.FoundIn placement anchor r.content x.2) ↔
      ∃ p ∈ paths, ∃ t, tree.readText p = .ok t ∧ Patch.FoundIn placement anchor r.content t := by
  induction paths with
  | nil => simp [readings]
  | cons path rest ih =>
    cases hread : tree.readText path with
    | error fault =>
      rw [readings, hread, amendFile_fst_of_readText hread]
      simp only [ih, List.exists_mem_cons_iff, hread, reduceCtorEq, false_and, exists_false, false_or]
    | ok t =>
      by_cases hfound : Patch.FoundIn placement anchor r.content t
      · rw [readings_cons hread]
        exact iff_of_true ⟨_, List.mem_cons_self, hfound⟩ ⟨path, List.mem_cons_self, t, hread, hfound⟩
      · -- this one stays as it is, so the others are read as they were
        rw [readings_cons hread, amendFile_of_not_foundIn hread hfound]
        simp only [List.exists_mem_cons_iff, ih, hread, Except.ok.injEq, exists_eq_left', hfound, false_or]

/-- What is read of a file is what was there at the start, unless another path leads to it. -/
theorem readText_of_mem_readings {paths : List Path} (hnodup : paths.Nodup) {tree : FileTree} {x : Path × Text}
    (hx : x ∈ r.readings placement anchor tree paths) : x.1 ∈ paths ∧
      ((∀ p ∈ paths, p ≠ x.1 → tree.place p ≠ tree.place x.1) → tree.readText x.1 = .ok x.2) := by
  induction paths generalizing tree with
  | nil => cases hx
  | cons path rest ih =>
    obtain ⟨hnotin, hnodup⟩ := List.nodup_cons.mp hnodup
    have hlater : x ∈ r.readings placement anchor (r.amendFile placement anchor tree path).1 rest →
        x.1 ∈ path :: rest ∧
          ((∀ p ∈ path :: rest, p ≠ x.1 → tree.place p ≠ tree.place x.1) → tree.readText x.1 = .ok x.2) := by
      intro hx
      obtain ⟨hin, hread⟩ := ih hnodup hx
      obtain ⟨honly, hget⟩ := amendFile_writes (Prod.eta (r.amendFile placement anchor tree path)).symm
      refine ⟨List.mem_cons_of_mem _ hin, fun hapart => ?_⟩
      have hne : path ≠ x.1 := fun e => hnotin (e ▸ hin)
      refine honly.readText_of_get? (hget _ fun hrewrites => ?_) (hread fun p hp hpx => ?_)
      · exact hapart path List.mem_cons_self hne hrewrites.1
      · rw [honly.place, honly.place]
        exact hapart p (List.mem_cons_of_mem _ hp) hpx
    rw [readings] at hx
    split at hx
    · rename_i t hread
      rcases List.mem_cons.mp hx with rfl | hx
      · exact ⟨List.mem_cons_self, fun _ => hread⟩
      · exact hlater hx
    · exact hlater hx

/-! ## The rule -/

/-- The outcome is what a rule says of a file that it has read, if it found something in any. -/
structure Judges (r : Rule) (placement : Placement) (anchor : Anchor) (x : Path × Text) (o : Outcome) : Prop where
  rule : o.rule = r
  artifact : o.artifact = x.1.name
  status : o.status = .applied ∨ o.status = .alreadyApplied ∨ o.status = .notApplicable
  /-- It does not apply exactly to those files in which it finds nothing. -/
  notApplicable_iff : o.status = .notApplicable ↔ ¬ Patch.FoundIn placement anchor r.content x.2
  /-- There are several files only of a glob. -/
  isPattern : o.status = .notApplicable → Wildcard.isPattern r.target = true

/-- What a rule that edits files reports. `paths` are its targets, and `files` are those of them that are files, with the
texts that are read of them. -/
structure Verdict (r : Rule) (placement : Placement) (anchor : Anchor) (tree tree' : FileTree) (paths : List Path)
    (files : List (Path × Text)) (outcomes : List Outcome) : Prop where
  /-- Every target is read if it is a file. -/
  files_eq : files.map Prod.fst = paths.filter fun p => (tree.isFile p).toOption.getD false
  /-- They are read in the order of their paths. -/
  sorted : paths.Pairwise fun p q => Path.le p q = true ∧ p ≠ q
  /-- What is read of a file was there at the start, unless several paths lead to it. -/
  read_eq : ∀ x ∈ files, (∀ p ∈ paths, p ≠ x.1 → tree.place p ≠ tree.place x.1) → tree.readText x.1 = .ok x.2
  found_iff : (∃ x ∈ files, Patch.FoundIn placement anchor r.content x.2) ↔
    ∃ p ∈ paths, ∃ t, tree.readText p = .ok t ∧ Patch.FoundIn placement anchor r.content t
  /-- It misses exactly if it finds nothing in any file, or has none. -/
  missed_iff : (∃ o ∈ outcomes, o.missed = true) ↔ ∀ x ∈ files, ¬ Patch.FoundIn placement anchor r.content x.2
  /-- It misses once, and then it has written nothing. -/
  missed : (∃ o ∈ outcomes, o.missed = true) → outcomes.length = 1 ∧ tree' = tree
  /-- Otherwise it reports every file. -/
  found : (∀ o ∈ outcomes, o.missed = false) → List.Forall₂ (r.Judges placement anchor) files outcomes

/-- The outcomes of a rule, made of those of its files. -/
def report (r : Rule) (outcomes : List Outcome) : List Outcome :=
  if Wildcard.isPattern r.target then r.foldMisses outcomes else outcomes

section
variable {paths : List Path} {files : List (Path × Text)} {x : Path × Text} {o : Outcome}

theorem judges_outcomeOf (h : Patch.FoundIn placement anchor r.content x.2) :
    r.Judges placement anchor x (r.outcomeOf placement anchor x) := by
  have hstatus : (r.outcomeOf placement anchor x).status = .applied ∨
      (r.outcomeOf placement anchor x).status = .alreadyApplied := Patch.status_amend_of_foundIn h
  have hne : (r.outcomeOf placement anchor x).status ≠ .notApplicable := by
    intro e
    rw [e] at hstatus
    exact hstatus.elim nofun nofun
  constructor
  case rule => rfl
  case artifact => rfl
  case status => exact hstatus.imp_right .inl
  case notApplicable_iff => exact iff_of_false hne (not_not_intro h)
  case isPattern => exact fun e => absurd e hne

theorem judges_notApplicable (hp : Wildcard.isPattern r.target = true)
    (h : ¬ Patch.FoundIn placement anchor r.content x.2) :
    r.Judges placement anchor x { r.outcomeOf placement anchor x with status := .notApplicable } where
  rule := rfl
  artifact := rfl
  status := .inr (.inr rfl)
  notApplicable_iff := iff_of_true rfl h
  isPattern := fun _ => hp

theorem Judges.missed_eq_false (h : r.Judges placement anchor x o) : o.missed = false := by
  unfold Outcome.missed
  rcases h.status with hs | hs | hs <;> rw [hs] <;> rfl

theorem missed_eq_false_of_forall₂ {outcomes : List Outcome}
    (h : List.Forall₂ (r.Judges placement anchor) files outcomes) : ∀ o ∈ outcomes, o.missed = false := by
  induction h with
  | nil => nofun
  | cons hfirst _ ih => exact List.forall_mem_cons.mpr ⟨hfirst.missed_eq_false, ih⟩

/-- The status of a file tells whether something was found in it. -/
theorem status_outcomeOf_iff :
    (r.outcomeOf placement anchor x).status = .anchorMissed ↔ ¬ Patch.FoundIn placement anchor r.content x.2 :=
  Patch.status_amend_eq_anchorMissed_iff

/-- **Where nothing is found in any file there is one miss.** -/
theorem report_of_not_foundIn (hp : Wildcard.isPattern r.target = true ∨ ∃ x, files = [x])
    (hnone : ∀ x ∈ files, ¬ Patch.FoundIn placement anchor r.content x.2) :
    ∃ o, r.report (files.map (r.outcomeOf placement anchor)) = [o] ∧ o.missed = true := by
  cases hpattern : Wildcard.isPattern r.target with
  | true =>
    have hall : (files.map (r.outcomeOf placement anchor)).all (·.status = .anchorMissed) = true := by
      rw [List.all_eq_true]
      intro o ho
      obtain ⟨x, hx, rfl⟩ := List.mem_map.mp ho
      exact decide_eq_true (status_outcomeOf_iff.mpr (hnone x hx))
    refine ⟨⟨r, r.target, .anchorMissed, 0⟩, ?_, rfl⟩
    rw [report, if_pos hpattern, foldMisses, if_pos hall]
  | false =>
    obtain ⟨x, rfl⟩ := hp.resolve_left (Bool.eq_false_iff.mp hpattern)
    refine ⟨r.outcomeOf placement anchor x, if_neg (Bool.eq_false_iff.mp hpattern), ?_⟩
    rw [Outcome.missed, status_outcomeOf_iff.mpr (hnone x List.mem_cons_self)]
    rfl

/-- **Where something is found in a file every file is judged.** -/
theorem report_of_foundIn (hp : Wildcard.isPattern r.target = true ∨ ∃ x, files = [x])
    (hsome : ∃ x ∈ files, Patch.FoundIn placement anchor r.content x.2) :
    List.Forall₂ (r.Judges placement anchor) files (r.report (files.map (r.outcomeOf placement anchor))) := by
  obtain ⟨y, hy, hfound⟩ := hsome
  cases hpattern : Wildcard.isPattern r.target with
  | true =>
    have hall : ¬ (files.map (r.outcomeOf placement anchor)).all (·.status = .anchorMissed) = true := by
      intro hall
      have hmissed := of_decide_eq_true (List.all_eq_true.mp hall _ (List.mem_map_of_mem hy))
      exact status_outcomeOf_iff.mp hmissed hfound
    rw [report, if_pos hpattern, foldMisses, if_neg hall, List.map_map, List.forall₂_map_right_iff, List.forall₂_same]
    intro x _
    show r.Judges placement anchor x (if (r.outcomeOf placement anchor x).status = .anchorMissed then _ else _)
    split
    · rename_i hmissed
      exact judges_notApplicable hpattern (status_outcomeOf_iff.mp hmissed)
    · rename_i hmissed
      exact judges_outcomeOf (Classical.not_not.mp fun h => hmissed (status_outcomeOf_iff.mpr h))
  | false =>
    obtain ⟨x, rfl⟩ := hp.resolve_left (Bool.eq_false_iff.mp hpattern)
    obtain rfl := List.mem_singleton.mp hy
    rw [report, if_neg (Bool.eq_false_iff.mp hpattern)]
    exact .cons (judges_outcomeOf hfound) .nil

/-- The verdict of a rule whose targets are all there. -/
theorem verdict_of_isFile (hp : Wildcard.isPattern r.target = true ∨ ∃ path, paths = [path])
    (hsorted : paths.Pairwise fun p q => Path.le p q = true ∧ p ≠ q) (hfiles : ∀ p ∈ paths, tree.isFile p = .ok true)
    {outcomes : List Outcome} (hok : r.amendFiles placement anchor tree paths = (tree', .ok outcomes)) :
    r.Verdict placement anchor tree tree' paths (r.readings placement anchor tree paths) (r.report outcomes) := by
  obtain ⟨hpaths, rfl⟩ := amendFiles_readings hfiles hok
  have hnodup : paths.Nodup := hsorted.imp And.right
  have hp' : Wildcard.isPattern r.target = true ∨ ∃ x, r.readings placement anchor tree paths = [x] := by
    refine hp.imp_right fun ⟨path, h⟩ => List.length_eq_one_iff.mp ?_
    rw [← List.length_map Prod.fst, hpaths, h]
    rfl
  have hfilter : (paths.filter fun p => (tree.isFile p).toOption.getD false) = paths := by
    refine List.filter_eq_self.mpr fun p hmem => ?_
    rw [hfiles p hmem]
    rfl
  have hfiles_eq := hpaths.trans hfilter.symm
  have hread : ∀ x ∈ r.readings placement anchor tree paths,
      (∀ p ∈ paths, p ≠ x.1 → tree.place p ≠ tree.place x.1) → tree.readText x.1 = .ok x.2 :=
    fun _ hx => (readText_of_mem_readings hnodup hx).2
  have hfound := r.exists_foundIn_readings_iff placement anchor paths tree
  by_cases hsome : ∃ x ∈ r.readings placement anchor tree paths, Patch.FoundIn placement anchor r.content x.2
  · have hall := report_of_foundIn hp' hsome
    have hnot := missed_eq_false_of_forall₂ hall
    refine ⟨hfiles_eq, hsorted, hread, hfound, iff_of_false ?_ ?_, ?_, fun _ => hall⟩
    · rintro ⟨o, ho, hmissed⟩
      exact Bool.false_ne_true ((hnot o ho).symm.trans hmissed)
    · obtain ⟨x, hx, h⟩ := hsome
      exact fun hnone => hnone x hx h
    · rintro ⟨o, ho, hmissed⟩
      exact absurd ((hnot o ho).symm.trans hmissed) Bool.false_ne_true
  · have hnone : ∀ x ∈ r.readings placement anchor tree paths, ¬ Patch.FoundIn placement anchor r.content x.2 :=
      fun x hx h => hsome ⟨x, hx, h⟩
    obtain ⟨o, hreport, hmissed⟩ := report_of_not_foundIn hp' hnone
    have ho : o ∈ r.report ((r.readings placement anchor tree paths).map (r.outcomeOf placement anchor)) := by
      rw [hreport]
      exact List.mem_singleton_self o
    refine ⟨hfiles_eq, hsorted, hread, hfound, iff_of_true ⟨o, ho, hmissed⟩ hnone, fun _ => ⟨?_, ?_⟩, fun hnot => ?_⟩
    · rw [hreport]
      rfl
    · exact amendFiles_of_not_foundIn hok hnone
    · exact absurd ((hnot o ho).symm.trans hmissed) Bool.false_ne_true

/-- The verdict of a rule of whose targets none is there. -/
theorem verdict_of_not_isFile (hsorted : paths.Pairwise fun p q => Path.le p q = true ∧ p ≠ q)
    (hfiles : ∀ p ∈ paths, tree.isFile p = .ok false) (artifact : Text) :
    r.Verdict placement anchor tree tree paths (r.readings placement anchor tree paths)
      [⟨r, artifact, .artifactMissing, 0⟩] := by
  have hunread : ∀ p ∈ paths, ∀ t, tree.readText p ≠ .ok t := by
    intro p hp t hread
    have hfile := FileTree.isFile_of_readText hread
    rw [hfiles p hp] at hfile
    cases hfile
  have hnone : r.readings placement anchor tree paths = [] := readings_eq_nil hunread
  have hfilter : (paths.filter fun p => (tree.isFile p).toOption.getD false) = [] := by
    refine List.filter_eq_nil_iff.mpr fun p hmem => ?_
    rw [hfiles p hmem]
    exact Bool.false_ne_true
  have hfound := r.exists_foundIn_readings_iff placement anchor paths tree
  rw [hnone] at hfound ⊢
  refine ⟨hfilter.symm, hsorted, nofun, hfound, iff_of_true ⟨_, List.mem_cons_self, rfl⟩ nofun,
    fun _ => ⟨rfl, rfl⟩, fun hnot => ?_⟩
  exact absurd (hnot _ List.mem_cons_self) (Bool.false_ne_true ∘ Eq.symm)

end

/-- A rule that has targets has edited them. -/
theorem amendFiles_of_apply (haction : r.action = .amend placement anchor) {out : Path} {paths : List Path}
    (htargets : r.targets tree out = .ok paths) (hne : paths ≠ []) {outcomes : List Outcome}
    (hok : r.apply tree out = (tree', .ok outcomes)) :
    ∃ more, r.amendFiles placement anchor tree paths = (tree', .ok more) ∧ outcomes = r.report more := by
  rw [apply_of_targets haction htargets hne] at hok
  cases hamend : r.amendFiles placement anchor tree paths with
  | mk left answer =>
  rw [hamend] at hok
  cases answer with
  | error fault => cases hok
  | ok more =>
    cases hok
    exact ⟨more, rfl, rfl⟩

/-- **When a rule that edits files misses, and what it reports otherwise.** -/
theorem apply_verdict (haction : r.action = .amend placement anchor) {out : Path} {outcomes : List Outcome}
    (hok : r.apply tree out = (tree', .ok outcomes)) :
    ∃ paths, r.targets tree out = .ok paths ∧
      r.Verdict placement anchor tree tree' paths (r.readings placement anchor tree paths) outcomes := by
  cases htargets : r.targets tree out with
  | error fault => simp [apply, haction, htargets] at hok
  | ok paths =>
    refine ⟨paths, rfl, ?_⟩
    cases hp : Wildcard.isPattern r.target with
    | true =>
      have hfiles := htargets
      rw [targets, if_pos hp] at hfiles
      have hsorted : paths.Pairwise fun p q => Path.le p q = true ∧ p ≠ q :=
        (Glob.pairwise_files hfiles).and (Glob.nodup_files hfiles)
      by_cases hnil : paths = []
      · rw [hnil] at htargets hsorted ⊢
        rw [apply_of_targets_nil haction htargets] at hok
        cases hok
        exact verdict_of_not_isFile hsorted (List.forall_mem_nil _) r.target
      · obtain ⟨more, hamend, rfl⟩ := amendFiles_of_apply haction htargets hnil hok
        exact verdict_of_isFile (.inl hp) hsorted (fun p hmem => Glob.isFile_of_mem_files hfiles hmem) hamend
    | false =>
      have hpaths : [r.targetPath out] = paths := by
        rw [targets, if_neg (Bool.eq_false_iff.mp hp)] at htargets
        exact Except.ok.inj htargets
      subst hpaths
      have hsorted := List.pairwise_singleton (fun p q => Path.le p q = true ∧ p ≠ q) (r.targetPath out)
      obtain ⟨more, hamend, rfl⟩ := amendFiles_of_apply haction htargets (List.cons_ne_nil _ []) hok
      obtain ⟨between, o, rest, hfile, hrest, rfl⟩ := amendFiles_cons_ok_iff.mp hamend
      rcases amendFile_eq_ok hfile with ⟨hmissing, rfl, rfl⟩ | ⟨t, hread, -⟩
      · cases hrest
        rw [report, if_neg (Bool.eq_false_iff.mp hp)]
        exact verdict_of_not_isFile hsorted (fun p hmem => List.mem_singleton.mp hmem ▸ hmissing) _
      · refine verdict_of_isFile (.inr ⟨_, rfl⟩) hsorted (fun p hmem => ?_) hamend
        exact List.mem_singleton.mp hmem ▸ FileTree.isFile_of_readText hread

/-- A mark behind a word. -/
def markRule : Rule := ⟨"mark", 50, "*.js", "+", .amend .after (.literal "class"), by decide⟩

/-- A file with the word, one without it, and one with the word and the mark. -/
def markTree : FileTree :=
  ⟨[(["out"], .directory), (["out", "a.js"], .file (Utf8.encode "class A")),
    (["out", "b.js"], .file (Utf8.encode "let b")), (["out", "c.js"], .file (Utf8.encode "class+ C"))], [], [], []⟩

/-- Each of the files gets its own verdict. -/
theorem apply_verdict_mark : ∃ tree' outcomes, markRule.action = .amend .after (.literal "class") ∧
    markRule.apply markTree ⟨0, ["out"]⟩ = (tree', .ok outcomes) ∧
    outcomes.map (·.status) = [.applied, .notApplicable, .alreadyApplied] ∧
      ∃ paths, markRule.targets markTree ⟨0, ["out"]⟩ = .ok paths ∧
        markRule.Verdict .after (.literal "class") markTree tree' paths
          (markRule.readings .after (.literal "class") markTree paths) outcomes := by
  have hstatus : ((markRule.apply markTree ⟨0, ["out"]⟩).2.toOption.map fun o => o.map (·.status)) =
      some [.applied, .notApplicable, .alreadyApplied] := by cbv
  cases hok : markRule.apply markTree ⟨0, ["out"]⟩ with
  | mk tree' answer =>
  rw [hok] at hstatus
  cases answer with
  | error fault => cases hstatus
  | ok outcomes => exact ⟨tree', outcomes, rfl, rfl, Option.some.inj hstatus, apply_verdict rfl hok⟩

end Rule

end FlowTypes
