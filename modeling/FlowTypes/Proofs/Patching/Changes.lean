import FlowTypes.Proofs.Catalog.Rerun
import FlowTypes.Proofs.Patch.Parts
import FlowTypes.Proofs.Patching.Effect
import FlowTypes.Proofs.Patching.Outcomes
import FlowTypes.Proofs.Patching.Verdict

/-!
# Which files change

A catalog whose targets are single components changes files of its directory only, and it reports their names. What it
leaves alone is said by `FileTree.ChangesOnly`: files that have no such name keep their bytes, no other file appears, and
none goes away. This holds of one rule (`Rule.apply_changesOnly`), and it survives further rules
(`FileTree.ChangesOnly.trans`), so it holds of any number of them, also of rules that write the same file.

A rule reports a change wherever it has made one (`Rule.mem_changedNames_of_revise`): an edit that leaves a text as it is
writes nothing, an edit that changes it has edits to count, and folding the misses of a glob leaves its changes alone.

A target may be `..`, which is a component as well. The directory above is no file, so such a rule can do nothing
(`Rule.apply_of_dots`).
-/

namespace FlowTypes

/-- The pieces between slashes have none. -/
theorem Path.not_mem_of_mem_splitSlash : ∀ {t piece : Text}, piece ∈ splitSlash t → '/' ∉ piece
  | [], piece, h => by
    rw [List.mem_singleton.mp h]
    exact List.not_mem_nil
  | c :: rest, piece, h => by
    unfold splitSlash at h
    split at h
    · rcases List.mem_cons.mp h with rfl | h
      · exact List.not_mem_nil
      · exact not_mem_of_mem_splitSlash h
    · rename_i hc
      have hc : '/' ≠ c := fun e => hc (by rw [e, beq_self_eq_true])
      split at h
      · rw [List.mem_singleton.mp h]
        simpa using hc
      · rename_i first pieces hrest
        have ih : ∀ piece ∈ splitSlash rest, '/' ∉ piece := fun _ => not_mem_of_mem_splitSlash
        rw [hrest] at ih
        rcases List.mem_cons.mp h with rfl | h
        · exact fun hmem => (List.mem_cons.mp hmem).elim hc (ih first List.mem_cons_self)
        · exact ih piece (List.mem_cons_of_mem first h)

/-! ## Frames -/

namespace FileTree

/-- The directories stay, and of the files only those in the directory at a path that have one of these names may change
or appear. No file goes away. -/
structure ChangesOnly (tree : FileTree) (out : Path) (names : List Text) (tree' : FileTree) : Prop where
  keeps : tree.KeepsDirectories tree'
  /-- A file is as before, or it lies in the directory and has one of the names. -/
  changed : ∀ l bytes, tree'.get? l = some (.file bytes) → tree.get? l = some (.file bytes) ∨
    tree'.Opens out (tree.place out) ∧ ∃ name ∈ names, l = tree.place out ++ [name]
  stays : ∀ l bytes, tree.get? l = some (.file bytes) → ∃ bytes', tree'.get? l = some (.file bytes')

namespace ChangesOnly

variable {out : Path} {names names' : List Text} {tree tree' tree'' : FileTree}

theorem refl (out : Path) (names : List Text) (tree : FileTree) : tree.ChangesOnly out names tree :=
  ⟨.refl tree, fun _ _ h => .inl h, fun _ bytes h => ⟨bytes, h⟩⟩

theorem mono (h : tree.ChangesOnly out names tree') (hsub : names ⊆ names') : tree.ChangesOnly out names' tree' where
  keeps := h.keeps
  changed := fun l bytes hl => (h.changed l bytes hl).imp_right
    fun ⟨hopens, name, hname, hplace⟩ => ⟨hopens, name, hsub hname, hplace⟩
  stays := h.stays

/-- What changes in two steps changes in one of them. -/
theorem trans (h : tree.ChangesOnly out names tree') (h' : tree'.ChangesOnly out names tree'') :
    tree.ChangesOnly out names tree'' where
  keeps := h.keeps.trans h'.keeps
  changed := by
    intro l bytes hl
    rcases h'.changed l bytes hl with hsame | ⟨hopens, hname⟩
    · exact (h.changed l bytes hsame).imp_right fun ⟨hopens, hname⟩ => ⟨hopens.mono h'.keeps, hname⟩
    · rw [place_of_workDir h.keeps.workDir] at hopens hname
      exact .inr ⟨hopens, hname⟩
  stays := by
    intro l bytes hl
    obtain ⟨between, hbetween⟩ := h.stays l bytes hl
    exact h'.stays l between hbetween

/-- Making directories changes no file. -/
theorem of_grown {locs : List Location} (h : Grown locs tree tree') (out : Path) (names : List Text) :
    tree.ChangesOnly out names tree' where
  keeps := ⟨h.workDir, fun _ hl => h.get?_of_some hl⟩
  changed := by
    intro l bytes hl
    rcases h.get? l with hsame | ⟨-, hdir, -⟩
    · exact .inl (hsame ▸ hl)
    · rw [hdir] at hl
      cases hl
  stays := fun l bytes hl => ⟨bytes, h.get?_of_some hl⟩

end ChangesOnly

end FileTree

namespace Rule

variable {r : Rule} {tree tree' : FileTree} {out : Path} {loc : Location} {outcomes : List Outcome}
  {placement : Placement} {anchor : Anchor} {name : Text} {free : Bool} {entry entry' : Option Entry}

/-! ## Changes are reported -/

/-- The names of the artifacts that are reported as changed. -/
def changedNames (outcomes : List Outcome) : List Text := (outcomes.filter (·.status.changed)).map (·.artifact)

theorem mem_changedNames {o : Outcome} (ho : o ∈ outcomes) (h : o.status.changed = true) :
    o.artifact ∈ changedNames outcomes :=
  List.mem_map_of_mem (List.mem_filter.mpr ⟨ho, h⟩)

/-- A file that a rule revises stays one. -/
theorem exists_file_of_revise {bytes : List UInt8} (h : r.revise out name free (some (.file bytes)) = some entry) :
    ∃ bytes', entry = some (.file bytes') := by
  unfold revise at h
  split at h
  · split at h
    · unfold rewrite at h
      split at h
      · cases h
        exact ⟨_, rfl⟩
      · simp only [reduceCtorEq, Option.some.injEq, decide_false, Bool.and_false, Bool.false_eq_true, if_false,
          amendEntry] at h
        split at h
        · cases h
        · cases h
          exact ⟨_, rfl⟩
    · cases h
  · cases h
    exact ⟨bytes, rfl⟩

/-- What folding leaves alone. -/
theorem mem_foldMisses_of_applied {o : Outcome} (ho : o ∈ outcomes) (hs : o.status = .applied) :
    o ∈ r.foldMisses outcomes := by
  have hne : o.status ≠ .anchorMissed := by
    rw [hs]
    exact nofun
  unfold foldMisses
  split
  · rename_i hall
    exact absurd (of_decide_eq_true (List.all_eq_true.mp hall o ho)) hne
  · exact List.mem_map.mpr ⟨o, ho, if_neg hne⟩

theorem artifact_outcomeAt (r : Rule) (placement : Placement) (anchor : Anchor) (name : Text) (entry : Option Entry) :
    (r.outcomeAt placement anchor name entry).artifact = name := by
  unfold outcomeAt
  split
  · split <;> rfl
  · rfl

/-- What an edit changes is a file with a text, and it says so. -/
theorem exists_applied_of_amendEntry (name : Text) (h : r.amendEntry placement anchor entry = some entry') (hne : entry' ≠ entry) :
    (∃ bytes, entry = some (.file bytes)) ∧ (r.outcomeAt placement anchor name entry).status = .applied := by
  unfold amendEntry at h
  split at h
  · cases h
    exact absurd rfl hne
  · cases h
  · rename_i bytes
    split at h
    · cases h
    · rename_i t ht
      refine ⟨⟨bytes, rfl⟩, ?_⟩
      rw [outcomeAt_file ht]
      refine Patch.status_amend_of_text_ne fun hsame => hne ?_
      dsimp only at h
      rw [if_pos hsame] at h
      exact (Option.some.inj h).symm

/-- **A rule reports every entry that it changes.** -/
theorem mem_changedNames_of_revise (hrevise : r.revise out name free (tree.under loc name) = some entry')
    (hne : entry' ≠ tree.under loc name) : name ∈ changedNames (r.outcomesIn tree out loc) := by
  have hmeets : r.meets out name (tree.under loc name) = true := by
    refine Bool.of_not_eq_false fun hmeets => hne ?_
    rw [revise_of_not_meets hmeets] at hrevise
    exact (Option.some.inj hrevise).symm
  have hplain : Wildcard.isPattern r.target = false → name = r.target := fun hp => by
    rw [meets_plain hp] at hmeets
    exact of_decide_eq_true hmeets
  have hrewrite : r.rewrite (tree.under loc name) = some entry' := by
    rw [revise, if_pos hmeets] at hrevise
    split at hrevise
    · exact hrevise
    · cases hrevise
  unfold rewrite at hrewrite
  split at hrewrite
  · rename_i haction
    rw [hplain (not_isPattern_of_create haction)]
    exact mem_changedNames (o := ⟨r, r.target, .created, 0⟩) (by simp [outcomesIn, haction]) rfl
  · rename_i placement anchor haction
    split at hrewrite
    · cases hrewrite
      exact absurd rfl hne
    · obtain ⟨⟨bytes, hfile⟩, happlied⟩ := exists_applied_of_amendEntry name hrewrite hne
      have hchanged : (r.outcomeAt placement anchor name (tree.under loc name)).status.changed = true := by
        rw [happlied]
        rfl
      rw [← r.artifact_outcomeAt placement anchor name (tree.under loc name)]
      refine mem_changedNames ?_ hchanged
      cases hp : Wildcard.isPattern r.target with
      | false =>
        rw [outcomesIn_plain haction hp, hplain hp]
        exact List.mem_singleton_self _
      | true =>
        have hmem : name ∈ Glob.filesIn tree out loc r.target :=
          Glob.mem_filesIn.mpr ⟨(meets_glob hp).mp hmeets, bytes, hfile⟩
        rw [outcomesIn_glob haction hp hmem]
        exact mem_foldMisses_of_applied (List.mem_map_of_mem hmem) happlied

/-! ## One rule -/

/-- In an open directory a rule changes what it reports. -/
theorem changesOnly_of_opens (hproper : tree.Proper) (h : tree.Opens out loc) (hr : r.isComponent = true)
    (hok : r.apply tree out = (tree', .ok outcomes)) : tree.ChangesOnly out (changedNames outcomes) tree' := by
  cases hstars : Glob.hasTwoStars r.target with
  | true =>
    rw [eq_of_hasTwoStars hproper h hr hstars hok]
    exact .refl out _ tree
  | false =>
    have hselects : r.SelectsIn tree loc := selectsIn_of_isComponent hproper hr hstars
    obtain ⟨hsame, hrevise, -⟩ := apply_ok_of_selectsIn h hselects hok
    rw [apply_outcomes h hselects hok]
    constructor
    case keeps => exact ⟨hsame.workDir, fun l => (hsame.directory l).mpr⟩
    case changed =>
      intro l bytes hl
      by_cases hunder : ∃ name, l = loc ++ [name]
      · obtain ⟨name, rfl⟩ := hunder
        by_cases hkept : tree'.under loc name = tree.under loc name
        · exact .inl (hkept.symm.trans hl)
        · refine .inr ⟨h.place ▸ hsame.opens h, name, mem_changedNames_of_revise (hrevise name) hkept, ?_⟩
          rw [h.place]
      · rw [hsame.outside l fun name e => hunder ⟨name, e⟩] at hl
        exact .inl hl
    case stays =>
      intro l bytes hl
      by_cases hunder : ∃ name, l = loc ++ [name]
      · obtain ⟨name, rfl⟩ := hunder
        have hfile := hrevise name
        rw [show tree.under loc name = some (.file bytes) from hl] at hfile
        exact exists_file_of_revise hfile
      · exact ⟨bytes, by rw [hsame.outside l fun name e => hunder ⟨name, e⟩, hl]⟩

/-- A target of one component is a name or a glob of names, or it leads to the directory above. -/
theorem isComponent_or_eq_dots (hr : Path.ofText r.target = ⟨0, [r.target]⟩) :
    r.isComponent = true ∨ r.target = ['.', '.'] := by
  have hmem : r.target ∈ Path.components r.target := by
    have hparts : Path.components r.target = [r.target] := congrArg Path.parts hr
    rw [hparts]
    exact List.mem_singleton_self _
  obtain ⟨hnil, hdot⟩ := Path.mem_components hmem
  have hslash : '/' ∉ r.target := Path.not_mem_of_mem_splitSlash (List.mem_filter.mp hmem).1
  by_cases hdots : r.target = ['.', '.']
  · exact .inr hdots
  · refine .inl ?_
    unfold isComponent
    split
    · simpa using hslash
    · exact Text.isName_iff.mpr ⟨hslash, hnil, hdot, hdots⟩

theorem place_child_dots (tree : FileTree) (out : Path) :
    tree.place (out.child ['.', '.']) = (tree.place out).dropLast := by
  show (out.parts ++ [['.', '.']]).foldl FileTree.next (tree.start out) = _
  rw [List.foldl_append]
  rfl

/-- What lies above a directory is one. -/
theorem get?_place_dots (hproper : tree.Proper) (hdir : tree.get? (tree.place out) = some .directory) :
    tree.get? (tree.place (out.child ['.', '.'])) = some .directory := by
  rw [place_child_dots]
  exact hproper.get?_dropLast (by rw [hdir]; exact Option.some_ne_none _)

/-- The directory above is no file. -/
theorem isFile_child_dots (hproper : tree.Proper) : tree.isFile (out.child ['.', '.']) ≠ .ok true := by
  intro hfile
  obtain ⟨bytes, hread⟩ := FileTree.isFile_iff_readBytes.mp hfile
  obtain ⟨hnull, hlocate, hget⟩ := FileTree.readBytes_eq_ok_iff.mp hread
  obtain ⟨loc, hopens⟩ := FileTree.opens_of_locate_child (List.cons_ne_nil _ _) hnull hlocate
  rw [get?_place_dots hproper (hopens.place ▸ hopens.directory)] at hget
  cases hget

/-- A rule for the directory above does nothing where it succeeds. -/
theorem apply_of_dots (hproper : tree.Proper) (hr : r.target = ['.', '.'])
    (hok : r.apply tree out = (tree', .ok outcomes)) : tree' = tree := by
  have hp : Wildcard.isPattern r.target = false := by
    rw [hr]
    decide
  have hpath : r.targetPath out = out.child ['.', '.'] := by
    rw [targetPath, hr]
    rfl
  cases haction : r.action with
  | create =>
    obtain ⟨made, loc, hproper', -, hopens, happly⟩ := apply_create_ok hproper haction hok
    simp only [apply, haction, create, FileTree.ensureDirectory_of_opens hopens, hpath] at happly
    split at happly
    · rename_i written hwrite
      obtain ⟨honly, hget⟩ := FileTree.writeBytes_eq_ok hwrite
      have hdir : made.get? (made.place (out.child ['.', '.'])) = some .directory :=
        get?_place_dots hproper' (hopens.place ▸ hopens.directory)
      have hfile := (honly.directory _).mpr hdir
      rw [hget, if_pos rfl] at hfile
      cases hfile
    · cases happly
  | amend placement anchor =>
    have htargets : r.targets tree out = .ok [out.child ['.', '.']] := by
      rw [targets, hp, hpath]
      rfl
    obtain ⟨more, hamend, -⟩ := amendFiles_of_apply haction htargets (List.cons_ne_nil _ []) hok
    obtain ⟨between, o, rest, hfile, hrest, -⟩ := amendFiles_cons_ok_iff.mp hamend
    cases hrest
    rcases amendFile_eq_ok hfile with ⟨-, hsame, -⟩ | ⟨t, hread, -⟩
    · exact hsame
    · exact absurd (FileTree.isFile_of_readText hread) (isFile_child_dots hproper)

/-- **A rule for one component changes files of the directory that it reports**, and nothing else. -/
theorem apply_changesOnly (hproper : tree.Proper) (hr : Path.ofText r.target = ⟨0, [r.target]⟩)
    (hok : r.apply tree out = (tree', .ok outcomes)) : tree.ChangesOnly out (changedNames outcomes) tree' := by
  rcases isComponent_or_eq_dots hr with hr | hdots
  · by_cases hopen : ∃ loc, tree.Opens out loc
    · obtain ⟨loc, h⟩ := hopen
      exact changesOnly_of_opens hproper h hr hok
    · cases haction : r.action with
      | amend placement anchor =>
        rw [apply_of_not_opens (fun loc h => hopen ⟨loc, h⟩) hr haction hok]
        exact .refl out _ tree
      | create =>
        obtain ⟨made, loc, hproper', hgrown, h, happly⟩ := apply_create_ok hproper haction hok
        exact (FileTree.ChangesOnly.of_grown hgrown out _).trans (changesOnly_of_opens hproper' h hr happly)
  · rw [apply_of_dots hproper hdots hok]
    exact .refl out _ tree

end Rule

/-! ## Rules in a row -/

namespace Catalog

open Rule (changedNames)

theorem changedNames_append (first more : List Outcome) :
    changedNames (first ++ more) = changedNames first ++ changedNames more := by
  rw [changedNames, List.filter_append, List.map_append]
  rfl

/-- **Rules change files of the directory that they report**, and nothing else. -/
theorem applyEach_changesOnly {out : Path} :
    ∀ {rules : List Rule} {tree tree' : FileTree} {outcomes : List Outcome}, tree.Proper →
      (∀ r ∈ rules, Path.ofText r.target = ⟨0, [r.target]⟩) → applyEach tree out rules = (tree', .ok outcomes) →
        tree.ChangesOnly out (changedNames outcomes) tree'
  | [], tree, tree', outcomes, _, _, hok => by
    cases hok
    exact .refl out _ tree
  | r :: rest, tree, tree', outcomes, hproper, hrules, hok => by
    obtain ⟨between, first, more, hfirst, hrest, rfl⟩ := applyEach_cons_ok_iff.mp hok
    have hproper' : between.Proper := by
      have hspec := Rule.apply_proper (r := r) hproper out
      rwa [hfirst] at hspec
    have hchanged := Rule.apply_changesOnly hproper (hrules r List.mem_cons_self) hfirst
    have hmore := applyEach_changesOnly hproper' (fun r hr => hrules r (List.mem_cons_of_mem _ hr)) hrest
    rw [changedNames_append]
    exact (hchanged.mono (List.subset_append_left _ _)).trans (hmore.mono (List.subset_append_right _ _))

end Catalog

/-! ## The report -/

theorem Report.mem_changedArtifacts_iff {r : Report} {name : Text} :
    name ∈ r.changedArtifacts ↔ name ∈ Rule.changedNames r.outcomes := by
  rw [changedArtifacts, Text.mem_sortedDistinct]
  rfl

namespace Catalog

/-- **A catalog changes files of its directory only, and reports their names.** Every other file keeps its bytes, and no
file goes away. -/
theorem apply_changes {rules : List Rule} {tree tree' : FileTree} {out : Path} {report : Report}
    (hproper : tree.Proper) (hrules : ∀ r ∈ rules, Path.ofText r.target = ⟨0, [r.target]⟩)
    (hok : apply rules tree out = (tree', .ok report)) :
    (∀ l bytes, tree'.get? l = some (.file bytes) → tree.get? l ≠ some (.file bytes) →
      ∃ dir, tree'.Opens out dir ∧ ∃ name ∈ report.changedArtifacts, l = dir ++ [name]) ∧
    (∀ l bytes, tree.get? l = some (.file bytes) →
      (∀ dir, tree'.Opens out dir → ∀ name ∈ report.changedArtifacts, l ≠ dir ++ [name]) →
        tree'.get? l = some (.file bytes)) ∧
    (∀ l bytes, tree.get? l = some (.file bytes) → ∃ bytes', tree'.get? l = some (.file bytes')) ∧
    report.changedArtifacts.Pairwise (· < ·) := by
  obtain ⟨-, happly⟩ := apply_eq_ok_iff.mp hok
  obtain ⟨-, hchanged, hstays⟩ :=
    applyEach_changesOnly hproper (fun r hr => hrules r ((inOrder_perm rules).mem_iff.mp hr)) happly
  have hnew : ∀ l bytes, tree'.get? l = some (.file bytes) → tree.get? l ≠ some (.file bytes) →
      ∃ dir, tree'.Opens out dir ∧ ∃ name ∈ report.changedArtifacts, l = dir ++ [name] := by
    intro l bytes hl hne
    obtain ⟨hopens, name, hname, hplace⟩ := (hchanged l bytes hl).resolve_left hne
    exact ⟨_, hopens, name, Report.mem_changedArtifacts_iff.mpr hname, hplace⟩
  refine ⟨hnew, fun l bytes hl hother => ?_, hstays, Text.pairwise_lt_sortedDistinct _⟩
  obtain ⟨bytes', hl'⟩ := hstays l bytes hl
  by_cases hsame : bytes' = bytes
  · rwa [hsame] at hl'
  · have hdiffers : tree.get? l ≠ some (.file bytes') := by
      rw [hl]
      exact fun e => hsame (Entry.file.inj (Option.some.inj e)).symm
    obtain ⟨dir, hopens, name, hname, hplace⟩ := hnew l bytes' hl' hdiffers
    exact absurd hplace (hother dir hopens name hname)

/-- A rule for all files, and one that writes a file. -/
def headRules : List Rule :=
  [⟨"mark", 50, "*.js", "?", .amend .after (.literal "class"), by decide⟩,
    ⟨"head", 20, "c.js", "let c", .create, by decide⟩]

/-- A file with the word, and one without it that has a byte order mark and another line end. -/
def headTree : FileTree :=
  ⟨[(["out"], .directory), (["out", "a.js"], .file (Utf8.encode "class A\r\n")),
    (["out", "b.js"], .file (Utf8.encode "\uFEFFlet b\r\n"))], [], [], []⟩

/-- Two files change, and the line end in the third one stays. -/
theorem apply_changes_head : ∃ tree' report, headTree.Proper ∧
    (∀ r ∈ headRules, Path.ofText r.target = ⟨0, [r.target]⟩) ∧
    apply headRules headTree ⟨0, ["out"]⟩ = (tree', .ok report) ∧
    report.changedArtifacts = ["a.js", "c.js"] ∧
    tree'.get? ["out", "a.js"] = some (.file (Utf8.encode "class? A\n")) ∧
    tree'.get? ["out", "b.js"] = some (.file (Utf8.encode "\uFEFFlet b\r\n")) := by
  have hnames : ((apply headRules headTree ⟨0, ["out"]⟩).2.toOption.map (·.changedArtifacts)) =
      some (["a.js", "c.js"] : List Text) := by cbv
  have hmarked : (apply headRules headTree ⟨0, ["out"]⟩).1.get? ["out", "a.js"] =
      some (.file (Utf8.encode "class? A\n")) := by cbv
  cases hok : apply headRules headTree ⟨0, ["out"]⟩ with
  | mk tree' answer =>
  rw [hok] at hnames hmarked
  cases answer with
  | error fault => cases hnames
  | ok report =>
    have hnames : report.changedArtifacts = ["a.js", "c.js"] := Option.some.inj hnames
    have hproper : headTree.Proper := by decide +kernel
    have hrules : ∀ r ∈ headRules, Path.ofText r.target = ⟨0, [r.target]⟩ := by decide +kernel
    refine ⟨tree', report, hproper, hrules, rfl, hnames, hmarked, ?_⟩
    refine (apply_changes hproper hrules hok).2.1 _ _ (by decide +kernel) fun dir _ name hname hplace => ?_
    have hlast : [("b.js" : Text)] = [name] :=
      List.append_inj_right' (show [("out" : Text)] ++ [("b.js" : Text)] = dir ++ [name] from hplace) rfl
    rw [hnames, ← List.singleton_inj.mp hlast] at hname
    revert hname
    decide

end Catalog

end FlowTypes
