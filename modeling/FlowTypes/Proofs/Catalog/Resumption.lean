import FlowTypes.Proofs.Catalog.Building
import FlowTypes.Proofs.Catalog.Rerun
import FlowTypes.Proofs.FileTree.Mending

/-!
# Going on after a failure

A run stops over a directory where a file should be, and over a file that is no text. What stands in the way is
mended by hand then, and the catalog is applied once more, to a directory in which some of the rules have been
applied already. This comes to the same as if everything had been mended before (`apply_standard_mend`): whatever
the rules have done by then is absorbed by the new run.
-/

namespace FlowTypes

namespace Rule

/-- A rule with a target of its own fails over a directory there. -/
theorem revise_directory_of_plain {r : Rule} (hp : Wildcard.isPattern r.target = false) (out : Path) (free : Bool) :
    r.revise out r.target free (some .directory) = none := by
  rw [revise, meets_plain hp, rewrite]
  cases r.action <;> simp [hp, amendEntry]

end Rule

namespace Catalog

open FileTree (mend mended Opens Grown)

/-- The entry under a name stands in the way of rules: a directory where one of them has its own target, or a
file that one of them is about and that is no text. -/
def StandsInTheWay (rules : List Rule) (name : Text) (entry : Option Entry) : Prop :=
  (entry = some .directory ∧ ∃ r ∈ rules, Wildcard.isPattern r.target = false ∧ r.target = name) ∨
    ∃ r ∈ rules, r.concerns name = true ∧
      ∃ bytes fault, entry = some (.file bytes) ∧ FileTree.textOf bytes = .error fault

/-- Rules that succeed over a directory have no target of their own there. -/
theorem reviseEach_directory {out : Path} {name : Text} {free : Bool} {entry : Option Entry} :
    ∀ {rules : List Rule}, reviseEach out name free rules (some .directory) = some entry →
      ∀ r ∈ rules, Wildcard.isPattern r.target = false → r.target ≠ name
  | r :: rest, h, r', hr', hp, htarget => by
    obtain ⟨between, hbetween, hrest⟩ := Option.bind_eq_some_iff.mp h
    have hdir := (Rule.revise_directory_iff hbetween).mpr rfl
    subst hdir
    rcases List.mem_cons.mp hr' with rfl | hr'
    · rw [← htarget, Rule.revise_directory_of_plain hp] at hbetween
      cases hbetween
    · exact reviseEach_directory hrest r' hr' hp htarget

/-! ## Mending before and after a directory is made -/

section
variable {rules : List Rule} {tree made madeMended : FileTree} {out : Path} {loc : Location}
  {fixes : List Fix}

/-- **Where a mended run completes, nothing on the way to the directory was mended.** -/
theorem mended_way (hopens : made.Opens out loc) (hgrown : Grown (tree.way out) tree made)
    (hopensMended : madeMended.Opens out loc)
    (hgrownMended : Grown (tree.way out) (mend loc fixes tree) madeMended)
    (hfixes : ∀ fix ∈ fixes, StandsInTheWay rules fix.name (tree.under loc fix.name))
    (hrun : ∀ name, reviseEach out name (madeMended.writable loc name) rules (madeMended.under loc name) ≠ none)
    {l : Location}
    (hl : l ∈ tree.way out) : mended loc fixes l = none := by
  cases hmended : mended loc fixes l with
  | none => rfl
  | some entry =>
    exfalso
    obtain ⟨fix, hfix, hprefix⟩ := FileTree.exists_fix_of_mended hmended
    have hloc : loc = tree.place out := hopens.place.trans (FileTree.place_of_workDir hgrown.workDir out)
    have hend : ¬ loc ++ [fix.name] <+: tree.place out := by
      rw [← hloc]
      intro h
      have hlength := h.length_le
      simp only [List.length_append, List.length_singleton] at hlength
      omega
    -- the way passes the mended entry itself, so there is a directory in both trees
    have hpass : loc ++ [fix.name] ∈ tree.way out := FileTree.mem_wayFrom_of_below hl hprefix hend
    have hdir : made.under loc fix.name = some .directory :=
      hopens.get?_way (FileTree.way_of_workDir hgrown.workDir out ▸ hpass)
    have hwork : madeMended.workDir = tree.workDir := by
      rw [hgrownMended.workDir, FileTree.workDir_mend]
    have hdirMended : madeMended.under loc fix.name = some .directory :=
      hopensMended.get?_way (FileTree.way_of_workDir hwork out ▸ hpass)
    rcases hfixes fix hfix with ⟨-, r, hr, hp, htarget⟩ | ⟨-, -, -, bytes, fault, hbytes, -⟩
    · obtain ⟨entry', hentry⟩ := Option.ne_none_iff_exists'.mp (hrun fix.name)
      rw [hdirMended] at hentry
      exact reviseEach_directory hentry r hr hp htarget
    · have hkept : made.under loc fix.name = some (.file bytes) := hgrown.get?_of_some hbytes
      rw [hdir] at hkept
      cases hkept

/-- **Mending may as well come after the directory is made.** -/
theorem get?_made_mend (hopens : made.Opens out loc) (hgrown : Grown (tree.way out) tree made)
    (hopensMended : madeMended.Opens out loc)
    (hgrownMended : Grown (tree.way out) (mend loc fixes tree) madeMended)
    (hway : ∀ l ∈ tree.way out, mended loc fixes l = none) (l : Location) :
    madeMended.get? l = (mend loc fixes made).get? l := by
  have hwork : madeMended.workDir = tree.workDir := by
    rw [hgrownMended.workDir, FileTree.workDir_mend]
  by_cases hl : l ∈ tree.way out
  · rw [hopensMended.get?_way (FileTree.way_of_workDir hwork out ▸ hl),
      FileTree.get?_mend_of_none (hway l hl), hopens.get?_way (FileTree.way_of_workDir hgrown.workDir out ▸ hl)]
  · rcases hgrownMended.get? l with hsame | ⟨-, -, hmem⟩
    · rcases hgrown.get? l with hsame' | ⟨-, -, hmem⟩
      · rw [hsame, FileTree.get?_mend, FileTree.get?_mend, hsame']
      · exact absurd hmem hl
    · exact absurd hmem hl

end

/-! ## Resumption -/

section
variable {rules : List Rule} {tree tree₁ ended : FileTree} {out : Path} {fixes : List Fix}

/-- **A run that is resumed after mending ends like a run that was mended before.** -/
theorem Orderly.applyEach_mend (ho : Orderly rules) (hstart : StartsWithCreate rules)
    {fault : FileFault} (h : applyEach tree out rules = (tree₁, .error fault))
    (hfault : fault.ofEntry = true)
    (hfixes : ∀ fix ∈ fixes, StandsInTheWay rules fix.name (tree.under (tree.place out) fix.name))
    {outcomes : List Outcome}
    (hmended : applyEach (mend (tree.place out) fixes tree) out rules = (ended, .ok outcomes)) :
    ∃ ended₁ again, applyEach (mend (tree.place out) fixes tree₁) out rules = (ended₁, .ok again) ∧
      ∀ l, ended₁.get? l = ended.get? l := by
  -- both runs start from an open directory
  obtain ⟨made, loc, hmake, hopens, hrun⟩ := exists_opens_of_applyEach hstart h
    fun fault' e => by cases e; exact hfault
  obtain ⟨madeMended, locMended, hmakeMended, hopensMended, hrunMended⟩ :=
    exists_opens_of_applyEach hstart hmended nofun
  have hgrown := FileTree.ensureDirectory_grown tree out
  have hgrownMended := FileTree.ensureDirectory_grown (mend (tree.place out) fixes tree) out
  rw [hmake] at hgrown
  rw [hmakeMended, FileTree.way_of_workDir (FileTree.workDir_mend fixes tree)] at hgrownMended
  have hloc : loc = tree.place out := hopens.place.trans (FileTree.place_of_workDir hgrown.workDir out)
  have hlocMended : locMended = tree.place out :=
    hopensMended.place.trans (FileTree.place_of_workDir
      (hgrownMended.workDir.trans (FileTree.workDir_mend fixes tree)) out)
  rw [← hloc] at hfixes hgrownMended ⊢
  rw [hlocMended, ← hloc] at hopensMended
  -- what the runs make of every name
  obtain ⟨hsame, hdone, -⟩ := applyEach_error hopens ho.single hrun
  obtain ⟨hsameMended, hrevise⟩ := applyEach_ok hopensMended ho.single hrunMended
  have hway : ∀ l ∈ tree.way out, mended loc fixes l = none := fun l hl =>
    mended_way hopens hgrown hopensMended hgrownMended hfixes (fun name => by simp [hrevise name]) hl
  have hget := get?_made_mend hopens hgrown hopensMended hgrownMended hway
  -- nothing is locked or unlocked on the way
  have hlocked : ∀ name, madeMended.writable loc name = made.writable loc name :=
    FileTree.writable_of_locked (hgrownMended.locked.trans
      ((FileTree.locked_mend fixes tree).trans hgrown.locked.symm)) loc
  have hlocked₁ : ∀ name, (mend loc fixes tree₁).writable loc name = made.writable loc name :=
    FileTree.writable_of_locked ((FileTree.locked_mend fixes tree₁).trans hsame.locked) loc
  have hagain : ∀ name, reviseEach out name ((mend loc fixes tree₁).writable loc name) rules
      ((mend loc fixes tree₁).under loc name) = some (ended.under loc name) := by
    intro name
    rw [← hrevise name, hlocked, hlocked₁]
    unfold FileTree.under
    rw [hget]
    cases hmended : mended loc fixes (loc ++ [name]) with
    | some entry => rw [FileTree.get?_mend_of_some hmended, FileTree.get?_mend_of_some hmended]
    | none =>
      rw [FileTree.get?_mend_of_none hmended, FileTree.get?_mend_of_none hmended]
      obtain ⟨done, rest, rfl, hpart⟩ := hdone name
      exact ho.reviseEach_absorbs hpart
  have hopens₁ : (mend loc fixes tree₁).Opens out loc := by
    have hopened := hsame.opens hopens
    refine hopened.of_way (FileTree.workDir_mend fixes tree₁) fun l hl => ?_
    rw [FileTree.way_of_workDir (hsame.workDir.trans hgrown.workDir)] at hl
    rw [FileTree.get?_mend_of_none (hway l hl)]
    exact hopened.get?_way (FileTree.way_of_workDir (hsame.workDir.trans hgrown.workDir) out ▸ hl)
  obtain ⟨ended₁, again, happly⟩ := exists_applyEach_ok hopens₁ ho.single
    fun name => by simp [hagain name]
  obtain ⟨hsame₁, hrevise₁⟩ := applyEach_ok hopens₁ ho.single happly
  refine ⟨ended₁, again, happly, fun l => ?_⟩
  by_cases hl : ∃ name, l = loc ++ [name]
  · obtain ⟨name, rfl⟩ := hl
    exact Option.some.inj ((hrevise₁ name).symm.trans (hagain name))
  · have houtside : ∀ name, l ≠ loc ++ [name] := fun name e => hl ⟨name, e⟩
    rw [hsame₁.outside l houtside, hsameMended.outside l houtside, hget, FileTree.get?_mend,
      FileTree.get?_mend, hsame.outside l houtside]

/-- **The catalog resumed after mending ends like the catalog applied to the mended directory.** -/
theorem apply_standard_mend {fault : FileFault} {report : Report}
    (h : apply standard tree out = (tree₁, .error fault)) (hfault : fault.ofEntry = true)
    (hfixes : ∀ fix ∈ fixes, StandsInTheWay standard fix.name (tree.under (tree.place out) fix.name))
    (hmended : apply standard (mend (tree.place out) fixes tree) out = (ended, .ok report)) :
    ∃ ended₁ again, apply standard (mend (tree.place out) fixes tree₁) out = (ended₁, .ok again) ∧
      ∀ loc, ended₁.get? loc = ended.get? loc := by
  have hfixes' : ∀ fix ∈ fixes,
      StandsInTheWay (inOrder standard) fix.name (tree.under (tree.place out) fix.name) := by
    intro fix hfix
    simpa only [StandsInTheWay, mem_inOrder] using hfixes fix hfix
  obtain ⟨ended₁, outcomes, hagain, hsame⟩ := orderly_standard.applyEach_mend startsWithCreate_standard
    (apply_eq_error_iff.mp h) hfault hfixes' (apply_eq_ok_iff.mp hmended).2
  exact ⟨ended₁, ⟨out, outcomes⟩, apply_eq_ok_iff.mpr ⟨rfl, hagain⟩, hsame⟩

end

/-! ## A file that stops a run halfway -/

/-- The file that stops the run, and the text that takes its place. -/
def strayName : Text := "gdvector2f.js"

def vectorText : Text := "declare class gdVector2f \x7b\n  x: number;\n  y: number;\n\x7d;\n"

/-- A declaration, and a file that is no text. -/
def strayFiles : FileTree :=
  ⟨[(["out"], .directory), (["out", "gdresource.js"], .file (Utf8.encode sampleText)),
    (["out", strayName], .file [0xff])], [], [], []⟩

/-- The declaration with its signature narrowed; the notice is still to come. -/
def narrowedText : Text :=
  "declare class gdResource \x7b\n  setKind(kind: " ++ literalUnion Tables.standard.resourceKinds ++ "): void;\n\x7d;\n"

set_option maxRecDepth 8192 in
/-- The run patches the declaration before the file stops it. -/
theorem exists_apply_error_strayFiles : ∃ tree₁ fault, apply standard strayFiles sampleOut = (tree₁, .error fault) ∧
    fault.ofEntry = true ∧ tree₁.under ["out"] "gdresource.js" = some (.file (Utf8.encode narrowedText)) := by
  have htest := @standard_of_test (fun rules =>
    match applyEach strayFiles sampleOut rules with
    | (tree₁, .error fault) =>
      fault.ofEntry && decide (tree₁.under ["out"] "gdresource.js" = some (.file (Utf8.encode narrowedText)))
    | _ => false) (by decide +kernel)
  cases happly : applyEach strayFiles sampleOut standard with
  | mk tree₁ answer =>
  rw [happly] at htest
  cases answer with
  | ok outcomes => cases htest
  | error fault =>
    simp only [Bool.and_eq_true, decide_eq_true_eq] at htest
    exact ⟨tree₁, fault, apply_eq_error_iff.mpr (checkAll_standard.2.symm ▸ happly), htest⟩

theorem standsInTheWay_strayName : StandsInTheWay standard strayName (strayFiles.under ["out"] strayName) := by
  have hconcerns := @standard_of_test (fun rules => rules.any fun r => r.concerns strayName) (by decide +kernel)
  obtain ⟨r, hr, hconcerns⟩ := List.any_eq_true.mp hconcerns
  exact .inr ⟨r, hr, hconcerns, [0xff], _, rfl, rfl⟩

theorem under_mend_strayFiles (name : Text) :
    (mend ["out"] [⟨strayName, some (Utf8.encode vectorText)⟩] strayFiles).under ["out"] name =
      if name = strayName then some (.file (Utf8.encode vectorText))
      else if name = "gdresource.js" then some (.file (Utf8.encode sampleText)) else none := by
  have hother : ∀ target : Text, name ≠ target →
      (([("out" : Text), name] : Location) == [("out" : Text), target]) = false := by
    simp
  by_cases hstray : name = strayName
  · rw [if_pos hstray, hstray]
    rfl
  · have hmended : mended ["out"] [⟨strayName, some (Utf8.encode vectorText)⟩] ["out", name] = none := by
      have hprefix : ¬ (["out", strayName] : Location) <+: ["out", name] := fun h =>
        hstray (List.cons.inj (List.cons.inj (h.eq_of_length rfl)).2).1.symm
      simp only [mended, FileTree.mendedOne, Option.none_or]
      exact if_neg hprefix
    rw [if_neg hstray, FileTree.under, List.singleton_append, FileTree.get?_mend_of_none hmended]
    by_cases hname : name = "gdresource.js"
    · rw [if_pos hname, hname]
      rfl
    · simp only [strayFiles, FileTree.get?, List.lookup_cons, hother _ hname, hother _ hstray, if_neg hname]
      rfl

/-- The file is replaced by a text, and the resumed run ends like a run over the declaration as it was generated. -/
theorem apply_standard_mend_strayFiles : ∃ tree₁ fault ended report,
    apply standard strayFiles sampleOut = (tree₁, .error fault) ∧
      tree₁.under ["out"] "gdresource.js" = some (.file (Utf8.encode narrowedText)) ∧
      apply standard (mend ["out"] [⟨strayName, some (Utf8.encode vectorText)⟩] strayFiles) sampleOut =
        (ended, .ok report) ∧
      ∃ ended₁ again,
        apply standard (mend ["out"] [⟨strayName, some (Utf8.encode vectorText)⟩] tree₁) sampleOut =
          (ended₁, .ok again) ∧
        ∀ loc, ended₁.get? loc = ended.get? loc := by
  obtain ⟨tree₁, fault, h, hfault, hpatched⟩ := exists_apply_error_strayFiles
  have hopens : (mend ["out"] [⟨strayName, some (Utf8.encode vectorText)⟩] strayFiles).Opens sampleOut
      ["out"] := ⟨rfl, rfl, rfl⟩
  obtain ⟨ended, report, hmended⟩ := exists_apply_standard (by decide)
    (FileTree.ensureDirectory_of_opens hopens) hopens (fun _ => rfl) fun name entry hentry => by
      rw [under_mend_strayFiles] at hentry
      split at hentry
      · rename_i hname
        cases hentry
        exact ⟨hname ▸ by decide, _, _, rfl, FileTree.textOf_encode (by decide)⟩
      · split at hentry
        · rename_i hname
          cases hentry
          exact ⟨hname ▸ by decide, _, _, rfl, FileTree.textOf_encode (by decide)⟩
        · cases hentry
  have hfixes : ∀ fix ∈ [(⟨strayName, some (Utf8.encode vectorText)⟩ : Fix)],
      StandsInTheWay standard fix.name (strayFiles.under ["out"] fix.name) := by
    intro fix hfix
    rw [List.mem_singleton.mp hfix]
    exact standsInTheWay_strayName
  exact ⟨tree₁, fault, ended, report, h, hpatched, hmended, apply_standard_mend h hfault hfixes hmended⟩

end Catalog

end FlowTypes
