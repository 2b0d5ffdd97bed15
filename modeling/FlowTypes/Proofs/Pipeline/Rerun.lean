import FlowTypes.Proofs.Catalog.Building
import FlowTypes.Proofs.Catalog.Rerun
import FlowTypes.Proofs.Pipeline.Exits

/-!
# Running again

A second run starts from what the first one left: files that the generator writes anew as they were before they were
patched, files that rules made, and files that were patched before and are not generated any more. Under every
name the rules make the same of it as before, because a run of rules absorbs what it has done
(`Catalog.Orderly.reviseEach_reviseEach`). So the files stay as they are (`run_standard_again`).
-/

namespace FlowTypes.Pipeline

open FileTree (FilesOnly SameOutside)

section
variable {config : GenerateConfig} {w : Generator.Writer} {rules : List Rule} {made : FileTree} {out idl : Path}
  {loc : Location} {clean : List UInt8}

/-! ## Runs that complete -/

/-- Without a strict policy, a good answer and rules that succeed are all it takes. -/
theorem gate_eq_ok_iff (hstrict : config.strictAnchors = false) {tree tree' : FileTree} {printed : Text}
    {calls : List GeneratorCall} {result : Generator.Result} :
    ((gate config out rules tree printed calls result).tree = tree' ∧
      ∃ answer, (gate config out rules tree printed calls result).answer = .ok answer) ↔
      result.Passes config.maxOutput ∧ ∃ report, Catalog.apply rules tree out = (tree', .ok report) := by
  by_cases hpasses : result.Passes config.maxOutput
  · rw [tree_gate_of_passes hpasses]
    unfold gate
    rw [Generator.Result.check_eq_ok_iff.mpr hpasses]
    dsimp only
    unfold patch
    split
    · rename_i happly
      simp [happly]
    · rename_i happly
      simp [Report.enforce, hstrict, happly, hpasses]
  · obtain ⟨problem, hcheck, -⟩ := Generator.Result.check_eq_error hpasses
    unfold gate
    rw [hcheck]
    simp [hpasses]

/-- What it takes for a run to complete once the directory is made: the files can be written, the answer is good, and
the rules succeed over what the call leaves. -/
structure Completes (config : GenerateConfig) (w : Generator.Writer) (rules : List Rule) (made : FileTree)
    (out : Path) (clean : List UInt8) (ended : FileTree) : Prop where
  written : ∃ tree, Generator.writeAll out (callIn made out config.idl clean).tree w.files = (tree, .ok ())
  passes : ∃ result, w.answer = .ok result ∧ result.Passes config.maxOutput
  applied : ∃ report,
    Catalog.apply rules ((callIn made out config.idl clean).left w.program) out = (ended, .ok report)

/-- **A run that can call the generator completes exactly if it has what it takes.** -/
theorem completes_iff (config : GenerateConfig) (rules : List Rule) (w : Generator.Writer) {tree : FileTree}
    {bytes : List UInt8}
    (hstrict : config.strictAnchors = false) (hout : config.outputDir = .value out)
    (hmake : tree.ensureDirectory out = (made, .ok ())) (hread : made.readBytes config.idl = .ok bytes)
    (hclean : Idl.sanitizeBytes Idl.elidedAttributes bytes = .ok clean) (ended : FileTree) :
    ((run config w.program rules tree).tree = ended ∧
      ∃ answer, (run config w.program rules tree).answer = .ok answer) ↔
        Completes config w rules made out clean ended := by
  obtain ⟨printed, called, hrun⟩ := @run_of_canCall config w.program rules _ _ _ _ _ hout hmake hread hclean
  have hanswer : ∀ result, (callIn made out config.idl clean).answer w.program = .ok result ↔
      (∃ tree, Generator.writeAll out (callIn made out config.idl clean).tree w.files = (tree, .ok ())) ∧
        w.answer = .ok result := fun _ => Generator.Writer.program_eq_ok_iff
  rw [hrun]
  cases hcall : (callIn made out config.idl clean).answer w.program with
  | error breakdown =>
    constructor
    · rintro ⟨-, answer, h⟩
      cases h
    · rintro ⟨hwritten, ⟨result, hresult, -⟩, -⟩
      rw [(hanswer result).mpr ⟨hwritten, hresult⟩] at hcall
      cases hcall
  | ok result =>
    obtain ⟨hwritten, hresult⟩ := (hanswer result).mp hcall
    dsimp only
    rw [gate_eq_ok_iff hstrict]
    constructor
    · rintro ⟨hpasses, happlied⟩
      exact ⟨hwritten, ⟨result, hresult, hpasses⟩, happlied⟩
    · rintro ⟨-, ⟨result', hresult', hpasses⟩, happlied⟩
      rw [hresult] at hresult'
      cases hresult'
      exact ⟨hpasses, happlied⟩

/-! ## What a call leaves under a name -/

/-- The directory is still open while the copy is there. -/
theorem opens_callIn (hopens : made.Opens out loc) : (callIn made out idl clean).tree.Opens out loc := by
  refine hopens.mono ⟨rfl, fun l hl => ?_⟩
  have hfresh : ¬ Idl.freshDirectory made <+: l := fun hfresh => by
    rw [Idl.get?_freshDirectory hfresh] at hl
    cases hl
  rw [get?_callIn made out idl clean hfresh, hl]

/-- The directory of the copy is the only one that may be new in an open directory. -/
theorem under_callIn (hopens : made.Opens out loc) {name : Text}
    (h : Idl.freshDirectory made <+: loc ++ [name]) :
    (callIn made out idl clean).tree.under loc name = some .directory := by
  have hne : Idl.freshDirectory made ≠ Idl.freshDirectory made ++ [idl.name] := by simp
  rcases List.prefix_concat_iff.mp h with he | habove
  · unfold FileTree.under callIn
    rw [← he, FileTree.get?_put _ _ _ _ (by simp), if_neg hne,
      FileTree.get?_put _ _ _ _ (Idl.freshDirectory_ne_nil made), if_pos rfl]
  · have hnone := Idl.get?_freshDirectory habove
    rw [hopens.directory] at hnone
    cases hnone

/-- **A call whose files are written leaves them under their names**, and everything else as it was. -/
theorem left_of_writeAll_ok {tree : FileTree} (hopens : made.Opens out loc)
    (hnames : ∀ file ∈ w.files, file.1.isName = true)
    (h : Generator.writeAll out (callIn made out idl clean).tree w.files = (tree, .ok ())) :
    SameOutside loc made ((callIn made out idl clean).left w.program) ∧
      (∀ name, ((callIn made out idl clean).left w.program).under loc name =
        ((Generator.written name w.files).map .file).or (made.under loc name)) ∧
      ∀ file ∈ w.files, out.reaches file.1 = true ∧ made.writable loc file.1 = true := by
  have hfiles : FilesOnly made ((callIn made out idl clean).left w.program) := filesOnly_left w idl clean
  obtain ⟨hsame, hunder, hfree⟩ := Generator.writeAll_ok (opens_callIn hopens) hnames h
  have hleft : ∀ l, ((callIn made out idl clean).left w.program).get? l =
      if Idl.freshDirectory made <+: l then none else tree.get? l := fun l => by rw [get?_left, h]
  refine ⟨⟨hfiles.toSameSetting, fun l hl => ?_, hfiles.directory⟩, fun name => ?_,
    fun file hfile => ⟨(hfree file hfile).1, (hfree file hfile).2.2⟩⟩
  · rw [hleft]
    split
    · rename_i hfresh
      rw [Idl.get?_freshDirectory hfresh]
    · rename_i hfresh
      rw [hsame.outside l hl, get?_callIn made out idl clean hfresh]
  · rw [FileTree.under, hleft]
    split
    · rename_i hfresh
      -- nothing is written under the name of a directory
      have hwritten : Generator.written name w.files = none := by
        refine Decidable.byContradiction fun hsome => ?_
        obtain ⟨bytes, hbytes⟩ := Option.ne_none_iff_exists'.mp hsome
        obtain ⟨file, hfile, rfl⟩ := Generator.exists_of_written hbytes
        exact (hfree file hfile).2.1 (under_callIn hopens hfresh)
      rw [hwritten, FileTree.under, Idl.get?_freshDirectory hfresh]
      rfl
    · rename_i hfresh
      have hmade : (callIn made out idl clean).tree.under loc name = made.under loc name :=
        get?_callIn made out idl clean hfresh
      rw [← hmade]
      exact hunder name

/-- **Files can be written in a call** where they are within reach and may be written, and no directory has the name. -/
theorem exists_writeAll_ok_callIn (hopens : made.Opens out loc)
    (hnames : ∀ file ∈ w.files, file.1.isName = true)
    (hfree : ∀ file ∈ w.files, (out.reaches file.1 = true ∧ made.writable loc file.1 = true) ∧
      made.under loc file.1 ≠ some .directory ∧ ¬ Idl.freshDirectory made <+: loc ++ [file.1]) :
    ∃ tree, Generator.writeAll out (callIn made out idl clean).tree w.files = (tree, .ok ()) := by
  refine Generator.exists_writeAll_ok (opens_callIn hopens) hnames fun file hfile => ?_
  obtain ⟨⟨hreach, hwritable⟩, hdir, hfresh⟩ := hfree file hfile
  rw [FileTree.under, get?_callIn made out idl clean hfresh]
  exact ⟨hreach, hdir, hwritable⟩

/-! ## The second run -/

/-- **A call over what a run ended with leaves nothing but what the rules end with again.** -/
theorem Completes.again {ended : FileTree} {bytes : List UInt8} (ho : Catalog.Orderly (Catalog.inOrder rules))
    (hopens : made.Opens out loc) (hnames : ∀ file ∈ w.files, file.1.isName = true)
    (h : Completes config w rules made out clean ended) (hread : made.readBytes config.idl = .ok bytes) :
    ended.Opens out loc ∧ (∃ bytes', ended.readBytes config.idl = .ok bytes') ∧
      ∀ clean', ∃ ended', Completes config w rules ended out clean' ended' ∧
        ∀ l, ended'.get? l = ended.get? l := by
  obtain ⟨tree, hwritten⟩ := h.written
  obtain ⟨report, happlied⟩ := h.applied
  obtain ⟨-, happly⟩ := Catalog.apply_eq_ok_iff.mp happlied
  -- what the first run made of every name
  obtain ⟨hsame, hunder, hreaches⟩ := left_of_writeAll_ok hopens hnames hwritten
  obtain ⟨hsame', hrevise⟩ := Catalog.applyEach_ok (hsame.opens hopens) ho.single happly
  have hended : ended.Opens out loc := hsame'.opens (hsame.opens hopens)
  have hfiles : FilesOnly ((callIn made out config.idl clean).left w.program) ended :=
    (Catalog.applyEach_writes (hsame.opens hopens) happly).1
  refine ⟨hended, ((filesOnly_left w config.idl clean).trans hfiles).exists_readBytes hread, fun clean' => ?_⟩
  -- the files that were written are there, so they can be written again
  have hlocked : ∀ name, ended.writable loc name = made.writable loc name := fun name =>
    (hsame'.writable loc name).trans (hsame.writable loc name)
  have hfree : ∀ file ∈ w.files, (out.reaches file.1 = true ∧ ended.writable loc file.1 = true) ∧
      ended.under loc file.1 ≠ some .directory ∧ ¬ Idl.freshDirectory ended <+: loc ++ [file.1] := by
    intro file hfile
    obtain ⟨bytes, hbytes⟩ := Option.ne_none_iff_exists'.mp (Generator.written_ne_none hfile)
    have hleft : ((callIn made out config.idl clean).left w.program).get? (loc ++ [file.1]) =
        some (.file bytes) := by
      rw [← FileTree.under, hunder, hbytes]
      rfl
    refine ⟨⟨(hreaches file hfile).1, (hlocked _).trans (hreaches file hfile).2⟩, fun hdir => ?_, fun hfresh => ?_⟩
    · rw [(hfiles.directory _).mp hdir] at hleft
      cases hleft
    · exact hfiles.present (loc ++ [file.1]) (by rw [hleft]; exact Option.some_ne_none _) (Idl.get?_freshDirectory hfresh)
  obtain ⟨tree', hwritten'⟩ := exists_writeAll_ok_callIn hended hnames hfree
  obtain ⟨hagain, hunder', -⟩ := left_of_writeAll_ok hended hnames hwritten'
  -- what is written anew is patched like before, and the rest is patched already
  have hrevise' : ∀ name, Catalog.reviseEach out name
      (((callIn ended out config.idl clean').left w.program).writable loc name) (Catalog.inOrder rules)
        (((callIn ended out config.idl clean').left w.program).under loc name) = some (ended.under loc name) := by
    intro name
    rw [hagain.writable, hsame'.writable]
    cases hname : Generator.written name w.files with
    | some bytes =>
      have hleft := hunder name
      rw [hname] at hleft
      rw [hunder', hname, ← hrevise name, hleft]
      rfl
    | none =>
      rw [hunder', hname]
      exact ho.reviseEach_reviseEach (hrevise name)
  obtain ⟨ended', outcomes, happly'⟩ := Catalog.exists_applyEach_ok (hagain.opens hended) ho.single
    fun name => by rw [hrevise']; exact Option.some_ne_none _
  obtain ⟨hsame'', hrevise''⟩ := Catalog.applyEach_ok (hagain.opens hended) ho.single happly'
  refine ⟨ended', ⟨⟨tree', hwritten'⟩, h.passes, ⟨out, outcomes⟩,
    Catalog.apply_eq_ok_iff.mpr ⟨rfl, happly'⟩⟩, (hagain.trans hsame'').get?_eq fun name => ?_⟩
  exact Option.some.inj ((hrevise'' name).symm.trans (hrevise' name))

end

/-- **A run over what it ended with completes and changes no file**, if the rules are orderly. -/
theorem run_again {config : GenerateConfig} {w : Generator.Writer} {rules : List Rule} {tree : FileTree}
    (ho : Catalog.Orderly (Catalog.inOrder rules)) (hstrict : config.strictAnchors = false)
    (hnames : ∀ file ∈ w.files, file.1.isName = true)
    (h : ∃ answer, (run config w.program rules tree).answer = .ok answer) :
    (∃ again, (run config w.program rules (run config w.program rules tree).tree).answer = .ok again) ∧
      ∀ l, (run config w.program rules (run config w.program rules tree).tree).tree.get? l =
        (run config w.program rules tree).tree.get? l := by
  by_cases hcall : CanCall config tree
  case neg =>
    obtain ⟨answer, hanswer⟩ := h
    obtain ⟨-, ⟨failure, hfailure⟩, -⟩ := @run_of_not_canCall config w.program rules tree hcall
    rw [hanswer] at hfailure
    cases hfailure
  obtain ⟨out, made, bytes, hout, hmake, hread⟩ := hcall
  obtain ⟨loc, hopens⟩ := FileTree.opens_of_ensureDirectory hmake
  obtain ⟨clean, hclean⟩ := Idl.exists_sanitizeBytes bytes
  have hcompletes := completes_iff config rules w hstrict hout hmake hread hclean
  obtain ⟨hended, ⟨bytes', hread'⟩, hagain⟩ :=
    ((hcompletes _).mp ⟨rfl, h⟩).again ho hopens hnames hread
  obtain ⟨clean', hclean'⟩ := Idl.exists_sanitizeBytes bytes'
  have hcompletes' :=
    completes_iff config rules w hstrict hout (FileTree.ensureDirectory_of_opens hended) hread' hclean'
  obtain ⟨ended', hended', hget⟩ := hagain clean'
  obtain ⟨htree, hanswer⟩ := (hcompletes' ended').mpr hended'
  exact ⟨hanswer, fun l => by rw [htree, hget]⟩

/-- **A run of the pipeline over what it made completes and changes no file.** -/
theorem run_standard_again {config : GenerateConfig} {w : Generator.Writer} {tree : FileTree}
    {answer : PipelineResult} (hstrict : config.strictAnchors = false)
    (hnames : ∀ file ∈ w.files, file.1.isName = true)
    (h : (run config w.program Catalog.standard tree).answer = .ok answer) :
    ∃ again,
      (run config w.program Catalog.standard (run config w.program Catalog.standard tree).tree).answer =
        .ok again ∧
      ∀ l, (run config w.program Catalog.standard
          (run config w.program Catalog.standard tree).tree).tree.get? l =
        (run config w.program Catalog.standard tree).tree.get? l := by
  obtain ⟨⟨again, hagain⟩, hget⟩ := run_again Catalog.orderly_standard hstrict hnames ⟨answer, h⟩
  exact ⟨again, hagain, hget⟩

/-! ## A run over a stale declaration -/

/-- The generated declaration as the catalog of the bindings patches it. -/
def standardDeclaration : Text := Catalog.notice ++ "\ndeclare class gdResource \x7b\n  setKind(kind: "
  ++ Catalog.literalUnion Catalog.Tables.standard.resourceKinds ++ "): void;\n\x7d;\n"

/-- The stale one as it was generated. -/
def rawOlderDeclaration : Text := "declare class gdLayout \x7b\n  getName(): string;\n\x7d;\n"

theorem under_sampleLeft (name : Text) : sampleLeft.under ["out"] name =
    if name = "gdresource.js" then some (.file (Utf8.encode sampleDeclaration))
    else if name = "gdlayout.js" then some (.file (Utf8.encode olderDeclaration)) else none := by
  unfold sampleLeft
  generalize Entry.file (Utf8.encode sampleDeclaration) = new
  generalize Entry.file (Utf8.encode olderDeclaration) = old
  generalize Entry.file (Utf8.encode sampleDefinitions) = definitions
  by_cases hnew : name = "gdresource.js"
  · rw [if_pos hnew, hnew]
    rfl
  · rw [if_neg hnew]
    by_cases hold : name = "gdlayout.js"
    · rw [if_pos hold, hold]
      rfl
    · have hother : ∀ target : Text, name ≠ target →
          (([("out" : Text), name] : Location) == [("out" : Text), target]) = false := by
        simp
      simp only [FileTree.under, FileTree.get?, List.singleton_append, List.lookup_cons, hother _ hnew, hother _ hold,
        if_neg hold]
      rfl

set_option maxRecDepth 8192 in
theorem reviseEach_standard_sample :
    Catalog.reviseEach ⟨0, ["out"]⟩ "gdresource.js" true Catalog.standard
        (some (.file (Utf8.encode sampleDeclaration))) = some (some (.file (Utf8.encode standardDeclaration))) ∧
      Catalog.reviseEach ⟨0, ["out"]⟩ "gdlayout.js" true Catalog.standard
        (some (.file (Utf8.encode rawOlderDeclaration))) = some (some (.file (Utf8.encode olderDeclaration))) ∧
      Catalog.reviseEach ⟨0, ["out"]⟩ "gdlayout.js" true Catalog.standard
        (some (.file (Utf8.encode olderDeclaration))) = some (some (.file (Utf8.encode olderDeclaration))) := by
  have htest := @Catalog.standard_of_test (fun rules =>
    decide (Catalog.reviseEach ⟨0, ["out"]⟩ "gdresource.js" true rules
        (some (.file (Utf8.encode sampleDeclaration))) = some (some (.file (Utf8.encode standardDeclaration))) ∧
      Catalog.reviseEach ⟨0, ["out"]⟩ "gdlayout.js" true rules
        (some (.file (Utf8.encode rawOlderDeclaration))) = some (some (.file (Utf8.encode olderDeclaration))) ∧
      Catalog.reviseEach ⟨0, ["out"]⟩ "gdlayout.js" true rules
        (some (.file (Utf8.encode olderDeclaration))) = some (some (.file (Utf8.encode olderDeclaration))))) (by decide +kernel)
  exact of_decide_eq_true htest

/-- The run completes: it patches what is generated anew, and the stale declaration stays as it is. -/
theorem exists_run_sample :
    let first := run sampleConfig (sampleWriter 0).program Catalog.standard sampleTree
    (∃ answer, first.answer = .ok answer) ∧
      first.tree.get? ["out", "gdresource.js"] = some (.file (Utf8.encode standardDeclaration)) ∧
      first.tree.get? ["out", "gdlayout.js"] = some (.file (Utf8.encode olderDeclaration)) := by
  dsimp only
  have hopens : sampleLeft.Opens ⟨0, ["out"]⟩ ["out"] := ⟨rfl, rfl, rfl⟩
  obtain ⟨ended, report, happlied⟩ := Catalog.exists_apply_standard (by decide)
    (FileTree.ensureDirectory_of_opens hopens) hopens (fun _ => rfl) fun name entry hentry => by
      rw [under_sampleLeft] at hentry
      split at hentry
      · rename_i hname
        cases hentry
        exact ⟨hname ▸ by decide, _, _, rfl, FileTree.textOf_encode (by decide)⟩
      · split at hentry
        · rename_i hname
          cases hentry
          exact ⟨hname ▸ by decide, _, _, rfl, FileTree.textOf_encode (by decide)⟩
        · cases hentry
  have hread : sampleTree.readBytes sampleConfig.idl = .ok (Utf8.encode sampleDefinitions) := rfl
  have hclean : Idl.sanitizeBytes Idl.elidedAttributes (Utf8.encode sampleDefinitions) =
      .ok (Utf8.encode sampleSanitized) := rfl
  obtain ⟨tree, hwritten, -⟩ := writeAll_sample
  obtain ⟨hended, hanswer⟩ := (completes_iff sampleConfig Catalog.standard (sampleWriter 0) rfl rfl
    (FileTree.ensureDirectory_of_opens opens_sampleTree) hread hclean ended).mpr
      ⟨⟨tree, hwritten⟩, ⟨_, rfl, rfl, rfl, by decide⟩, report, left_sampleCall 0 ▸ happlied⟩
  -- what the catalog makes of both declarations
  obtain ⟨-, hrevise⟩ :=
    Catalog.applyEach_ok hopens Catalog.orderly_standard.single (Catalog.apply_eq_ok_iff.mp happlied).2
  rw [Catalog.checkAll_standard.2] at hrevise
  obtain ⟨hnew, -, hold⟩ := reviseEach_standard_sample
  refine ⟨hanswer, ?_, ?_⟩
  · rw [hended]
    exact Option.some.inj ((hrevise "gdresource.js").symm.trans hnew)
  · rw [hended]
    exact Option.some.inj ((hrevise "gdlayout.js").symm.trans hold)

/-- The declaration is written anew without its patches and gets them once more, and the stale one keeps its own. -/
theorem run_standard_again_sample :
    let first := run sampleConfig (sampleWriter 0).program Catalog.standard sampleTree
    let second := run sampleConfig (sampleWriter 0).program Catalog.standard first.tree
    ((∃ answer, first.answer = .ok answer) ∧
      first.tree.get? ["out", "gdresource.js"] = some (.file (Utf8.encode standardDeclaration)) ∧
      first.tree.get? ["out", "gdlayout.js"] = some (.file (Utf8.encode olderDeclaration))) ∧
      ∃ again, second.answer = .ok again ∧ ∀ l, second.tree.get? l = first.tree.get? l := by
  dsimp only
  obtain ⟨⟨answer, h⟩, htexts⟩ := exists_run_sample
  exact ⟨⟨⟨answer, h⟩, htexts⟩, run_standard_again rfl (by decide) h⟩

end FlowTypes.Pipeline
