import FlowTypes.Proofs.Pipeline.Calls
import Mathlib

/-!
# Exits of a run

A run may stop in many places: the directory cannot be made, the definitions cannot be read, the generator breaks
down or answers nothing good, a rule fails, or a miss is a problem. Whichever it is, the generator is called once
if it can be called and never otherwise, it is handed the tree as it was with the directory and a copy of the sanitized
definitions, rules are applied only after a good answer, no directory is left but the one of the declarations, and the
definitions themselves are as they were. `Disciplined` is all this, and every run keeps to it (`run_disciplined`).
-/

namespace FlowTypes.Pipeline

/-- What can be said of a run with a generator that writes files, whatever the exit. -/
structure Disciplined (config : GenerateConfig) (w : Generator.Writer) (rules : List Rule)
    (tree : FileTree) (run : Run) : Prop where
  /-- The generator is called once if it can be called. -/
  called : CanCall config tree → ∃ call, run.calls = [call]
  /-- It is not called otherwise, and the run fails with no more done than to prepare the directory. -/
  notCalled : ¬ CanCall config tree →
    run.calls = [] ∧ (∃ failure, run.answer = .error failure) ∧ run.tree = prepared config tree
  /-- It is handed the prepared tree with a copy of the sanitized definitions. -/
  handed : ∀ call ∈ run.calls, Handed config tree call
  /-- If it breaks down, the run does, and the files are as it left them. -/
  brokenDown : ∀ call ∈ run.calls, ∀ breakdown, call.answer w.program = .error breakdown →
    run.answer = .error (.breakdown breakdown) ∧ run.tree = call.left w.program
  /-- If its answer does not pass, that is the problem, and the files are as it left them. -/
  refused : ∀ call ∈ run.calls, ∀ result, call.answer w.program = .ok result →
    ¬ result.Passes config.maxOutput →
      run.tree = call.left w.program ∧
        ∃ problem : PipelineProblem, run.answer = .error (.problem problem) ∧ problem.code =
          if result.timedOut = true then .generatorTimedOut
          else if result.exitCode ≠ 0 then .generatorErrored else .generatorOutputSuspicious
  /-- If its answer passes, the files are as the rules leave them that are applied to what it left. -/
  patched : ∀ call ∈ run.calls, ∀ result, call.answer w.program = .ok result →
    result.Passes config.maxOutput →
      run.tree = (Catalog.apply rules (call.left w.program) call.options.outputDir).1
  /-- Nothing was in the directory of the copy before. -/
  fresh : ∀ call ∈ run.calls, ∀ l, call.directory <+: l → tree.get? l = none
  /-- The directory of the copy is gone, with all that was in it. -/
  gone : ∀ call ∈ run.calls, run.tree.get? call.directory ≠ some .directory ∧
    ∀ l, call.directory <+: l → l ≠ call.directory → run.tree.get? l = none
  /-- On every exit there are the directories of the prepared tree and no others. -/
  directories : ∀ l, run.tree.get? l = some .directory ↔ (prepared config tree).get? l = some .directory
  /-- The definitions are as they were, unless the generator or a rule writes them. -/
  kept : ∀ bytes, tree.get? (tree.place config.idl) = some (.file bytes) →
    (∀ call ∈ run.calls, ∀ file ∈ w.files,
      tree.place (call.options.outputDir.join (Path.ofText file.1)) ≠ tree.place config.idl) →
    (∀ call ∈ run.calls, ∀ result, call.answer w.program = .ok result →
      result.Passes config.maxOutput →
        ¬ Catalog.Writes (Catalog.inOrder rules) (call.left w.program) call.options.outputDir
          (tree.place config.idl)) →
      run.tree.get? (tree.place config.idl) = some (.file bytes)

section
variable {config : GenerateConfig} {w : Generator.Writer} {rules : List Rule} {tree made : FileTree}
  {out : Path} {bytes clean : List UInt8}

open FileTree (FilesOnly)

/-! ## Runs that call the generator -/

/-- **The exits of a run that calls the generator**: it breaks down, its answer does not pass, or rules are
applied. -/
theorem exits_of_canCall (rules : List Rule) (generator : Generator.Program)
    (hout : config.outputDir = .value out) (hmake : tree.ensureDirectory out = (made, .ok ()))
    (hread : made.readBytes config.idl = .ok bytes)
    (hclean : Idl.sanitizeBytes Idl.elidedAttributes bytes = .ok clean) :
    let call := callIn made out config.idl clean
    let run := run config generator rules tree
    run.calls = [call] ∧
      (∀ breakdown, call.answer generator = .error breakdown →
        run.answer = .error (.breakdown breakdown) ∧ run.tree = call.left generator) ∧
      (∀ result, call.answer generator = .ok result → ¬ result.Passes config.maxOutput →
        run.tree = call.left generator ∧
          ∃ problem : PipelineProblem, run.answer = .error (.problem problem) ∧ problem.code =
            if result.timedOut = true then .generatorTimedOut
            else if result.exitCode ≠ 0 then .generatorErrored else .generatorOutputSuspicious) ∧
      ∀ result, call.answer generator = .ok result → result.Passes config.maxOutput →
        run.tree = (Catalog.apply rules (call.left generator) out).1 := by
  obtain ⟨printed, called, hrun⟩ := @run_of_canCall config generator rules _ _ _ _ _ hout hmake hread hclean
  dsimp only
  rw [hrun]
  cases hanswer : (callIn made out config.idl clean).answer generator with
  | error breakdown =>
    refine ⟨rfl, fun b hb => ?_, nofun, nofun⟩
    cases hb
    exact ⟨rfl, rfl⟩
  | ok result =>
    refine ⟨calls_gate .., nofun, fun r hr hpasses => ?_, fun r hr hpasses => ?_⟩
    · cases hr
      obtain ⟨problem, hcheck, hcode⟩ := Generator.Result.check_eq_error hpasses
      dsimp only [gate]
      rw [hcheck]
      exact ⟨rfl, problem, rfl, hcode⟩
    · cases hr
      exact tree_gate_of_passes hpasses ..

/-- A run that calls the generator leaves what the call left, or what the rules make of it if the answer passes. -/
theorem tree_of_canCall (rules : List Rule) (generator : Generator.Program)
    (hout : config.outputDir = .value out) (hmake : tree.ensureDirectory out = (made, .ok ()))
    (hread : made.readBytes config.idl = .ok bytes)
    (hclean : Idl.sanitizeBytes Idl.elidedAttributes bytes = .ok clean) :
    let left := (callIn made out config.idl clean).left generator
    (run config generator rules tree).tree = left ∨
      ∃ result, (callIn made out config.idl clean).answer generator = .ok result ∧ result.Passes config.maxOutput ∧
        (run config generator rules tree).tree = (Catalog.apply rules left out).1 := by
  obtain ⟨-, hbroken, hrefused, hpatched⟩ := exits_of_canCall rules generator hout hmake hread hclean
  dsimp only
  cases hanswer : (callIn made out config.idl clean).answer generator with
  | error breakdown => exact .inl (hbroken breakdown hanswer).2
  | ok result =>
    by_cases hpasses : result.Passes config.maxOutput
    · exact .inr ⟨result, rfl, hpasses, hpatched result hanswer hpasses⟩
    · exact .inl (hrefused result hanswer hpasses).1

/-- **Rules write files only in what a call left.** -/
theorem apply_left_writes {loc : Location} (rules : List Rule) (w : Generator.Writer) (clean : List UInt8)
    (hopens : made.Opens out loc) :
    let left := (callIn made out config.idl clean).left w.program
    FilesOnly left (Catalog.apply rules left out).1 ∧ ∀ l, ¬ Catalog.Writes (Catalog.inOrder rules) left out l →
      (Catalog.apply rules left out).1.get? l = left.get? l := by
  dsimp only
  rw [Catalog.apply_fst]
  have hleft : FilesOnly made ((callIn made out config.idl clean).left w.program) :=
    filesOnly_left w config.idl clean
  exact Catalog.applyEach_writes (hopens.mono hleft.keepsDirectories) rfl

/-- What differs in files only from what a call left has no copy. -/
theorem gone_of_filesOnly {clean : List UInt8} {tree' : FileTree}
    (h : FilesOnly ((callIn made out config.idl clean).left w.program) tree') :
    tree'.get? (Idl.freshDirectory made) ≠ some .directory ∧
      ∀ l, Idl.freshDirectory made <+: l → l ≠ Idl.freshDirectory made → tree'.get? l = none := by
  have hnone : made.get? (Idl.freshDirectory made) = none := Idl.get?_freshDirectory List.prefix_rfl
  have hleft : ((callIn made out config.idl clean).left w.program).get? (Idl.freshDirectory made) ≠
      some .directory := by
    rw [ne_eq, (filesOnly_left w config.idl clean).directory, hnone]
    nofun
  refine ⟨fun e => hleft ((h.directory _).mp e), fun l hl hne => ?_⟩
  refine h.below hleft (fun l hl _ => ?_) hl hne
  rw [get?_left, if_pos hl]

/-! ## All runs -/

theorem disciplined_of_canCall (rules : List Rule) (w : Generator.Writer)
    (hout : config.outputDir = .value out) (hmake : tree.ensureDirectory out = (made, .ok ()))
    (hread : made.readBytes config.idl = .ok bytes) :
    Disciplined config w rules tree (run config w.program rules tree) := by
  obtain ⟨loc, hopens⟩ := FileTree.opens_of_ensureDirectory hmake
  obtain ⟨clean, hclean⟩ := Idl.exists_sanitizeBytes bytes
  have hgrown := FileTree.ensureDirectory_grown tree out
  have hprepared : prepared config tree = made := by rw [prepared, hout]; simp only [hmake]
  rw [hmake] at hgrown
  obtain ⟨hcalls, hbroken, hrefused, hpatched⟩ := exits_of_canCall rules w.program hout hmake hread hclean
  have htree := tree_of_canCall rules w.program hout hmake hread hclean
  have hdirectory := directory_callIn made out config.idl clean
  obtain ⟨hwrites, hget⟩ := @apply_left_writes config _ _ _ rules w clean hopens
  have hmem : ∀ {call}, call ∈ (run config w.program rules tree).calls →
      call = callIn made out config.idl clean := fun h => List.mem_singleton.mp (hcalls ▸ h)
  -- on every exit only files have changed since the call
  have hfiles : FilesOnly ((callIn made out config.idl clean).left w.program)
      (run config w.program rules tree).tree := by
    rcases htree with htree | ⟨result, -, -, htree⟩
    · rw [htree]
      exact .refl _
    · rw [htree]
      exact hwrites
  constructor
  case called => exact fun _ => ⟨_, hcalls⟩
  case notCalled => exact fun h => absurd ⟨out, made, bytes, hout, hmake, hread⟩ h
  case handed =>
    intro call hcall
    rw [hmem hcall]
    exact handed_callIn hout hmake hread hclean
  case brokenDown =>
    intro call hcall
    rw [hmem hcall]
    exact hbroken
  case refused =>
    intro call hcall
    rw [hmem hcall]
    exact hrefused
  case patched =>
    intro call hcall
    rw [hmem hcall]
    exact hpatched
  case fresh =>
    intro call hcall l hl
    rw [hmem hcall, hdirectory] at hl
    have hnone := Idl.get?_freshDirectory hl
    rcases hgrown.get? l with hsame | ⟨hnone', -, -⟩
    · rw [← hsame, hnone]
    · exact hnone'
  case gone =>
    intro call hcall
    rw [hmem hcall, hdirectory]
    exact gone_of_filesOnly hfiles
  case directories =>
    intro l
    rw [hprepared]
    exact ((filesOnly_left w config.idl clean).trans hfiles).directory l
  case kept =>
    intro bytes' hidl hwritten hrules
    have hcall : callIn made out config.idl clean ∈ (run config w.program rules tree).calls := by
      rw [hcalls]
      exact List.mem_singleton_self _
    have hleft : ((callIn made out config.idl clean).left w.program).get? (tree.place config.idl) =
        some (.file bytes') := by
      refine get?_left_of_ne w config.idl clean (hgrown.get?_of_some hidl) fun file hfile => ?_
      rw [FileTree.place_of_workDir hgrown.workDir]
      exact hwritten _ hcall file hfile
    rcases htree with htree | ⟨result, hanswer, hpasses, htree⟩
    · rw [htree, hleft]
    · rw [htree, hget _ (hrules _ hcall result hanswer hpasses), hleft]

/-- **Every run is disciplined.** -/
theorem run_disciplined (config : GenerateConfig) (w : Generator.Writer) (rules : List Rule)
    (tree : FileTree) : Disciplined config w rules tree (run config w.program rules tree) := by
  by_cases hcall : CanCall config tree
  · obtain ⟨out, made, bytes, hout, hmake, hread⟩ := hcall
    exact disciplined_of_canCall rules w hout hmake hread
  · obtain ⟨hcalls, hfails, htree⟩ := @run_of_not_canCall config w.program rules tree hcall
    obtain ⟨locs, hgrown⟩ := exists_grown_prepared config tree
    have hnone : ∀ {call}, call ∉ (run config w.program rules tree).calls := by
      rw [hcalls]
      exact List.not_mem_nil
    constructor
    case called => exact fun h => absurd h hcall
    case notCalled => exact fun _ => ⟨hcalls, hfails, htree⟩
    case kept => exact fun _ h _ _ => htree ▸ hgrown.get?_of_some h
    case directories => exact fun _ => by rw [htree]
    all_goals exact fun _ h => absurd h hnone

/-- Definitions with an attribute that is elided, and what the generator gets of them. -/
def sampleDefinitions : Text := "[Prefix=\"gdjs::\"]\ninterface Resource \x7b\x7d;\n"

def sampleSanitized : Text := "/* Removed gdjs prefix */\ninterface Resource \x7b\x7d;\n"

/-- A declaration as it is generated. -/
def sampleDeclaration : Text := "declare class gdResource \x7b\n  setKind(kind: string): void;\n\x7d;\n"

/-- A declaration from before, as it was patched then. -/
def olderDeclaration : Text :=
  Catalog.notice ++ "\ndeclare class gdLayout extends gdObjectsContainer \x7b\n  getName(): string;\n\x7d;\n"

/-- The definitions, and a directory with a declaration from before. -/
def sampleTree : FileTree :=
  ⟨[(["Bindings.idl"], .file (Utf8.encode sampleDefinitions)), (["out"], .directory),
    (["out", "gdlayout.js"], .file (Utf8.encode olderDeclaration)), (["tmp"], .directory)], [], ["tmp"], []⟩

def sampleConfig : GenerateConfig where
  idl := ⟨0, ["Bindings.idl"]⟩
  outputDir := .value ⟨0, ["out"]⟩
  generator := ⟨0, ["generator"]⟩
  node := .value "node"
  timeout := .finite false 300 0
  maxOutput := 0
  strictAnchors := false

def sampleFiles : List (Text × List UInt8) := [("gdresource.js", Utf8.encode sampleDeclaration)]

/-- A generator that writes a declaration and has this exit code. -/
def sampleWriter (exitCode : Int) : Generator.Writer := ⟨sampleFiles, .ok ⟨exitCode, [], [], false⟩⟩

/-- Rules for a signature and for a line before each declaration. -/
def sampleRules : List Rule :=
  [⟨"line", 100, "*.js", "// checked\n", .amend .before (.literal "declare class"), by decide⟩,
    ⟨"kind", 70, "gdresource.js", "setKind(kind: 'image'): void",
      .amend .over (.literal "setKind(kind: string): void"), by decide⟩]

def patchedDeclaration : Text :=
  "// checked\ndeclare class gdResource \x7b\n  setKind(kind: 'image'): void;\n\x7d;\n"

def patchedOlderDeclaration : Text := Catalog.notice ++
  "\n// checked\ndeclare class gdLayout extends gdObjectsContainer \x7b\n  getName(): string;\n\x7d;\n"

/-- The call of the generator. -/
def sampleCall : GeneratorCall :=
  callIn sampleTree ⟨0, ["out"]⟩ sampleConfig.idl (Utf8.encode sampleSanitized)

/-- What the call leaves. -/
def sampleLeft : FileTree :=
  ⟨[(["out", "gdresource.js"], .file (Utf8.encode sampleDeclaration)),
    (["Bindings.idl"], .file (Utf8.encode sampleDefinitions)), (["out"], .directory),
    (["out", "gdlayout.js"], .file (Utf8.encode olderDeclaration)), (["tmp"], .directory)], [], ["tmp"], []⟩

theorem opens_sampleTree : sampleTree.Opens ⟨0, ["out"]⟩ ["out"] := ⟨rfl, rfl, rfl⟩

theorem writeAll_sample : ∃ tree, Generator.writeAll ⟨0, ["out"]⟩ sampleCall.tree sampleFiles = (tree, .ok ()) ∧
    tree.remove sampleCall.directory = sampleLeft :=
  ⟨(Generator.writeAll ⟨0, ["out"]⟩ sampleCall.tree sampleFiles).1, rfl, by decide +kernel⟩

theorem left_sampleCall (exitCode : Int) : sampleCall.left (sampleWriter exitCode).program = sampleLeft := by
  obtain ⟨tree, hwritten, hleft⟩ := writeAll_sample
  have hprogram := (sampleWriter exitCode).program_fst sampleCall.tree sampleCall.idl sampleCall.options
  rw [show Generator.writeAll sampleCall.options.outputDir sampleCall.tree (sampleWriter exitCode).files =
    (tree, .ok ()) from hwritten] at hprogram
  rw [GeneratorCall.left, hprogram, hleft]

theorem answer_sampleCall (exitCode : Int) :
    sampleCall.answer (sampleWriter exitCode).program = .ok ⟨exitCode, [], [], false⟩ := by
  obtain ⟨tree, hwritten, -⟩ := writeAll_sample
  exact Generator.Writer.program_eq_ok_iff.mpr ⟨⟨tree, hwritten⟩, rfl⟩

theorem calls_sample (exitCode : Int) (rules : List Rule) :
    (run sampleConfig (sampleWriter exitCode).program rules sampleTree).calls = [sampleCall] := by
  have hread : sampleTree.readBytes sampleConfig.idl = .ok (Utf8.encode sampleDefinitions) := rfl
  have hclean : Idl.sanitizeBytes Idl.elidedAttributes (Utf8.encode sampleDefinitions) =
      .ok (Utf8.encode sampleSanitized) := rfl
  exact (exits_of_canCall rules (sampleWriter exitCode).program rfl
    (FileTree.ensureDirectory_of_opens opens_sampleTree) hread hclean).1

/-- The definitions are handed over without the attribute. After a good answer the rules patch what was written and what
was there; after a bad one both stay. -/
theorem run_disciplined_sample :
    sampleCall.tree.get? sampleCall.idl.parts = some (.file (Utf8.encode sampleSanitized)) ∧
      (let good := run sampleConfig (sampleWriter 0).program sampleRules sampleTree
       good.calls = [sampleCall] ∧
        good.tree.get? ["out", "gdresource.js"] = some (.file (Utf8.encode patchedDeclaration)) ∧
        good.tree.get? ["out", "gdlayout.js"] = some (.file (Utf8.encode patchedOlderDeclaration)) ∧
        good.tree.get? sampleCall.directory ≠ some .directory) ∧
      (let bad := run sampleConfig (sampleWriter 1).program sampleRules sampleTree
       bad.calls = [sampleCall] ∧
        (∃ problem : PipelineProblem, bad.answer = .error (.problem problem) ∧ problem.code = .generatorErrored) ∧
        bad.tree = sampleLeft ∧ bad.tree.get? ["Bindings.idl"] = some (.file (Utf8.encode sampleDefinitions))) := by
  have hgood := run_disciplined sampleConfig (sampleWriter 0) sampleRules sampleTree
  have hbad := run_disciplined sampleConfig (sampleWriter 1) sampleRules sampleTree
  have hmem : ∀ exitCode, sampleCall ∈ (run sampleConfig (sampleWriter exitCode).program sampleRules sampleTree).calls :=
    fun exitCode => by rw [calls_sample]; exact List.mem_singleton_self _
  have hpatched := hgood.patched _ (hmem 0) _ (answer_sampleCall 0) ⟨rfl, rfl, by decide⟩
  obtain ⟨hleft, hproblem⟩ := hbad.refused _ (hmem 1) _ (answer_sampleCall 1) (by rintro ⟨-, h, -⟩; cases h)
  rw [left_sampleCall] at hpatched hleft
  refine ⟨by decide +kernel, ⟨calls_sample .., ?_, ?_, (hgood.gone _ (hmem 0)).1⟩, calls_sample .., hproblem, hleft, ?_⟩
  · rw [hpatched]
    cbv
  · rw [hpatched]
    cbv
  · rw [hleft]
    rfl

end

end FlowTypes.Pipeline
