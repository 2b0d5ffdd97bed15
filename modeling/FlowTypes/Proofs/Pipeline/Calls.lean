import FlowTypes.Pipeline
import FlowTypes.Proofs.Generator.Writer
import FlowTypes.Proofs.Idl.Copy
import FlowTypes.Proofs.Patching.Writing

/-!
# Calls of the generator

A run calls the generator exactly if the directory of the declarations can be made and the definitions can be
read then (`CanCall`). The generator is handed the tree with this directory and with a copy of the sanitized
definitions (`Handed`). What a call leaves, once the copy is gone, is `GeneratorCall.left`. The copy was in a directory
where nothing was before, so nothing else goes away with it, and a generator that writes files leaves all directories
as they were.

A run that cannot call the generator leaves the tree with as much of the directory as can be made (`prepared`).
-/

namespace FlowTypes

open FileTree (FilesOnly)

namespace GeneratorCall

/-- The directory of the copy. -/
def directory (call : GeneratorCall) : Location := call.idl.parts.dropLast

/-- What the generator leaves, without the copy. -/
def left (call : GeneratorCall) (generator : Generator.Program) : FileTree :=
  (generator call.tree call.idl call.options).1.remove call.directory

/-- What the generator answers. -/
def answer (call : GeneratorCall) (generator : Generator.Program) :
    Except Generator.Breakdown Generator.Result :=
  (generator call.tree call.idl call.options).2

end GeneratorCall

namespace Pipeline

/-- The directory of the declarations can be made, and then the definitions can be read. -/
def CanCall (config : GenerateConfig) (tree : FileTree) : Prop :=
  ∃ out made bytes, config.outputDir = .value out ∧ tree.ensureDirectory out = (made, .ok ()) ∧
    made.readBytes config.idl = .ok bytes

/-- The tree with the directory of the declarations, or with as much of it as can be made. -/
def prepared (config : GenerateConfig) (tree : FileTree) : FileTree :=
  match config.outputDir with
  | .value out => (tree.ensureDirectory out).1
  | .nothing => tree

/-- The generator is told the directory of the declarations, which is made, and where the copy of the sanitized
definitions is; this copy is all that is new besides. -/
inductive Handed (config : GenerateConfig) (tree : FileTree) (call : GeneratorCall) : Prop
  | intro {out : Path} {made : FileTree} {bytes clean : List UInt8} (told : config.outputDir = .value out)
      (make : tree.ensureDirectory out = (made, .ok ())) (read : made.readBytes config.idl = .ok bytes)
      (sanitized : Idl.sanitizeBytes Idl.elidedAttributes bytes = .ok clean)
      (holdsCopy : Idl.HoldsCopy made call.directory config.idl.name clean call.tree)
      (idl : call.idl = ⟨1, call.directory ++ [config.idl.name]⟩) (options : call.options = { outputDir := out })

/-- The call in a tree where the directory is made, with a copy of the sanitized definitions. -/
def callIn (made : FileTree) (out idl : Path) (clean : List UInt8) : GeneratorCall where
  tree := (made.put (Idl.freshDirectory made) .directory).put (Idl.freshDirectory made ++ [idl.name])
    (.file clean)
  idl := ⟨1, Idl.freshDirectory made ++ [idl.name]⟩
  options := { outputDir := out }

section
variable {config : GenerateConfig} {generator : Generator.Program} {rules : List Rule}
  {tree made : FileTree} {out : Path} {bytes clean : List UInt8}

/-! ## The shape of a run -/

/-- **A run that can call the generator calls it once**, and goes on with what the call leaves. -/
theorem run_of_canCall (hout : config.outputDir = .value out)
    (hmake : tree.ensureDirectory out = (made, .ok ())) (hread : made.readBytes config.idl = .ok bytes)
    (hclean : Idl.sanitizeBytes Idl.elidedAttributes bytes = .ok clean) :
    ∃ (printed : Text) (called : Generator.Result → Text),
      run config generator rules tree =
      match (callIn made out config.idl clean).answer generator with
      | .error breakdown =>
        ⟨(callIn made out config.idl clean).left generator, printed, [callIn made out config.idl clean],
          .error (.breakdown breakdown)⟩
      | .ok result =>
        gate config out rules ((callIn made out config.idl clean).left generator) (called result)
          [callIn made out config.idl clean] result := by
  refine ⟨startLine config ++ callLine out,
    fun result => startLine config ++ callLine out ++ resultLine result, ?_⟩
  have hdirectory : (callIn made out config.idl clean).directory = Idl.freshDirectory made :=
    List.dropLast_concat
  unfold run runInto Idl.withCopy
  rw [hout]
  dsimp only
  rw [hmake]
  dsimp only
  rw [hread]
  dsimp only
  rw [hclean]
  dsimp only [callGenerator]
  unfold GeneratorCall.answer GeneratorCall.left
  rw [hdirectory]
  rfl

/-- Preparing only makes directories where nothing was. -/
theorem exists_grown_prepared (config : GenerateConfig) (tree : FileTree) :
    ∃ locs, FileTree.Grown locs tree (prepared config tree) := by
  unfold prepared
  split
  · exact ⟨_, FileTree.ensureDirectory_grown tree _⟩
  · exact ⟨[], .refl _ _⟩

/-- A run that cannot call the generator fails, and has prepared the directory at most. -/
theorem run_of_not_canCall (h : ¬ CanCall config tree) :
    (run config generator rules tree).calls = [] ∧
      (∃ failure, (run config generator rules tree).answer = .error failure) ∧
        (run config generator rules tree).tree = prepared config tree := by
  unfold run prepared
  cases hout : config.outputDir with
  | nothing => exact ⟨rfl, ⟨_, rfl⟩, rfl⟩
  | value out =>
    dsimp only
    unfold runInto
    cases hmake : tree.ensureDirectory out with
    | mk made answer =>
    cases answer with
    | error fault => exact ⟨rfl, ⟨_, rfl⟩, rfl⟩
    | ok _ =>
      dsimp only
      unfold Idl.withCopy
      cases hread : made.readBytes config.idl with
      | error fault => exact ⟨rfl, ⟨_, rfl⟩, rfl⟩
      | ok bytes => exact absurd ⟨out, made, bytes, hout, hmake, hread⟩ h

theorem calls_gate (config : GenerateConfig) (out : Path) (rules : List Rule) (tree : FileTree)
    (printed : Text) (calls : List GeneratorCall) (result : Generator.Result) :
    (gate config out rules tree printed calls result).calls = calls := by
  unfold gate patch
  split
  · rfl
  · split
    · rfl
    · dsimp only
      split <;> rfl

/-- Rules are applied to what passes. -/
theorem tree_gate_of_passes {result : Generator.Result} (h : result.Passes config.maxOutput) (out : Path)
    (rules : List Rule) (tree : FileTree) (printed : Text) (calls : List GeneratorCall) :
    (gate config out rules tree printed calls result).tree = (Catalog.apply rules tree out).1 := by
  unfold gate patch
  rw [Generator.Result.check_eq_ok_iff.mpr h]
  dsimp only
  split
  · rename_i happly
    rw [happly]
  · rename_i happly
    rw [happly]
    dsimp only
    split <;> rfl

/-! ## What a call leaves -/

theorem directory_callIn (made : FileTree) (out idl : Path) (clean : List UInt8) :
    (callIn made out idl clean).directory = Idl.freshDirectory made := List.dropLast_concat

theorem holdsCopy_callIn (made : FileTree) (out idl : Path) (clean : List UInt8) :
    Idl.HoldsCopy made (Idl.freshDirectory made) idl.name clean (callIn made out idl clean).tree :=
  Idl.holdsCopy_put made idl.name clean

/-- The copy is all that is new. -/
theorem get?_callIn (made : FileTree) (out idl : Path) (clean : List UInt8) {l : Location}
    (h : ¬ Idl.freshDirectory made <+: l) : (callIn made out idl clean).tree.get? l = made.get? l :=
  (holdsCopy_callIn made out idl clean).outside l h

/-- **The generator is handed the prepared tree and a copy.** -/
theorem handed_callIn (hout : config.outputDir = .value out) (hmake : tree.ensureDirectory out = (made, .ok ()))
    (hread : made.readBytes config.idl = .ok bytes)
    (hclean : Idl.sanitizeBytes Idl.elidedAttributes bytes = .ok clean) :
    Handed config tree (callIn made out config.idl clean) := by
  have hdirectory := directory_callIn made out config.idl clean
  refine .intro hout hmake hread hclean ?_ ?_ rfl
  · rw [hdirectory]
    exact holdsCopy_callIn made out config.idl clean
  · rw [hdirectory]
    rfl

section
variable (w : Generator.Writer) (idl : Path) (clean : List UInt8)

theorem get?_left (l : Location) :
    ((callIn made out idl clean).left w.program).get? l =
      if Idl.freshDirectory made <+: l then none
      else ((Generator.writeAll out (callIn made out idl clean).tree w.files).1).get? l := by
  unfold GeneratorCall.left
  rw [directory_callIn, FileTree.get?_remove _ _ _ (Idl.freshDirectory_ne_nil made),
    Generator.Writer.program_fst]
  rfl

/-- **What a call leaves differs in files only**, although a directory was made for the copy. -/
theorem filesOnly_left : FilesOnly made ((callIn made out idl clean).left w.program) := by
  have hfiles : FilesOnly (callIn made out idl clean).tree
      (Generator.writeAll out (callIn made out idl clean).tree w.files).1 :=
    (Generator.writeAll_writes rfl).1
  have hprogram := (w.program_writes (callIn made out idl clean).tree
    (callIn made out idl clean).idl (callIn made out idl clean).options).1
  refine ⟨⟨hprogram.workDir, hprogram.tempDir, hprogram.locked⟩, fun l => ?_, fun l hl => ?_, fun l hl hl' => ?_⟩
  · rw [get?_left]
    split
    · rename_i hfresh
      rw [Idl.get?_freshDirectory hfresh]
    · rename_i hfresh
      rw [hfiles.directory, get?_callIn made out idl clean hfresh]
  · rw [get?_left]
    split
    · rename_i hfresh
      exact absurd (Idl.get?_freshDirectory hfresh) hl
    · rename_i hfresh
      rw [← get?_callIn made out idl clean hfresh] at hl
      exact hfiles.present l hl
  · rw [get?_left] at hl'
    split at hl'
    · exact absurd rfl hl'
    · rename_i hfresh
      -- the directory above is not the one of the copy either
      have hparent : ¬ Idl.freshDirectory made <+: l.dropLast := fun h =>
        hfresh (h.trans (List.dropLast_prefix l))
      rw [← get?_callIn made out idl clean hfresh] at hl
      rw [← get?_callIn made out idl clean hparent]
      exact hfiles.appears l hl hl'

/-- **A call leaves every entry that the generator does not write.** -/
theorem get?_left_of_ne {l : Location} {entry : Entry} (h : made.get? l = some entry)
    (hl : ∀ file ∈ w.files, made.place (out.join (Path.ofText file.1)) ≠ l) :
    ((callIn made out idl clean).left w.program).get? l = some entry := by
  have hfresh : ¬ Idl.freshDirectory made <+: l := fun hfresh => by
    rw [Idl.get?_freshDirectory hfresh] at h
    cases h
  have hplace : ∀ path, (callIn made out idl clean).tree.place path = made.place path :=
    FileTree.place_of_workDir rfl
  obtain ⟨-, hget⟩ := w.program_writes (callIn made out idl clean).tree
    (callIn made out idl clean).idl (callIn made out idl clean).options
  rw [Generator.Writer.program_fst] at hget
  rw [get?_left, if_neg hfresh, ← h, ← get?_callIn made out idl clean hfresh]
  exact hget l fun file hfile => by rw [hplace]; exact hl file hfile

end

end

end Pipeline

end FlowTypes
