import FlowTypes.Generator
import FlowTypes.Proofs.FileTree.Under
import FlowTypes.Proofs.FileTree.Writing

/-!
# Generators that write files

What a run can rely on is what it sees of a generator: it writes files by names in the directory of the
declarations, one after the other, and then it answers or breaks down. A file that cannot be written is a breakdown
too, and the files before it stay.
-/

namespace FlowTypes.Generator

open FileTree (FilesOnly)

/-- The files that a generator writes, and its answer. -/
structure Writer where
  files : List (Text × List UInt8)
  answer : Except Breakdown Result
  deriving Repr

/-- The files are written one after the other, until one cannot be written. -/
def writeAll (out : Path) (tree : FileTree) : List (Text × List UInt8) → FileTree × Except FileFault Unit
  | [] => (tree, .ok ())
  | (name, bytes) :: rest =>
    match tree.writeBytes (out.join (Path.ofText name)) bytes with
    | .error fault => (tree, .error fault)
    | .ok tree => writeAll out tree rest

/-- The generator that writes these files. -/
def Writer.program (w : Writer) : Program := fun tree _ options =>
  match writeAll options.outputDir tree w.files with
  | (tree, .error fault) => (tree, .error (.file fault))
  | (tree, .ok ()) => (tree, w.answer)

/-- **Only these files are written.** -/
theorem writeAll_writes {out : Path} :
    ∀ {files : List (Text × List UInt8)} {tree tree' : FileTree} {answer : Except FileFault Unit},
      writeAll out tree files = (tree', answer) → FilesOnly tree tree' ∧
        ∀ l, (∀ file ∈ files, tree.place (out.join (Path.ofText file.1)) ≠ l) →
          tree'.get? l = tree.get? l
  | [], tree, tree', answer, h => by
    cases h
    exact ⟨.refl _, fun _ _ => rfl⟩
  | (name, bytes) :: rest, tree, tree', answer, h => by
    rw [writeAll] at h
    split at h
    · cases h
      exact ⟨.refl _, fun _ _ => rfl⟩
    · rename_i written hwrite
      obtain ⟨hfiles, hget⟩ := FileTree.writeBytes_eq_ok hwrite
      obtain ⟨hfiles', hget'⟩ := writeAll_writes h
      refine ⟨hfiles.trans hfiles', fun l hl => ?_⟩
      rw [hget' l fun file hfile => ?_, hget, if_neg fun e => hl (name, bytes) List.mem_cons_self e.symm]
      rw [hfiles.place]
      exact hl file (List.mem_cons_of_mem _ hfile)

theorem Writer.program_fst (w : Writer) (tree : FileTree) (idl : Path) (options : Options) :
    (w.program tree idl options).1 = (writeAll options.outputDir tree w.files).1 := by
  unfold program
  split <;> rename_i h <;> rw [h]

/-- A generator answers if its files can be written. -/
theorem Writer.program_eq_ok_iff {w : Writer} {tree : FileTree} {idl : Path} {options : Options}
    {result : Result} : (w.program tree idl options).2 = .ok result ↔
      (∃ tree', writeAll options.outputDir tree w.files = (tree', .ok ())) ∧ w.answer = .ok result := by
  unfold program
  split
  · rename_i h
    simp [h]
  · rename_i tree' h
    simp [h]

theorem Writer.program_writes (w : Writer) (tree : FileTree) (idl : Path) (options : Options) :
    FilesOnly tree (w.program tree idl options).1 ∧
      ∀ l, (∀ file ∈ w.files, tree.place (options.outputDir.join (Path.ofText file.1)) ≠ l) →
        (w.program tree idl options).1.get? l = tree.get? l := by
  rw [program_fst]
  exact writeAll_writes rfl

/-! ## Files by name -/

/-- The bytes that are written under a name, if it is written; the last ones count. -/
def written (name : Text) : List (Text × List UInt8) → Option (List UInt8)
  | [] => none
  | (name', bytes) :: rest => (written name rest).or (if name' = name then some bytes else none)

theorem exists_of_written {name : Text} {bytes : List UInt8} :
    ∀ {files : List (Text × List UInt8)}, written name files = some bytes → ∃ file ∈ files, file.1 = name
  | (name', bytes') :: rest, h => by
    rw [written] at h
    cases hrest : written name rest with
    | some later =>
      obtain ⟨file, hfile, hname⟩ := exists_of_written hrest
      exact ⟨file, List.mem_cons_of_mem _ hfile, hname⟩
    | none =>
      rw [hrest, Option.none_or] at h
      split at h
      · rename_i hname
        exact ⟨_, List.mem_cons_self, hname⟩
      · cases h

theorem written_ne_none {file : Text × List UInt8} :
    ∀ {files : List (Text × List UInt8)}, file ∈ files → written file.1 files ≠ none
  | (name', bytes') :: rest, h => by
    rw [written, ne_eq, Option.or_eq_none_iff]
    rintro ⟨hrest, hself⟩
    rcases List.mem_cons.mp h with rfl | h
    · rw [if_pos rfl] at hself
      cases hself
    · exact written_ne_none h hrest

section
variable {out : Path} {loc : Location}

/-- **Files that are written by name are in the directory afterwards**, and nothing else has changed. -/
theorem writeAll_ok :
    ∀ {files : List (Text × List UInt8)} {tree tree' : FileTree}, tree.Opens out loc →
      (∀ file ∈ files, file.1.isName = true) → writeAll out tree files = (tree', .ok ()) →
        FileTree.SameOutside loc tree tree' ∧
          (∀ name, tree'.under loc name = ((written name files).map .file).or (tree.under loc name)) ∧
          ∀ file ∈ files, out.reaches file.1 = true ∧ tree.under loc file.1 ≠ some .directory ∧
            tree.writable loc file.1 = true
  | [], tree, tree', _, _, h => by
    cases h
    exact ⟨.refl _ _, fun _ => rfl, nofun⟩
  | (name, bytes) :: rest, tree, tree', hopens, hnames, h => by
    have hname : name.isName = true := hnames (name, bytes) List.mem_cons_self
    have hdots := (Text.isName_iff.mp hname).2.2.2
    rw [writeAll, Path.join_ofText hname] at h
    cases hreach : out.reaches name with
    | false =>
      obtain ⟨fault, hfault, -⟩ := FileTree.writeBytes_of_not_reaches hopens hdots hreach bytes
      rw [hfault] at h
      cases h
    | true =>
      rw [FileTree.writeBytes_child hopens hdots hreach] at h
      by_cases hdir : tree.get? (loc ++ [name]) = some .directory
      · rw [if_pos hdir] at h
        cases h
      · rw [if_neg hdir, FileTree.putAt_child] at h
        by_cases hwritable : tree.writable loc name = true
        case neg =>
          rw [if_neg hwritable] at h
          cases h
        rw [if_pos hwritable] at h
        dsimp only at h
        have hsame := FileTree.sameOutside_put bytes hdir
        obtain ⟨hsame', hunder, hrest⟩ := writeAll_ok (hsame.opens hopens)
          (fun file hfile => hnames file (List.mem_cons_of_mem _ hfile)) h
        refine ⟨hsame.trans hsame', fun name' => ?_, fun file hfile => ?_⟩
        · rw [hunder, FileTree.under_put, written]
          by_cases he : name' = name
          · subst he
            cases written name' rest <;> simp
          · have he' : name ≠ name' := fun e => he e.symm
            cases written name' rest <;> simp [he, he']
        · rcases List.mem_cons.mp hfile with rfl | hfile
          · exact ⟨hreach, hdir, hwritable⟩
          · obtain ⟨hreach', hdir', hwritable'⟩ := hrest file hfile
            exact ⟨hreach', fun e => hdir' ((hsame.directory _).mpr e), hsame.writable loc file.1 ▸ hwritable'⟩

/-- **Files can be written by name where they are within reach**, may be written, and no directory has the name. -/
theorem exists_writeAll_ok :
    ∀ {files : List (Text × List UInt8)} {tree : FileTree}, tree.Opens out loc →
      (∀ file ∈ files, file.1.isName = true) →
        (∀ file ∈ files, out.reaches file.1 = true ∧ tree.under loc file.1 ≠ some .directory ∧
          tree.writable loc file.1 = true) →
          ∃ tree', writeAll out tree files = (tree', .ok ())
  | [], tree, _, _, _ => ⟨tree, rfl⟩
  | (name, bytes) :: rest, tree, hopens, hnames, hfree => by
    have hname : name.isName = true := hnames (name, bytes) List.mem_cons_self
    obtain ⟨hreach, hdir, hwritable⟩ : out.reaches name = true ∧ tree.get? (loc ++ [name]) ≠ some .directory ∧
        tree.writable loc name = true := hfree (name, bytes) List.mem_cons_self
    have hsame := FileTree.sameOutside_put bytes hdir
    obtain ⟨tree', h⟩ := exists_writeAll_ok (hsame.opens hopens)
      (fun file hfile => hnames file (List.mem_cons_of_mem _ hfile)) fun file hfile => by
        obtain ⟨hreach', hdir', hwritable'⟩ := hfree file (List.mem_cons_of_mem _ hfile)
        exact ⟨hreach', fun e => hdir' ((hsame.directory _).mp e), (hsame.writable loc file.1).trans hwritable'⟩
    refine ⟨tree', ?_⟩
    rw [writeAll, Path.join_ofText hname,
      FileTree.writeBytes_child hopens (Text.isName_iff.mp hname).2.2.2 hreach, if_neg hdir,
      FileTree.putAt_child, if_pos hwritable]
    exact h

end

/-! ## Answers -/

/-- The answer lets rules be applied. -/
def Result.Passes (r : Result) (limit : Int) : Prop :=
  r.timedOut = false ∧ r.exitCode = 0 ∧ (r.output.length : Int) ≤ limit

/-- A result passes exactly if the check succeeds. -/
theorem Result.check_eq_ok_iff {r : Result} {limit : Int} : r.check limit = .ok () ↔ r.Passes limit := by
  unfold check Passes
  split
  · rename_i htime
    exact ⟨nofun, fun h => absurd (h.1.symm.trans htime) nofun⟩
  · rename_i htime
    split
    · rename_i hexit
      exact ⟨nofun, fun h => absurd h.2.1 hexit⟩
    · rename_i hexit
      split
      · rename_i hlong
        exact ⟨nofun, fun h => absurd h.2.2 (Int.not_le.mpr hlong)⟩
      · rename_i hlong
        exact ⟨fun _ => ⟨Bool.eq_false_iff.mpr htime, Decidable.not_not.mp hexit, Int.not_lt.mp hlong⟩,
          fun _ => rfl⟩

/-- **The first thing that is wrong gives the code.** -/
theorem Result.check_eq_error {r : Result} {limit : Int} (h : ¬ r.Passes limit) :
    ∃ problem : PipelineProblem, r.check limit = .error problem ∧ problem.code =
      if r.timedOut = true then .generatorTimedOut
      else if r.exitCode ≠ 0 then .generatorErrored else .generatorOutputSuspicious := by
  have hcheck : r.check limit ≠ .ok () := fun e => h (check_eq_ok_iff.mp e)
  unfold check at hcheck ⊢
  split
  · exact ⟨_, rfl, rfl⟩
  · rename_i htime
    rw [if_neg htime] at hcheck
    split
    · exact ⟨_, rfl, rfl⟩
    · rename_i hexit
      rw [if_neg hexit] at hcheck
      split
      · exact ⟨_, rfl, rfl⟩
      · rename_i hlong
        rw [if_neg hlong] at hcheck
        exact absurd rfl hcheck

end FlowTypes.Generator
