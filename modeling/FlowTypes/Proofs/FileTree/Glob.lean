import FlowTypes.Proofs.Fallible
import FlowTypes.Proofs.FileTree.Under

/-!
# Globs of one name

A glob without slashes and without two stars side by side selects among the names of one directory
(`Glob.isSingle`). Its files are the files of the directory whose names fit, each one once
(`exists_names_of_files`). It fails only over a name that fits and is there but is too long to be reached
(`exists_name_of_files_error`).
-/

namespace FlowTypes

namespace Glob

/-! ## Reading -/

/-- A glob that selects among the names of one directory. -/
def isSingle (t : Text) : Bool := Wildcard.isPattern t && !hasTwoStars t && !t.contains '/'

theorem isSingle_iff {t : Text} :
    isSingle t = true ↔ Wildcard.isPattern t = true ∧ hasTwoStars t = false ∧ '/' ∉ t := by
  simp [isSingle, and_assoc]

theorem read_of_isSingle {t : Text} (h : isSingle t = true) :
    read t = .ok ⟨[.names (Wildcard.marks t)], false⟩ := by
  obtain ⟨hpattern, hstars, hslash⟩ := isSingle_iff.mp h
  have hnil : t ≠ [] := by rintro rfl; exact Bool.noConfusion hpattern
  have hdot : t ≠ ['.'] := by rintro rfl; exact absurd hpattern (by decide)
  have htwo : t ≠ ['*', '*'] := by rintro rfl; exact absurd hstars (by decide)
  have hhead : t.head? ≠ some '/' := fun e => hslash (List.mem_of_head? e)
  have hlast : t.getLast? ≠ some '/' := fun e => hslash (List.mem_of_getLast? e)
  have hcomponent : component t = .ok (.names (Wildcard.marks t)) := by
    simp [component, htwo, hstars, hpattern]
  simp [read, hhead, hlast, Path.components_of_not_mem hslash hnil hdot, hcomponent, bind, Except.bind,
    pure, Except.pure]

/-! ## Selecting -/

theorem selectFrom_names {tree : FileTree} {out : Path} {loc : Location} (marks : List Wildcard.Mark)
    (h : tree.locate out = .ok loc) :
    selectFrom tree false [.names marks] out =
      .ok (((tree.namesIn loc).filter (Wildcard.fits marks)).map out.child) := by
  have hfilter : ((namesAt tree out).filter fun x : Text × Option Entry =>
      Wildcard.fits marks x.1 && (([] : List Component).isEmpty && !false || x.2 = some .directory)) =
        ((tree.namesIn loc).filter (Wildcard.fits marks)).map fun name =>
          (name, tree.get? (loc ++ [name])) := by
    rw [namesAt, h]
    simp [List.filter_map, Function.comp_def]
  simp only [selectFrom]
  rw [hfilter]
  have hmap : ∀ names : List Text, (names.map fun name => (name, tree.get? (loc ++ [name]))).mapM
      (fun x : Text × Option Entry => (.ok [out.child x.1] : Except FileFault (List Path))) =
        .ok (names.map fun name => [out.child name]) := by
    intro names
    rw [mapM_ok, List.map_map]
    rfl
  rw [hmap]
  have hflat : ∀ names : List Text, (names.map fun name => [out.child name]).flatten =
      names.map out.child := by
    intro names
    induction names with
    | nil => rfl
    | cons name names ih => rw [List.map_cons, List.flatten_cons, ih]; rfl
  simp only [bind, Except.bind, pure, Except.pure, hflat]

/-- A filter fails over one of its members, or it keeps those for which the answer is yes. -/
theorem filterAuxM_except {α : Type} {ε : Type} (p : α → Except ε Bool) :
    ∀ as acc : List α, (∃ a ∈ as, ∃ e, p a = .error e ∧ as.filterAuxM p acc = .error e) ∨
      (∀ a ∈ as, ∃ b, p a = .ok b) ∧
        as.filterAuxM p acc = .ok ((as.filter fun a => (p a).toOption.getD false).reverse ++ acc)
  | [], acc => .inr ⟨nofun, rfl⟩
  | a :: as, acc => by
    have hstep : (a :: as).filterAuxM p acc =
        p a >>= fun b => as.filterAuxM p (cond b (a :: acc) acc) := rfl
    rw [hstep]
    cases ha : p a with
    | error e => exact .inl ⟨a, List.mem_cons_self, e, ha, rfl⟩
    | ok b =>
      rcases filterAuxM_except p as (cond b (a :: acc) acc) with ⟨a', ha', e, he, h⟩ | ⟨hall, h⟩
      · exact .inl ⟨a', List.mem_cons_of_mem _ ha', e, he, h⟩
      · refine .inr ⟨fun a' ha' => ?_, ?_⟩
        · rcases List.mem_cons.mp ha' with rfl | ha'
          · exact ⟨b, ha⟩
          · exact hall a' ha'
        · refine h.trans ?_
          cases b <;> simp [ha, Except.toOption]

theorem filterM_except {α : Type} {ε : Type} (p : α → Except ε Bool) (as : List α) :
    (∃ a ∈ as, ∃ e, p a = .error e ∧ as.filterM p = .error e) ∨
      (∀ a ∈ as, ∃ b, p a = .ok b) ∧
        as.filterM p = .ok (as.filter fun a => (p a).toOption.getD false) := by
  unfold List.filterM
  rcases filterAuxM_except p as [] with ⟨a, ha, e, he, h⟩ | ⟨hall, h⟩
  · exact .inl ⟨a, ha, e, he, by rw [h]; rfl⟩
  · exact .inr ⟨hall, by rw [h]; simp [bind, Except.bind, pure, Except.pure]⟩

/-! ## Files -/

section
variable {tree : FileTree} {out : Path} {loc : Location} {t : Text}

/-- The name is in the directory and fits; a name with a null byte is never seen. -/
def Fitting (tree : FileTree) (out : Path) (loc : Location) (t name : Text) : Prop :=
  Wildcard.fits (Wildcard.marks t) name = true ∧ (tree.get? (loc ++ [name])).isSome = true ∧
    (out.child name).text.contains '\x00' = false

theorem files_eq (h : tree.Opens out loc) (ht : isSingle t = true) :
    files tree out t = (((((tree.namesIn loc).filter (Wildcard.fits (Wildcard.marks t))).map out.child).filterM
      fun path => tree.isFile path) >>= fun kept => pure (kept.mergeSort Path.le)) := by
  unfold files select
  rw [read_of_isSingle ht, FileTree.isDirectory_of_opens h]
  simp only [bind, Except.bind, if_true, selectFrom_names (Wildcard.marks t) h.locate]

theorem exists_perm_map {paths : List Path} {names : List Text}
    (h : paths.Perm (names.map out.child)) :
    ∃ names' : List Text, paths = names'.map out.child ∧ names'.Perm names := by
  refine ⟨paths.map Path.name, ?_, ?_⟩
  · rw [List.map_map]
    refine (List.map_id paths).symm.trans (List.map_congr_left fun path hpath => ?_)
    obtain ⟨name, -, rfl⟩ := List.mem_map.mp (h.mem_iff.mp hpath)
    simp [Path.name_child]
  · have hperm := h.map Path.name
    rwa [List.map_map, show Path.name ∘ out.child = id from funext out.name_child, List.map_id] at hperm

theorem ne_dots_of_fits (hdots : Wildcard.fits (Wildcard.marks t) ['.', '.'] = false) {name : Text}
    (h : Wildcard.fits (Wildcard.marks t) name = true) : name ≠ ['.', '.'] := by
  rintro rfl
  exact Bool.noConfusion (hdots.symm.trans h)

theorem mem_fitting_names {name : Text} :
    name ∈ (tree.namesIn loc).filter (Wildcard.fits (Wildcard.marks t)) ↔
      Wildcard.fits (Wildcard.marks t) name = true ∧ (tree.get? (loc ++ [name])).isSome = true := by
  rw [List.mem_filter, FileTree.mem_namesIn, and_comm]

/-- A name is a file if it is seen and its entry is a file. -/
theorem isFile_child_eq_true (h : tree.Opens out loc) {name : Text} (hname : name ≠ ['.', '.'])
    {b : Bool} (hb : tree.isFile (out.child name) = .ok b) :
    b = true ↔ (out.child name).text.contains '\x00' = false ∧
      ∃ bytes, tree.get? (loc ++ [name]) = some (.file bytes) := by
  rw [FileTree.isFile_child h hname] at hb
  cases htext : (out.child name).text.contains '\x00' with
  | true => rw [htext] at hb; cases hb; simp
  | false =>
    rw [htext, if_neg (by simp)] at hb
    cases hreach : out.reaches name with
    | false => rw [hreach] at hb; cases hb
    | true =>
      rw [hreach, if_pos rfl] at hb
      cases hget : tree.get? (loc ++ [name]) with
      | none => rw [hget] at hb; cases hb; simp
      | some entry => cases entry <;> rw [hget] at hb <;> cases hb <;> simp

/-- **A single glob selects the files of the directory whose names fit**, each one once. -/
theorem exists_names_of_files (h : tree.Opens out loc) (ht : isSingle t = true)
    (hdots : ∀ name, Wildcard.fits (Wildcard.marks t) name = true →
      (tree.get? (loc ++ [name])).isSome = true → name ≠ ['.', '.']) {paths : List Path}
    (hfiles : files tree out t = .ok paths) :
    ∃ names : List Text, paths = names.map out.child ∧ names.Nodup ∧
      (∀ name, name ∈ names ↔ Fitting tree out loc t name ∧
        ∃ bytes, tree.get? (loc ++ [name]) = some (.file bytes)) ∧
      ∀ name, Fitting tree out loc t name → out.reaches name = true := by
  rw [files_eq h ht] at hfiles
  generalize hnames : (tree.namesIn loc).filter (Wildcard.fits (Wildcard.marks t)) = fitting at hfiles
  have hmem : ∀ {name}, name ∈ fitting ↔ Wildcard.fits (Wildcard.marks t) name = true ∧
      (tree.get? (loc ++ [name])).isSome = true := by rw [← hnames]; exact mem_fitting_names
  rcases filterM_except (fun path => tree.isFile path) (fitting.map out.child) with
    ⟨-, -, e, -, he⟩ | ⟨hall, hkept⟩
  · rw [he] at hfiles
    cases hfiles
  · rw [hkept, List.filter_map] at hfiles
    cases hfiles
    obtain ⟨names, hpaths, hperm⟩ := exists_perm_map (List.mergeSort_perm _ Path.le)
    refine ⟨names, hpaths, hperm.nodup_iff.mpr ?_, fun name => ?_, fun name hf => ?_⟩
    · rw [← hnames]
      exact ((FileTree.nodup_namesIn tree loc).sublist List.filter_sublist).sublist List.filter_sublist
    · rw [hperm.mem_iff, List.mem_filter, hmem]
      constructor
      · rintro ⟨⟨hfits, hsome⟩, hfile⟩
        obtain ⟨b, hb⟩ := hall _ (List.mem_map_of_mem (hmem.mpr ⟨hfits, hsome⟩))
        simp only [Function.comp_apply, hb, Except.toOption, Option.getD_some] at hfile
        obtain ⟨htext, hbytes⟩ := (isFile_child_eq_true h (hdots name hfits hsome) hb).mp hfile
        exact ⟨⟨hfits, hsome, htext⟩, hbytes⟩
      · rintro ⟨⟨hfits, hsome, htext⟩, hbytes⟩
        obtain ⟨b, hb⟩ := hall _ (List.mem_map_of_mem (hmem.mpr ⟨hfits, hsome⟩))
        refine ⟨⟨hfits, hsome⟩, ?_⟩
        simp only [Function.comp_apply, hb, Except.toOption, Option.getD_some]
        exact (isFile_child_eq_true h (hdots name hfits hsome) hb).mpr ⟨htext, hbytes⟩
    · obtain ⟨b, hb⟩ := hall _ (List.mem_map_of_mem (hmem.mpr ⟨hf.1, hf.2.1⟩))
      rw [FileTree.isFile_child h (hdots name hf.1 hf.2.1), hf.2.2, if_neg (by simp)] at hb
      cases hreach : out.reaches name with
      | true => rfl
      | false => rw [hreach] at hb; cases hb

/-- A single glob fails only over a name that cannot be reached. -/
theorem exists_name_of_files_error (h : tree.Opens out loc) (ht : isSingle t = true)
    (hdots : Wildcard.fits (Wildcard.marks t) ['.', '.'] = false) {fault : FileFault}
    (hfiles : files tree out t = .error fault) :
    fault.ofEntry = false ∧ ∃ name, Fitting tree out loc t name ∧ out.reaches name = false := by
  rw [files_eq h ht] at hfiles
  rcases filterM_except (fun path => tree.isFile path)
    (((tree.namesIn loc).filter (Wildcard.fits (Wildcard.marks t))).map out.child) with
    ⟨path, hpath, e, he, herror⟩ | ⟨-, hkept⟩
  · rw [herror] at hfiles
    cases hfiles
    obtain ⟨name, hname, rfl⟩ := List.mem_map.mp hpath
    obtain ⟨hfits, hsome⟩ := mem_fitting_names.mp hname
    rw [FileTree.isFile_child h (ne_dots_of_fits hdots hfits)] at he
    cases htext : (out.child name).text.contains '\x00' with
    | true => rw [htext] at he; cases he
    | false =>
      rw [htext, if_neg (by simp)] at he
      cases hreach : out.reaches name with
      | true => rw [hreach] at he; cases he
      | false =>
        rw [hreach] at he
        cases he
        exact ⟨rfl, name, ⟨hfits, hsome, htext⟩, hreach⟩
  · rw [hkept] at hfiles
    cases hfiles

end

end Glob

end FlowTypes
