import FlowTypes.Proofs.FileTree.Glob

/-!
# Listings in order

The names in a directory are listed in ascending order, each one once, so a listing is determined by what has an entry
(`FileTree.namesIn_congr`). The files of a glob come in the same order (`Glob.files_eq_filesIn`), and they too depend on
nothing but the entries of the directory (`Glob.filesIn_congr`).
-/

namespace FlowTypes

/-! ## The order of texts -/

namespace Text

theorem le_trans : ∀ {s t u : Text}, le s t = true → le t u = true → le s u = true
  | [], _, _, _, _ => rfl
  | c :: s, d :: t, e :: u, h, h' => by
    simp only [le, Bool.or_eq_true, Bool.and_eq_true, decide_eq_true_eq, beq_iff_eq] at h h' ⊢
    rcases h with h | ⟨rfl, h⟩
    · rcases h' with h' | ⟨rfl, -⟩
      · exact .inl (Nat.lt_trans h h')
      · exact .inl h
    · rcases h' with h' | ⟨rfl, h'⟩
      · exact .inl h'
      · exact .inr ⟨rfl, le_trans h h'⟩

theorem le_total : ∀ s t : Text, le s t = true ∨ le t s = true
  | [], _ => .inl rfl
  | _ :: _, [] => .inr rfl
  | c :: s, d :: t => by
    simp only [le, Bool.or_eq_true, Bool.and_eq_true, decide_eq_true_eq, beq_iff_eq]
    rcases Nat.lt_trichotomy c.toNat d.toNat with h | h | h
    · exact .inl (.inl h)
    · have hc : c = d := Char.ext (UInt32.toNat_inj.mp h)
      subst hc
      rcases le_total s t with h | h
      · exact .inl (.inr ⟨rfl, h⟩)
      · exact .inr (.inr ⟨rfl, h⟩)
    · exact .inr (.inl h)

theorem le_antisymm : ∀ {s t : Text}, le s t = true → le t s = true → s = t
  | [], [], _, _ => rfl
  | c :: s, d :: t, h, h' => by
    simp only [le, Bool.or_eq_true, Bool.and_eq_true, decide_eq_true_eq, beq_iff_eq] at h h'
    rcases h with h | ⟨rfl, h⟩
    · rcases h' with h' | ⟨rfl, -⟩
      · omega
      · omega
    · rcases h' with h' | ⟨-, h'⟩
      · omega
      · rw [le_antisymm h h']

theorem leParts_trans :
    ∀ {ss ts us : List Text}, leParts ss ts = true → leParts ts us = true → leParts ss us = true
  | [], _, _, _, _ => rfl
  | s :: ss, t :: ts, u :: us, h, h' => by
    simp only [leParts] at h h' ⊢
    by_cases hst : s = t
    · subst hst
      by_cases hsu : s = u
      · subst hsu
        simp only [if_true] at h h' ⊢
        exact leParts_trans h h'
      · simpa only [if_neg hsu] using h'
    · rw [if_neg hst] at h
      by_cases htu : t = u
      · subst htu
        simpa only [if_neg hst] using h
      · rw [if_neg htu] at h'
        have hsu : s ≠ u := fun e => hst (le_antisymm h (e ▸ h'))
        rw [if_neg hsu]
        exact le_trans h h'

theorem leParts_total : ∀ ss ts : List Text, leParts ss ts = true ∨ leParts ts ss = true
  | [], _ => .inl rfl
  | _ :: _, [] => .inr rfl
  | s :: ss, t :: ts => by
    simp only [leParts]
    by_cases hst : s = t
    · subst hst
      simpa only [if_true] using leParts_total ss ts
    · rw [if_neg hst, if_neg (Ne.symm hst)]
      exact le_total s t

theorem leParts_antisymm : ∀ {ss ts : List Text}, leParts ss ts = true → leParts ts ss = true → ss = ts
  | [], [], _, _ => rfl
  | s :: ss, t :: ts, h, h' => by
    simp only [leParts] at h h'
    by_cases hst : s = t
    · subst hst
      rw [if_pos rfl] at h h'
      rw [leParts_antisymm h h']
    · rw [if_neg hst] at h
      rw [if_neg (Ne.symm hst)] at h'
      exact absurd (le_antisymm h h') hst

theorem pairwise_sortedDistinct (ts : List Text) :
    (sortedDistinct ts).Pairwise fun s t => le s t = true := by
  have htrans : ∀ s t u, le s t = true → le t u = true → le s u = true := fun _ _ _ => le_trans
  have htotal : ∀ s t, (le s t || le t s) = true := fun s t => by simpa using le_total s t
  exact List.pairwise_mergeSort htrans htotal _

theorem mem_sortedDistinct {t : Text} {ts : List Text} : t ∈ sortedDistinct ts ↔ t ∈ ts := by
  rw [sortedDistinct, List.mem_mergeSort, List.mem_eraseDups]

/-- What is less or equal and something else is less. -/
theorem lt_of_le : ∀ {s t : Text}, le s t = true → s ≠ t → s < t
  | [], [], _, hne => absurd rfl hne
  | [], d :: t, _, _ => List.nil_lt_cons d t
  | c :: s, d :: t, h, hne => by
    simp only [le, Bool.or_eq_true, decide_eq_true_eq, Bool.and_eq_true, beq_iff_eq] at h
    rw [List.cons_lt_cons_iff]
    rcases h with h | ⟨rfl, h⟩
    · exact .inl h
    · exact .inr ⟨rfl, lt_of_le h fun e => hne (e ▸ rfl)⟩

/-- Texts that are put in order without repetitions strictly ascend. -/
theorem pairwise_lt_sortedDistinct (ts : List Text) : (sortedDistinct ts).Pairwise (· < ·) := by
  have hnodup : (sortedDistinct ts).Nodup :=
    (List.mergeSort_perm _ _).nodup_iff.mpr (FileTree.nodup_eraseDups ts)
  exact ((pairwise_sortedDistinct ts).and hnodup).imp fun ⟨hle, hne⟩ => lt_of_le hle hne

end Text

namespace FileTree

/-! ## The names in a directory -/

theorem pairwise_namesIn (tree : FileTree) (loc : Location) :
    (tree.namesIn loc).Pairwise fun s t => Text.le s t = true := Text.pairwise_sortedDistinct _

/-- **A listing is determined by what has an entry.** -/
theorem namesIn_congr {tree tree' : FileTree} {loc : Location}
    (h : ∀ name, tree'.under loc name = tree.under loc name) : tree'.namesIn loc = tree.namesIn loc := by
  have hmem : ∀ name, name ∈ tree'.namesIn loc ↔ name ∈ tree.namesIn loc := by
    intro name
    rw [mem_namesIn, mem_namesIn, ← under, ← under, h]
  have hperm : (tree'.namesIn loc).Perm (tree.namesIn loc) :=
    (List.perm_ext_iff_of_nodup (nodup_namesIn tree' loc) (nodup_namesIn tree loc)).mpr hmem
  exact hperm.eq_of_pairwise (fun _ _ _ _ => Text.le_antisymm) (pairwise_namesIn tree' loc)
    (pairwise_namesIn tree loc)

end FileTree

/-! ## The files of a glob -/

theorem Path.leParts_append (a b : Text) :
    ∀ key : List Text, Text.leParts (key ++ [a]) (key ++ [b]) = Text.le a b
  | [] => by
    show (if a = b then true else Text.le a b) = Text.le a b
    split
    · rename_i h
      rw [h, Text.le_refl]
    · rfl
  | first :: rest => by
    show (if first = first then Text.leParts (rest ++ [a]) (rest ++ [b]) else _) = _
    rw [if_pos rfl]
    exact leParts_append a b rest

theorem Path.le_trans {p q r : Path} (h : Path.le p q = true) (h' : Path.le q r = true) : Path.le p r = true :=
  Text.leParts_trans h h'

theorem Path.le_total (p q : Path) : Path.le p q = true ∨ Path.le q p = true := Text.leParts_total _ _

/-- Paths from one start are told apart by their order. -/
theorem Path.le_antisymm {p q : Path} (hslashes : p.slashes = q.slashes) (h : Path.le p q = true)
    (h' : Path.le q p = true) : p = q := by
  obtain ⟨slashes, parts⟩ := p
  obtain ⟨slashes', parts'⟩ := q
  obtain rfl : slashes = slashes' := hslashes
  have hkey := Text.leParts_antisymm h h'
  simp only [sortKey] at hkey
  split at hkey
  · rw [hkey]
  · rw [(List.cons.inj hkey).2]

/-- The files of a directory are ordered by their names. -/
theorem Path.le_child (out : Path) (a b : Text) : Path.le (out.child a) (out.child b) = Text.le a b := by
  have hkey : ∀ name, (out.child name).sortKey = out.sortKey ++ [name] := by
    intro name
    unfold sortKey
    rw [show (out.child name).slashes = out.slashes from rfl, parts_child]
    split <;> rfl
  rw [Path.le, hkey, hkey]
  exact leParts_append a b _

namespace Glob

/-- The names of the files that a glob selects in the directory at a path, in ascending order. -/
def filesIn (tree : FileTree) (out : Path) (loc : Location) (t : Text) : List Text :=
  (tree.namesIn loc).filter fun name =>
    Wildcard.fits (Wildcard.marks t) name && !(out.child name).text.contains '\x00' &&
      match tree.under loc name with
      | some (.file _) => true
      | _ => false

section
variable {tree tree' : FileTree} {out : Path} {loc : Location} {t : Text}

theorem mem_filesIn {name : Text} : name ∈ filesIn tree out loc t ↔
    Fitting tree out loc t name ∧ ∃ bytes, tree.under loc name = some (.file bytes) := by
  unfold filesIn
  rw [List.mem_filter, FileTree.mem_namesIn, ← FileTree.under]
  unfold Fitting
  rw [← FileTree.under]
  cases hunder : tree.under loc name with
  | none => simp
  | some entry => cases entry <;> simp

theorem nodup_filesIn (tree : FileTree) (out : Path) (loc : Location) (t : Text) : (filesIn tree out loc t).Nodup :=
  (FileTree.nodup_namesIn tree loc).sublist List.filter_sublist

/-- The files of a glob are determined by the entries of the directory. -/
theorem filesIn_congr (h : ∀ name, tree'.under loc name = tree.under loc name) :
    filesIn tree' out loc t = filesIn tree out loc t := by
  unfold filesIn
  rw [FileTree.namesIn_congr h]
  exact List.filter_congr fun name _ => by rw [h]

/-- What a glob selects, less what is no file, in order. -/
theorem files_eq_ok {paths : List Path} (hfiles : files tree out t = .ok paths) :
    ∃ selected, select tree out t = .ok selected ∧ (∀ path ∈ selected, ∃ b, tree.isFile path = .ok b) ∧
      paths = (selected.filter fun path => (tree.isFile path).toOption.getD false).mergeSort Path.le := by
  unfold files at hfiles
  cases hselect : select tree out t with
  | error fault => rw [hselect] at hfiles; cases hfiles
  | ok selected =>
    rw [hselect] at hfiles
    simp only [bind, Except.bind] at hfiles
    rcases filterM_except (fun path => tree.isFile path) selected with ⟨-, -, e, -, he⟩ | ⟨hall, hkept⟩
    · rw [he] at hfiles
      cases hfiles
    · rw [hkept] at hfiles
      exact ⟨selected, rfl, hall, (Except.ok.inj hfiles).symm⟩

/-- The files of a glob come in order. -/
theorem pairwise_files {paths : List Path} (hfiles : files tree out t = .ok paths) :
    paths.Pairwise fun p q => Path.le p q = true := by
  obtain ⟨selected, -, -, rfl⟩ := files_eq_ok hfiles
  have htrans : ∀ p q r, Path.le p q = true → Path.le q r = true → Path.le p r = true := fun _ _ _ => Path.le_trans
  have htotal : ∀ p q, (Path.le p q || Path.le q p) = true := fun p q => by simpa using Path.le_total p q
  exact List.pairwise_mergeSort htrans htotal _

/-- **The files of a single glob, in order.** -/
theorem files_eq_filesIn (h : tree.Opens out loc) (ht : isSingle t = true)
    (hdots : ∀ name, Wildcard.fits (Wildcard.marks t) name = true →
      (tree.get? (loc ++ [name])).isSome = true → name ≠ ['.', '.']) {paths : List Path}
    (hfiles : files tree out t = .ok paths) : paths = (filesIn tree out loc t).map out.child := by
  have hsorted := pairwise_files hfiles
  obtain ⟨names, rfl, hnodup, hmem, -⟩ := exists_names_of_files h ht hdots hfiles
  have hperm : names.Perm (filesIn tree out loc t) :=
    (List.perm_ext_iff_of_nodup hnodup (nodup_filesIn tree out loc t)).mpr fun name => by
      rw [hmem, mem_filesIn]
      rfl
  have hnames : names.Pairwise fun a b => Text.le a b = true :=
    (List.pairwise_map.mp hsorted).imp fun {a b} hab => by rwa [Path.le_child] at hab
  have hfilesIn : (filesIn tree out loc t).Pairwise fun a b => Text.le a b = true :=
    (FileTree.pairwise_namesIn tree loc).filter _
  rw [hperm.eq_of_pairwise (fun _ _ _ _ => Text.le_antisymm) hnames hfilesIn]

end

end Glob

end FlowTypes
