import FlowTypes.Proofs.Catalog.Standard

/-!
# Applying the catalog again

Patching is repeated whenever the declarations are generated anew, and often over files that were patched before.
So the catalog of the bindings has to find nothing to do in what it made (`apply_standard_again`).
-/

namespace FlowTypes.Catalog

/-- A catalog that completes has applied its rules in order. -/
theorem apply_eq_ok_iff {rules : List Rule} {tree tree' : FileTree} {out : Path} {report : Report} :
    apply rules tree out = (tree', .ok report) ↔
      report.outputDir = out ∧ applyEach tree out (inOrder rules) = (tree', .ok report.outcomes) := by
  unfold apply
  cases happly : applyEach tree out (inOrder rules) with
  | mk left answer =>
  cases answer with
  | error fault => simp
  | ok outcomes =>
    simp only [Prod.mk.injEq, Except.ok.injEq]
    constructor
    · rintro ⟨rfl, rfl⟩
      exact ⟨rfl, rfl, rfl⟩
    · rintro ⟨rfl, rfl, rfl⟩
      exact ⟨rfl, rfl⟩

theorem apply_eq_error_iff {rules : List Rule} {tree tree' : FileTree} {out : Path} {fault : FileFault} :
    apply rules tree out = (tree', .error fault) ↔
      applyEach tree out (inOrder rules) = (tree', .error fault) := by
  unfold apply
  cases happly : applyEach tree out (inOrder rules) with
  | mk left answer => cases answer <;> simp

/-! ## A directory of one text -/

/-- The path of a directory in the working directory. -/
def sampleOut : Path := ⟨0, ["out"]⟩

/-- A tree with this directory, and one entry in it. -/
def sampleTree (name : Text) (entry : Entry) : FileTree :=
  ⟨[(["out"], .directory), (["out", name], entry)], [], [], []⟩

theorem opens_sampleTree (name : Text) (entry : Entry) :
    (sampleTree name entry).Opens sampleOut ["out"] := ⟨rfl, rfl, rfl⟩

theorem under_sampleTree (name name' : Text) (entry : Entry) :
    (sampleTree name entry).under ["out"] name' = if name' = name then some entry else none := by
  by_cases h : name' = name
  · subst h
    simp [sampleTree, FileTree.under, FileTree.get?, List.lookup_cons]
  · have hne : (name' == name) = false := by simpa using h
    simp [sampleTree, FileTree.under, FileTree.get?, List.lookup_cons, h, hne]

/-- The catalog succeeds over a tree of one text. -/
theorem exists_apply_sampleTree (name t : Text) (hreach : sampleOut.reaches name = true) (ht : '\r' ∉ t) :
    ∃ tree' report, apply standard (sampleTree name (.file (Utf8.encode t))) sampleOut =
      (tree', .ok report) := by
  have hopens := opens_sampleTree name (.file (Utf8.encode t))
  refine exists_apply_standard (by decide) (FileTree.ensureDirectory_of_opens hopens) hopens (fun _ => rfl) ?_
  intro name' entry hentry
  rw [under_sampleTree] at hentry
  split at hentry
  · rename_i hname
    cases hentry
    exact ⟨hname ▸ hreach, Utf8.encode t, t, rfl, FileTree.textOf_encode ht⟩
  · cases hentry

/-! ## A directory of texts -/

/-- A tree with this directory, and files with these texts in it. -/
def sampleFiles (files : List (Text × Text)) : FileTree :=
  ⟨(["out"], .directory) :: files.map fun f => (["out", f.1], .file (Utf8.encode f.2)), [], [], []⟩

theorem opens_sampleFiles (files : List (Text × Text)) : (sampleFiles files).Opens sampleOut ["out"] :=
  ⟨rfl, rfl, rfl⟩

theorem under_sampleFiles (files : List (Text × Text)) (name : Text) :
    (sampleFiles files).under ["out"] name = (files.lookup name).map fun t => .file (Utf8.encode t) := by
  show ((([("out" : Text)] : Location), Entry.directory) :: files.map fun f =>
    ([("out" : Text), f.1], Entry.file (Utf8.encode f.2))).lookup [("out" : Text), name] = _
  rw [List.lookup_cons]
  induction files with
  | nil => rfl
  | cons f rest ih =>
    obtain ⟨name', t⟩ := f
    by_cases hname : name = name'
    · subst hname
      simp
    · have hne : (name == name') = false := by simpa using hname
      simpa [List.lookup_cons, hname, hne] using ih

theorem mem_of_lookup {files : List (Text × Text)} {name t : Text} (h : files.lookup name = some t) :
    (name, t) ∈ files := by
  obtain ⟨front, rest, rfl, -⟩ := List.lookup_eq_some_iff.mp h
  simp

/-- The catalog succeeds over a directory of texts. -/
theorem exists_apply_sampleFiles (files : List (Text × Text)) (hreach : ∀ f ∈ files, sampleOut.reaches f.1 = true)
    (htexts : ∀ f ∈ files, '\r' ∉ f.2) :
    ∃ tree' report, apply standard (sampleFiles files) sampleOut = (tree', .ok report) := by
  have hopens := opens_sampleFiles files
  refine exists_apply_standard (by decide) (FileTree.ensureDirectory_of_opens hopens) hopens (fun _ => rfl) ?_
  intro name entry hentry
  rw [under_sampleFiles] at hentry
  obtain ⟨t, hlookup, rfl⟩ := Option.map_eq_some_iff.mp hentry
  have hm := mem_of_lookup hlookup
  exact ⟨hreach _ hm, Utf8.encode t, t, rfl, FileTree.textOf_encode (htexts _ hm)⟩

/-- A declaration as it is generated. -/
def sampleText : Text := "declare class gdResource \x7b\n  setKind(kind: string): void;\n\x7d;\n"

/-! ## The second run -/

/-- **The catalog applied to what it made completes, changes no file, and applies no rule.** -/
theorem apply_standard_again {tree tree₁ : FileTree} {out : Path} {report : Report}
    (h : apply standard tree out = (tree₁, .ok report)) :
    ∃ tree₂ again, apply standard tree₁ out = (tree₂, .ok again) ∧
      (∀ loc, tree₂.get? loc = tree₁.get? loc) ∧ ∀ o ∈ again.outcomes, o.status ≠ .applied := by
  obtain ⟨-, happly⟩ := apply_eq_ok_iff.mp h
  obtain ⟨tree₂, outcomes, hagain, hsame, happlied⟩ :=
    orderly_standard.applyEach_applyEach startsWithCreate_standard happly
  exact ⟨tree₂, ⟨out, outcomes⟩, apply_eq_ok_iff.mpr ⟨rfl, hagain⟩, hsame, happlied⟩

theorem apply_standard_again_gdResource :
    ∃ tree₁ report, apply standard (sampleTree "gdresource.js" (.file (Utf8.encode sampleText))) sampleOut =
        (tree₁, .ok report) ∧
      ∃ tree₂ again, apply standard tree₁ sampleOut = (tree₂, .ok again) ∧
        (∀ loc, tree₂.get? loc = tree₁.get? loc) ∧ ∀ o ∈ again.outcomes, o.status ≠ .applied := by
  obtain ⟨tree₁, report, h⟩ := exists_apply_sampleTree "gdresource.js" sampleText (by decide) (by decide)
  exact ⟨tree₁, report, h, apply_standard_again h⟩

end FlowTypes.Catalog
