import FlowTypes.Proofs.Catalog.Rerun
import FlowTypes.Proofs.FileTree.Closed
import FlowTypes.Proofs.Patching.Presence
import FlowTypes.Proofs.Pipeline.Policy

/-!
# Runs without misses

A strict policy is for directories as they are generated: every file is there that a rule of the catalog is for, and has
what the rule looks for. Then no rule misses, although many of them edit what others look for, and none misses in a
second run either, although the notice has been put before every declaration by then (`apply_standard_without_misses`).

The notice is the reason why declarations have to start lines: it is a line of its own, and before a declaration in the
middle of a line it could tear apart what another rule has put there.
-/

namespace FlowTypes.Catalog

/-- The word before which the notice is put. -/
def declaration : Text := "declare class"

/-! ## The test -/

/-- Every rule spares those for one file, which are for declarations, and every glob finds its anchor together with one
of those. -/
def isConsiderate (word : Text) (rules : List Rule) : Bool :=
  let plain := rules.filter (·.isPlainEdit)
  (plain.all fun r => Wildcard.fits (Wildcard.marks "*.js") r.target) &&
    rules.all fun s =>
      if Wildcard.isPattern s.target then (plain.all fun r => s.editSpares r word) && plain.any fun r => s.findsWith r
      else plain.all fun r => decide (r.target ≠ s.target) || s.editSpares r word

section
variable {word : Text} {rules rules' : List Rule}

theorem isConsiderate_perm (h : rules'.Perm rules) : isConsiderate word rules' = isConsiderate word rules := by
  have hplain := h.filter (·.isPlainEdit)
  unfold isConsiderate
  dsimp only
  rw [h.all_eq, hplain.all_eq]
  congr 1
  refine congrArg rules.all (funext fun s => ?_)
  rw [hplain.all_eq, hplain.any_eq, hplain.all_eq]

theorem considerate_of_isConsiderate (hsingle : ∀ r ∈ rules, r.isSingle = true) (hsound : ∀ r ∈ rules, r.isSound = true)
    (h : isConsiderate word rules = true) : Considerate word rules := by
  simp only [isConsiderate, Bool.and_eq_true, List.all_eq_true, List.mem_filter] at h
  constructor
  case single => exact hsingle
  case sound => exact hsound
  case spares =>
    intro r hr hplain s hs
    have hs' := h.2 s hs
    unfold Rule.spares
    cases hp : Wildcard.isPattern s.target with
    | true =>
      rw [if_pos hp, Bool.and_eq_true, List.all_eq_true] at hs'
      rw [hs'.1 r (List.mem_filter.mpr ⟨hr, hplain⟩), Bool.or_true]
    | false =>
      rw [if_neg (by simp [hp]), List.all_eq_true] at hs'
      have hpair := hs' r (List.mem_filter.mpr ⟨hr, hplain⟩)
      simpa [Rule.concerns, hp] using hpair
  case finds =>
    intro s hs hp
    have hs' := h.2 s hs
    rw [if_pos hp, Bool.and_eq_true, List.any_eq_true] at hs'
    obtain ⟨r, hr, hfinds⟩ := hs'.2
    exact ⟨r, (List.mem_filter.mp hr).1, (List.mem_filter.mp hr).2, hfinds⟩

theorem fits_of_isConsiderate (h : isConsiderate word rules = true) {r : Rule} (hr : r ∈ rules)
    (hplain : r.isPlainEdit = true) : Wildcard.fits (Wildcard.marks "*.js") r.target = true := by
  simp only [isConsiderate, Bool.and_eq_true, List.all_eq_true] at h
  exact h.1 r (List.mem_filter.mpr ⟨hr, hplain⟩)

end

set_option maxRecDepth 8192 in
theorem drafts_considerate : (checkAll (drafts .standard)).toOption.any (isConsiderate declaration) = true := by
  decide +kernel

theorem standard_isConsiderate : isConsiderate declaration (inOrder standard) = true := by
  obtain ⟨rules, hcheck, hstandard, -⟩ := exists_standard_eq
  have hconsiderate := drafts_considerate
  rw [hcheck] at hconsiderate
  rw [isConsiderate_perm (inOrder_perm standard), hstandard, isConsiderate_perm (inOrder_perm rules)]
  exact hconsiderate

theorem considerate_standard : Considerate declaration (inOrder standard) :=
  considerate_of_isConsiderate orderly_standard.single orderly_standard.sound standard_isConsiderate

/-! ## Files as they are generated -/

/-- A directory as it is generated: the files that the rules are for can be read and have what the rules look for, and
the word occurs in declarations only where a line starts. -/
structure Complete (word : Text) (rules : List Rule) (tree : FileTree) (out : Path) : Prop where
  anchors : ∀ r ∈ rules, ∀ placement anchor, r.action = .amend placement anchor →
    Wildcard.isPattern r.target = false →
      ∃ t, tree.readText (r.targetPath out) = .ok t ∧ anchor.occursIn t = true
  lines : ∀ name t, name.isName = true → Wildcard.fits (Wildcard.marks "*.js") name = true →
    tree.readText (out.child name) = .ok t → Text.OnlyStartsLines word t

/-- All rules are ready in a directory as it is generated. -/
theorem Complete.ready {word : Text} {rules : List Rule} {tree made : FileTree} {out : Path} {loc : Location}
    (h : Complete word rules tree out) (hsingle : ∀ r ∈ rules, r.isSingle = true)
    (hfits : ∀ r ∈ rules, r.isPlainEdit = true → Wildcard.fits (Wildcard.marks "*.js") r.target = true)
    (hmake : tree.ensureDirectory out = (made, .ok ())) (hopens : made.Opens out loc) :
    Ready word rules made out loc := by
  intro r hr hplain
  obtain ⟨hp, placement, anchor, haction⟩ := Rule.exists_action_of_isPlainEdit hplain
  obtain ⟨t, hread, hoccurs⟩ := h.anchors r hr placement anchor haction hp
  have hname := Rule.isName_target (hsingle r hr) hp
  rw [Rule.targetPath_eq hname] at hread
  -- there was a file to read, so the directory was there
  obtain ⟨loc', hopens'⟩ := FileTree.opens_of_readText_child hname hread
  rw [FileTree.ensureDirectory_of_opens hopens', Prod.mk.injEq] at hmake
  obtain ⟨rfl, -⟩ := hmake
  obtain ⟨hreach, bytes, hunder, ht⟩ :=
    FileTree.under_of_readText_child hopens (Rule.target_ne_dots hname) hread
  refine ⟨hreach, bytes, t, hunder, ht, h.lines _ t hname (hfits r hr hplain) hread, fun p hplan => .inl ?_⟩
  obtain ⟨anchor', haction', hf, -⟩ := Rule.plan?_eq_some hplan
  rw [haction] at haction'
  cases haction'
  exact hf.occursIn_iff.mp hoccurs

/-! ## A directory with all anchors -/

/-- What the rules for a file look for, line by line. -/
def anchorLines (rules : List Rule) (target : Text) : Text :=
  (rules.filter (·.target = target)).flatMap fun r => ((r.plan?.map (·.needle.text)).getD []) ++ ['\n']

/-- Files that have what the rules of the bindings look for. -/
def sampleDeclarations : List (Text × Text) :=
  let rules := ((checkAll (drafts .standard)).toOption.getD []).filter (·.isPlainEdit)
  rules.map fun r => (r.target, anchorLines rules r.target)

/-- The files can be written as they are, declarations start lines in them, and every rule for one file has its anchor
there. -/
def haveAnchors (rules : List Rule) (files : List (Text × Text)) : Bool :=
  (files.all fun f => sampleOut.reaches f.1 && !f.2.contains '\r' && decide (Text.OnlyStartsLines declaration f.2)) &&
    rules.all fun r =>
      match r.action with
      | .create => true
      | .amend _ anchor => Wildcard.isPattern r.target || (files.lookup r.target).any anchor.occursIn

set_option maxRecDepth 8192 in
theorem sampleDeclarations_haveAnchors :
    (checkAll (drafts .standard)).toOption.any (fun rules => haveAnchors rules sampleDeclarations) = true := by
  decide +kernel

section
variable {rules : List Rule} {files : List (Text × Text)}

/-- What is read of a directory of texts. -/
theorem readText_sampleFiles (hfiles : ∀ f ∈ files, sampleOut.reaches f.1 = true ∧ '\r' ∉ f.2) {name t : Text}
    (hname : name ≠ ['.', '.']) :
    (sampleFiles files).readText (sampleOut.child name) = .ok t ↔ files.lookup name = some t := by
  have hopens := opens_sampleFiles files
  constructor
  · intro h
    obtain ⟨-, bytes, hunder, ht⟩ := FileTree.under_of_readText_child hopens hname h
    rw [under_sampleFiles] at hunder
    obtain ⟨t', hlookup, hbytes⟩ := Option.map_eq_some_iff.mp hunder
    cases hbytes
    rw [FileTree.textOf_encode (hfiles (name, t') (mem_of_lookup hlookup)).2] at ht
    exact hlookup.trans (congrArg some (Except.ok.inj ht))
  · intro h
    obtain ⟨hreach, ht⟩ := hfiles (name, t) (mem_of_lookup h)
    refine FileTree.readText_child hopens hname hreach ?_ (FileTree.textOf_encode ht)
    rw [under_sampleFiles, h]
    rfl

theorem complete_sampleFiles (hsingle : ∀ r ∈ rules, r.isSingle = true) (h : haveAnchors rules files = true) :
    Complete declaration rules (sampleFiles files) sampleOut ∧
      ∀ f ∈ files, sampleOut.reaches f.1 = true ∧ '\r' ∉ f.2 := by
  simp only [haveAnchors, Bool.and_eq_true, List.all_eq_true, Bool.not_eq_true', List.contains_eq_mem,
    decide_eq_true_eq, decide_eq_false_iff_not] at h
  have hfiles : ∀ f ∈ files, sampleOut.reaches f.1 = true ∧ '\r' ∉ f.2 := fun f hf => (h.1 f hf).1
  refine ⟨⟨fun r hr placement anchor haction hp => ?_, fun name t hname _ hread => ?_⟩, hfiles⟩
  · have hr' := h.2 r hr
    simp only [haction, hp, Bool.false_or, Option.any_eq_true] at hr'
    obtain ⟨t, hlookup, hoccurs⟩ := hr'
    have hname := Rule.isName_target (hsingle r hr) hp
    rw [Rule.targetPath_eq hname]
    exact ⟨t, (readText_sampleFiles hfiles (Rule.target_ne_dots hname)).mpr hlookup, hoccurs⟩
  · have hlookup := (readText_sampleFiles hfiles (Text.isName_iff.mp hname).2.2.2).mp hread
    exact (h.1 (name, t) (mem_of_lookup hlookup)).2

end

theorem complete_sampleDeclarations : Complete declaration standard (sampleFiles sampleDeclarations) sampleOut ∧
    ∀ f ∈ sampleDeclarations, sampleOut.reaches f.1 = true ∧ '\r' ∉ f.2 := by
  obtain ⟨rules, hcheck, hstandard, -⟩ := exists_standard_eq
  have hanchors := sampleDeclarations_haveAnchors
  rw [hcheck, Except.toOption, Option.any_some] at hanchors
  have hmem : ∀ r, r ∈ rules ↔ r ∈ inOrder standard := fun r => by
    rw [mem_inOrder, hstandard, mem_inOrder]
  obtain ⟨hcomplete, hfiles⟩ :=
    complete_sampleFiles (fun r hr => orderly_standard.single r ((hmem r).mp hr)) hanchors
  exact ⟨⟨fun r hr => hcomplete.anchors r ((hmem r).mpr (mem_inOrder.mpr hr)), hcomplete.lines⟩, hfiles⟩

/-! ## Two runs -/

/-- **No rule of the catalog misses** in a directory as it is generated, and none misses in a second run, so a strict
policy is kept both times. -/
theorem apply_standard_without_misses {tree tree₁ : FileTree} {out : Path} {report : Report}
    (hcomplete : Complete declaration standard tree out) (h : apply standard tree out = (tree₁, .ok report)) :
    ((∀ o ∈ report.outcomes, o.missed = false) ∧ report.enforce true = .ok ()) ∧
      ∃ tree₂ again, apply standard tree₁ out = (tree₂, .ok again) ∧
        (∀ o ∈ again.outcomes, o.missed = false) ∧ again.enforce true = .ok () := by
  obtain ⟨-, happly⟩ := apply_eq_ok_iff.mp h
  obtain ⟨made, loc, hmake, hopens, hmade⟩ := exists_opens_of_applyEach startsWithCreate_standard happly nofun
  obtain ⟨hsame, -⟩ := applyEach_ok hopens orderly_standard.single hmade
  have hcomplete' : Complete declaration (inOrder standard) tree out :=
    ⟨fun r hr => hcomplete.anchors r (mem_inOrder.mp hr), hcomplete.lines⟩
  have hready := hcomplete'.ready orderly_standard.single
    (fun r hr => fits_of_isConsiderate standard_isConsiderate hr) hmake hopens
  -- the first run leaves all rules ready for the second
  obtain ⟨hready', hmissed⟩ := hready.applyEach considerate_standard (List.Subset.refl _) hopens hmade
  obtain ⟨tree₂, again, hagain, -⟩ := orderly_standard.applyEach_applyEach startsWithCreate_standard happly
  obtain ⟨-, hmissed'⟩ :=
    hready'.applyEach considerate_standard (List.Subset.refl _) (hsame.opens hopens) hagain
  exact ⟨⟨hmissed, Report.enforce_of_misses_eq_nil (Report.misses_eq_nil_iff.mpr hmissed) true⟩,
    tree₂, ⟨out, again⟩, apply_eq_ok_iff.mpr ⟨rfl, hagain⟩, hmissed',
    Report.enforce_of_misses_eq_nil (Report.misses_eq_nil_iff.mpr hmissed') true⟩

theorem apply_standard_without_misses_sample :
    Complete declaration standard (sampleFiles sampleDeclarations) sampleOut ∧
      ∃ tree₁ report, apply standard (sampleFiles sampleDeclarations) sampleOut = (tree₁, .ok report) ∧
        ((∀ o ∈ report.outcomes, o.missed = false) ∧ report.enforce true = .ok ()) ∧
          ∃ tree₂ again, apply standard tree₁ sampleOut = (tree₂, .ok again) ∧
            (∀ o ∈ again.outcomes, o.missed = false) ∧ again.enforce true = .ok () := by
  obtain ⟨hcomplete, hfiles⟩ := complete_sampleDeclarations
  obtain ⟨tree₁, report, h⟩ :=
    exists_apply_sampleFiles sampleDeclarations (fun f hf => (hfiles f hf).1) fun f hf => (hfiles f hf).2
  exact ⟨hcomplete, tree₁, report, h, apply_standard_without_misses hcomplete h⟩

end FlowTypes.Catalog
