import FlowTypes.Proofs.Catalog.Building
import FlowTypes.Proofs.Catalog.Keeping
import FlowTypes.Proofs.Catalog.Rerun
import FlowTypes.Proofs.FileTree.Closed

/-!
# Constants in the declarations

A class can be in several tables, and two classes can share a file, so that rules of all families may edit the
declaration of a class. All the same the constants of its enumeration come in, and they stay (`apply_constants`).

What makes them come in is the order of the phases. The rule for the constants looks for the header of the class, and
so does the rule for its base. Rules that come before either of them insert something or change the headers of other
classes, and keep this header (`keeps_classHeader`). What makes them stay is that constants and the new header are
sturdy and lie apart from all headers, so that nothing that comes later takes them away (`keeps_of_sturdy`).
-/

namespace FlowTypes.Catalog

variable {tables : Tables} {catalog : List Rule} {r : Rule} {C w : Text}

/-! ## Rules of a catalog -/

/-- Every rule of a catalog is one of a draft. -/
theorem exists_drafted_of_mem (hbuild : build tables = .ok catalog) (hr : r ∈ catalog) :
    ∃ d, Drafted tables d ∧ d.check = .ok r := by
  obtain ⟨rules, hcheck, hcatalog⟩ := isCatalog_of_build hbuild
  obtain ⟨d, hd, hdcheck⟩ := exists_draft_of_checkAll hcheck (hcatalog.perm.mem_iff.mp hr)
  exact ⟨d, drafted_of_mem hd, hdcheck⟩

/-- Every draft has its rule in the catalog. -/
theorem exists_mem_of_draft (hbuild : build tables = .ok catalog) {d : Draft} (hd : d ∈ drafts tables) :
    ∃ r ∈ catalog, d.check = .ok r := by
  obtain ⟨rules, hcheck, hcatalog⟩ := isCatalog_of_build hbuild
  obtain ⟨r, hr, hdcheck⟩ := exists_rule_of_checkAll hcheck d hd
  exact ⟨r, hcatalog.perm.mem_iff.mpr hr, hdcheck⟩

theorem isSingle_of_mem (hnames : tables.WellNamed) (hbuild : build tables = .ok catalog) :
    ∀ r ∈ inOrder catalog, r.isSingle = true := fun r hr => by
  obtain ⟨d, hdrafted, hcheck⟩ := exists_drafted_of_mem hbuild (mem_inOrder.mp hr)
  exact hdrafted.isSingle hnames hcheck

/-- Up to the turn of the bases a header is kept, but for the rule that gives its class a base. -/
theorem keeps_classHeader (hnames : tables.WellNamed) (hbuild : build tables = .ok catalog) (hr : r ∈ catalog)
    (hC : C ∈ tables.classNames) (hconcerns : r.concerns (artifactName C) = true) (hphase : r.phase ≤ inheritancePhase)
    (hname : r.phase = inheritancePhase → r.name ≠ "extends" ++ ":" ++ C) : r.Keeps (classHeader C) := by
  obtain ⟨d, hdrafted, hcheck⟩ := exists_drafted_of_mem hbuild hr
  obtain ⟨hdname, hdphase, -⟩ := Draft.eq_of_check hcheck
  have hident := hnames.classes C hC
  refine hdrafted.keeps hnames hcheck (sturdy_classHeader hident) hC hconcerns ?_ ?_
  · rintro D B hedge rfl
    refine apart_classHeader hident (hnames.classes D (Tables.mem_classNames_of_edge hedge).1) ?_
    rintro rfl
    exact hname hdphase hdname
  · rintro old new - rfl
    have hlate : ¬ renamePhase ≤ inheritancePhase := by decide
    rw [hdphase] at hphase
    exact absurd hphase hlate

/-- What lies apart from all headers is kept. -/
theorem keeps_of_sturdy (hnames : tables.WellNamed) (hbuild : build tables = .ok catalog) (hw : Sturdy w)
    (hapart : ∀ D : Text, D.isIdentifier = true → Occurrence.apart w (classHeader D) = true) (hr : r ∈ catalog)
    (hC : C ∈ tables.classNames) (hconcerns : r.concerns (artifactName C) = true) : r.Keeps w := by
  obtain ⟨d, hdrafted, hcheck⟩ := exists_drafted_of_mem hbuild hr
  refine hdrafted.keeps hnames hcheck hw hC hconcerns ?_ ?_
  · rintro D B hedge -
    exact hapart D (hnames.classes D (Tables.mem_classNames_of_edge hedge).1)
  · rintro old new hpair -
    exact hapart old (hnames.classes old (Tables.mem_classNames_of_rename hpair).1)

/-! ## Turns -/

variable {tree tree' : FileTree} {out : Path} {loc : Location} {report : Report}

/-- **A rule at the header of a class finds it when its turn comes**, and what it brings in stays if all rules keep
it. The turn of the rule is before the turn of the bases, or it is the rule for the base of this class. -/
theorem holds_content_apply (placement : Placement) (hnames : tables.WellNamed) (hbuild : build tables = .ok catalog)
    (hopens : tree.Opens out loc) (happly : apply catalog tree out = (tree', .ok report)) (hC : C ∈ tables.classNames)
    (hin : Holds (classHeader C) (tree.under loc (artifactName C))) (hr : r ∈ catalog)
    (htarget : r.target = artifactName C) (haction : r.action = .amend placement (.literal (classHeader C)))
    (hplacement : placement ≠ .before)
    (hturn : r.phase < inheritancePhase ∨ r.phase = inheritancePhase ∧ r.name = "extends" ++ ":" ++ C)
    (hcontent : '\r' ∉ r.content)
    (hkept : ∀ s ∈ catalog, s.concerns (artifactName C) = true → s.Keeps r.content) :
    ((∃ o ∈ report.outcomes, o.rule = r) ∧
      ∀ o ∈ report.outcomes, o.rule = r → o.status = .applied ∨ o.status = .alreadyApplied) ∧
      Holds r.content (tree'.under loc (artifactName C)) := by
  obtain ⟨rules, -, hcatalog⟩ := isCatalog_of_build hbuild
  obtain ⟨-, heach⟩ := apply_eq_ok_iff.mp happly
  have hsingle := isSingle_of_mem hnames hbuild
  have hascending := pairwise_inOrder catalog
  have hdistinct : ((inOrder catalog).map (·.name)).Nodup :=
    ((inOrder_perm catalog).map (·.name)).nodup_iff.mpr hcatalog.distinct
  have hmem : ∀ s ∈ inOrder catalog, s ∈ catalog := fun s => mem_inOrder.mp
  obtain ⟨front, back, hsplit⟩ := List.append_of_mem (mem_inOrder.mpr hr)
  rw [hsplit] at heach hsingle hascending hdistinct hmem
  rw [List.map_append, List.map_cons, List.perm_middle.nodup_iff, List.nodup_cons, ← List.map_append] at hdistinct
  have hother : ∀ s ∈ front ++ back, s.name ≠ r.name := fun s hs hname =>
    hdistinct.1 (hname ▸ List.mem_map_of_mem hs)
  obtain ⟨hmemFront, hmemBack⟩ := List.forall_mem_append.mp hmem
  have hident := hnames.classes C hC
  rw [← htarget] at hin hkept ⊢
  refine holds_content_applyEach hopens hsingle (htarget ▸ isPattern_artifactName hident) haction hplacement
    (sturdy_classHeader hident).lineEnd hcontent (fun s hs hconcerns => ?_)
    (fun s hs => hkept s (hmemBack s (List.mem_cons_of_mem _ hs)))
    (fun h => hother r h rfl) hin heach
  -- the rules before this one have their turn before the bases, or with them
  have hle : s.phase ≤ r.phase := (List.pairwise_append.mp hascending).2.2 s hs r List.mem_cons_self
  refine keeps_classHeader hnames hbuild (hmemFront s hs) hC (htarget ▸ hconcerns) (by omega) fun hphase => ?_
  rcases hturn with hbefore | ⟨-, hname⟩
  · omega
  · exact hname ▸ hother s (List.mem_append_left _ hs)

/-! ## Constants -/

theorem apart_constants {members : List Text} (hmembers : ∀ name ∈ members, Text.isIdentifier name = true)
    (hne : members ≠ []) {D : Text} (hD : D.isIdentifier = true) :
    Occurrence.apart (memberLines (constantLines members)) (classHeader D) = true := by
  have hlines : constantLines members ≠ [] := by simpa [constantLines] using hne
  obtain ⟨c, hlast, hc⟩ := getLast?_memberLines hlines fun line hline => (constantLines_spec hmembers line hline).1
  have hother : c ∉ classHeader D := by
    rcases hc with rfl | rfl
    · exact not_mem_classHeader hD (by decide) (by decide)
    · exact not_mem_classHeader hD (by decide) (by decide)
  exact Occurrence.apart_of_ends hlast hother (closedBy_classHeader hD).getLast?
    (not_mem_constants hmembers (by decide) (by decide) (by decide))

theorem constants_mem_drafts {spec : EnumSpec} (hspec : spec ∈ tables.enums) (hinject : spec.injectMembers = true) :
    afterHeader "enum-members" enumPhase spec.owner (memberLines (constantLines spec.members)) ∈ drafts tables := by
  have hd : afterHeader "enum-members" enumPhase spec.owner (memberLines (constantLines spec.members)) ∈
      tables.enums.flatMap enumDrafts := by
    refine List.mem_flatMap.mpr ⟨spec, hspec, List.mem_append_right _ ?_⟩
    rw [if_pos hinject]
    exact List.mem_cons_self
  simp only [drafts, List.mem_append]
  exact .inl (.inl (.inl (.inl (.inl (.inl (.inl (.inr hd)))))))

theorem base_mem_drafts {B : Text} (h : (C, B) ∈ tables.inheritanceEdges) : inheritanceDraft C B ∈ drafts tables := by
  simp only [drafts, List.mem_append]
  refine .inl (.inl (.inl (.inl (.inr ?_))))
  exact List.mem_map.mpr ⟨(C, B), h, rfl⟩

/-- The constants are kept by all rules for the file of a class. -/
theorem keeps_constants (hnames : tables.WellNamed) (hbuild : build tables = .ok catalog) {members : List Text}
    (hmembers : ∀ name ∈ members, Text.isIdentifier name = true) (hr : r ∈ catalog) (hC : C ∈ tables.classNames)
    (hconcerns : r.concerns (artifactName C) = true) : r.Keeps (memberLines (constantLines members)) := by
  by_cases hne : members = []
  · -- no constants are no word, and whatever keeps any word keeps this one
    subst hne
    have hident := hnames.classes C hC
    have hkeeps := keeps_of_sturdy hnames hbuild (sturdy_extendedHeader hident hident)
      (fun D hD => Occurrence.apart_symm (apart_extendedHeader hD hident hident)) hr hC hconcerns
    exact hkeeps.empty
  · exact keeps_of_sturdy hnames hbuild (sturdy_constants hmembers hne)
      (fun D hD => apart_constants hmembers hne hD) hr hC hconcerns

/-- **The constants of an enumeration come into the declaration of its class, and stay there**, and the base of the
class comes in after them. Other rules for the class, or for a class that shares its file, take nothing of this away.
-/
theorem apply_constants {spec : EnumSpec} {t : Text} (hnames : tables.WellNamed) (hbuild : build tables = .ok catalog)
    (happly : apply catalog tree out = (tree', .ok report)) (hspec : spec ∈ tables.enums)
    (hinject : spec.injectMembers = true) (hread : tree.readText (out.child (artifactName spec.owner)) = .ok t)
    (hheader : classHeader spec.owner <:+: t) :
    (∃ r ∈ catalog,
      (afterHeader "enum-members" enumPhase spec.owner (memberLines (constantLines spec.members))).check = .ok r ∧
      (∃ o ∈ report.outcomes, o.rule = r) ∧
      ∀ o ∈ report.outcomes, o.rule = r → o.status = .applied ∨ o.status = .alreadyApplied) ∧
    ∃ t', tree'.readText (out.child (artifactName spec.owner)) = .ok t' ∧
      memberLines (constantLines spec.members) <:+: t' ∧
      ∀ B, (spec.owner, B) ∈ tables.inheritanceEdges → extendedHeader spec.owner B <:+: t' := by
  have hC := Tables.owner_mem_classNames hspec
  have hident := hnames.classes _ hC
  have hmembers := hnames.members spec hspec
  have hname := isName_artifactName hident
  have hdots := (Text.isName_iff.mp hname).2.2.2
  obtain ⟨loc, hopens⟩ := FileTree.opens_of_readText_child hname hread
  obtain ⟨hreach, bytes, hunder, ht⟩ := FileTree.under_of_readText_child hopens hdots hread
  have hin : Holds (classHeader spec.owner) (tree.under loc (artifactName spec.owner)) :=
    ⟨bytes, t, hunder, ht, hheader⟩
  have hopens' : tree'.Opens out loc := by
    obtain ⟨-, heach⟩ := apply_eq_ok_iff.mp happly
    exact (applyEach_ok hopens (isSingle_of_mem hnames hbuild) heach).1.opens hopens
  -- the constants come in
  obtain ⟨r, hr, hcheck⟩ := exists_mem_of_draft hbuild (constants_mem_drafts hspec hinject)
  obtain ⟨-, hrphase, hrtarget, hrcontent⟩ := Draft.eq_of_check hcheck
  have hearly : enumPhase < inheritancePhase := by decide
  obtain ⟨hreports, hholds⟩ := holds_content_apply .after hnames hbuild hopens happly hC hin hr hrtarget
    (Draft.amend_of_check hcheck rfl rfl) nofun (.inl (hrphase ▸ hearly))
    (hrcontent ▸ not_mem_constants hmembers (by decide) (by decide) (by decide))
    (fun s hs hconcerns => hrcontent ▸ keeps_constants hnames hbuild hmembers hs hC hconcerns)
  rw [hrcontent] at hholds
  obtain ⟨bytes', t', hunder', ht', hconstants⟩ := hholds
  refine ⟨⟨r, hr, hcheck, hreports⟩, t', FileTree.readText_child hopens' hdots hreach hunder' ht', hconstants, ?_⟩
  -- and so does the base
  intro B hedge
  have hB := hnames.classes B (Tables.mem_classNames_of_edge hedge).2
  obtain ⟨e, he, hecheck⟩ := exists_mem_of_draft hbuild (base_mem_drafts hedge)
  obtain ⟨hename, hephase, hetarget, hecontent⟩ := Draft.eq_of_check hecheck
  have hsturdy := sturdy_extendedHeader hident hB
  obtain ⟨-, hholds⟩ := holds_content_apply .over hnames hbuild hopens happly hC hin he hetarget
    (Draft.amend_of_check hecheck rfl rfl) nofun (.inr ⟨hephase, hename⟩)
    (hecontent ▸ hsturdy.lineEnd)
    (fun s hs hconcerns => hecontent ▸ keeps_of_sturdy hnames hbuild hsturdy
      (fun D hD => Occurrence.apart_symm (apart_extendedHeader hD hident hB)) hs hC hconcerns)
  rw [hecontent] at hholds
  exact hholds.infix_of_file hunder' ht'

/-- Tables of two classes that share a file. One of them has constants, a base, a new name and accessors. -/
def sharedTables : Tables where
  enums := [⟨"gdVariable", some "Variable_Type", ["Unknown", "String"], true⟩, ⟨"gdvariable", none, ["Number"], true⟩]
  moduleHelpers := ["getPointer(gdEmscriptenObject): number;"]
  moduleCasts := []
  serializerHelpers := ["static toJSObject(element: gdSerializerElement): any;"]
  containerHelpers := [("gdVariable", "clear(): void;")]
  inheritanceEdges := [("gdVariable", "gdObject"), ("gdvariable", "gdVariable")]
  classRenames := [("gdVariable", "gdjsVariable")]
  resourceKinds := ["image", "audio"]
  metadataWithParameters := ["gdVariable"]
  attributeAccessors := [⟨"gdVariable", "static", "number"⟩]

/-- The declarations of both classes in one file. -/
def sharedText : Text :=
  "declare class gdVariable \x7b\n  static: number;\n\x7d;\ndeclare class gdvariable \x7b\n\x7d;\n"

def sharedTree : FileTree := sampleFiles [("gdvariable.js", sharedText)]

theorem wellNamed_sharedTables : sharedTables.WellNamed where
  classes := by decide
  types := by
    intro spec hspec typeName htype
    have hnames : typeName = "Variable_Type" := by
      rcases List.mem_cons.mp hspec with rfl | hspec
      · exact (Option.some.inj htype).symm
      · rw [List.mem_singleton.mp hspec] at htype
        cases htype
    subst hnames
    decide
  members := by decide
  attributes := by decide

/-- The tables give a catalog, and it completes over the file. -/
theorem exists_apply_sharedTables : ∃ catalog tree' report, build sharedTables = .ok catalog ∧
    apply catalog sharedTree sampleOut = (tree', .ok report) := by
  have hgood : (checkAll (drafts sharedTables)).toOption.any
      (fun rules => rules.all fun r => r.isSound && r.target.isShortName) = true := by decide +kernel
  cases hcheck : checkAll (drafts sharedTables) with
  | error fault =>
    rw [hcheck] at hgood
    cases hgood
  | ok rules =>
  rw [hcheck] at hgood
  simp only [Except.toOption, Option.any_some, List.all_eq_true, Bool.and_eq_true] at hgood
  have hdistinct : (rules.map (·.name)).Nodup := by
    rw [names_eq_of_map_check (checkAll_eq_ok_iff.mp hcheck)]
    decide +kernel
  have hbuild : build sharedTables = .ok (inOrder rules) := by simp [build, hcheck, repeatedNames_eq_nil hdistinct]
  have hmem : ∀ r ∈ inOrder (inOrder rules), r ∈ rules := fun r hr => mem_inOrder.mp (mem_inOrder.mp hr)
  have htexts : ∀ name entry, sharedTree.under ["out"] name = some entry → sampleOut.reaches name = true ∧
      ∃ bytes t, entry = .file bytes ∧ FileTree.textOf bytes = .ok t := by
    intro name entry hentry
    rw [sharedTree, under_sampleFiles] at hentry
    obtain ⟨t, hlookup, rfl⟩ := Option.map_eq_some_iff.mp hentry
    have hfile := List.mem_singleton.mp (mem_of_lookup hlookup)
    cases hfile
    exact ⟨by decide, _, sharedText, rfl, FileTree.textOf_encode (by decide)⟩
  obtain ⟨tree', outcomes, heach⟩ := exists_applyEach_ok_of_texts (opens_sampleFiles _) (by decide)
    (isSingle_of_mem wellNamed_sharedTables hbuild) (fun r hr => (hgood r (hmem r hr)).1)
    (fun r hr => (hgood r (hmem r hr)).2) (fun _ => rfl) htexts
  exact ⟨_, tree', ⟨sampleOut, outcomes⟩, hbuild, apply_eq_ok_iff.mpr ⟨rfl, heach⟩⟩

/-- The constants and the base are there at the end, and the rule for the constants has been applied. -/
theorem apply_constants_sharedTables : ∃ catalog tree' report, build sharedTables = .ok catalog ∧
    apply catalog sharedTree sampleOut = (tree', .ok report) ∧
    (∃ r ∈ catalog, r.name = "enum-members:gdVariable" ∧
      ∃ o ∈ report.outcomes, o.rule = r ∧ (o.status = .applied ∨ o.status = .alreadyApplied)) ∧
    ∃ t', tree'.readText (sampleOut.child "gdvariable.js") = .ok t' ∧
      memberLines ["static Unknown: 0;", "static String: 1;"] <:+: t' ∧
      extendedHeader "gdVariable" "gdObject" <:+: t' := by
  obtain ⟨catalog, tree', report, hbuild, happly⟩ := exists_apply_sharedTables
  have hread : sharedTree.readText (sampleOut.child "gdvariable.js") = .ok sharedText :=
    FileTree.readText_child (opens_sampleFiles _) (by decide) (by decide) rfl (FileTree.textOf_encode (by decide))
  have hspec : ⟨"gdVariable", some "Variable_Type", ["Unknown", "String"], true⟩ ∈ sharedTables.enums :=
    List.mem_cons_self
  have hheader : classHeader "gdVariable" <:+: sharedText := Occurrence.occursIn_iff_infix.mp (by decide)
  obtain ⟨⟨r, hr, hcheck, ⟨o, ho, hrule⟩, hstatus⟩, t', hread', hconstants, hbase⟩ :=
    apply_constants wellNamed_sharedTables hbuild happly hspec rfl hread hheader
  exact ⟨catalog, tree', report, hbuild, happly,
    ⟨r, hr, (Draft.eq_of_check hcheck).1, o, ho, hrule, hstatus o ho hrule⟩, t', hread', hconstants,
    hbase "gdObject" List.mem_cons_self⟩

end FlowTypes.Catalog
