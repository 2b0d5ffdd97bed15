import FlowTypes.Proofs.Catalog.Drafts
import FlowTypes.Proofs.Catalog.PhaseOrder
import Mathlib.Data.List.Forall2

/-!
# The rules of the tables

Nine families of rules are made from the tables: types that belong to no class, enumerations, helper functions,
containers, bases, new names, signatures, accessors, and the notice. `Families.Of` says entry by entry which rule each of
them has, with its name, its phase, its file, its content and its anchor, and `Families.rules` are all of them in the
order in which they are put down.

A catalog is made from these rules and from no others (`checkAll_drafts`). There are such rules if every draft of the
tables makes sense (`exists_families`). Since the families follow one another in the order of their phases, they are
applied as they are put down (`inOrder_rules`).
-/

namespace FlowTypes

/-! ## Rules by their data -/

/-- The rule has these data. -/
structure Rule.Has (r : Rule) (name : Text) (phase : Int) (target content : Text) (action : Action) : Prop where
  name_eq : r.name = name
  phase_eq : r.phase = phase
  target_eq : r.target = target
  content_eq : r.content = content
  action_eq : r.action = action

/-- An action is known by its edit and its anchor. -/
theorem Action.eq_of_edit_of_anchor {a b : Action} (hedit : a.edit = b.edit) (hanchor : a.anchor? = b.anchor?) :
    a = b := by
  cases a with
  | create => cases b with
    | create => rfl
    | amend _ _ => cases hanchor
  | amend p x => cases b with
    | create => cases hanchor
    | amend q y =>
      obtain rfl : x = y := Option.some.inj hanchor
      cases p <;> cases q <;> first | rfl | cases hedit

theorem Edit.text_injective {e e' : Edit} (h : e.text = e'.text) : e = e' :=
  Option.some.inj ((ofText?_text e).symm.trans ((congrArg ofText? h).trans (ofText?_text e')))

/-- **A draft makes sense if there is a rule with its data**, and then this is its rule. -/
theorem Draft.check_eq_ok_iff {d : Draft} {r : Rule} (action : Action) (hedit : d.edit = action.edit.text)
    (hanchor : d.anchor = action.anchor?) :
    d.check = .ok r ↔ r.Has d.name d.phase d.target d.content action := by
  constructor
  · intro h
    obtain ⟨hname, hphase, htarget, hcontent⟩ := eq_of_check h
    obtain ⟨hedit', hanchor'⟩ := action_of_check h
    exact ⟨hname, hphase, htarget, hcontent, Action.eq_of_edit_of_anchor
      (Edit.text_injective (hedit'.symm.trans hedit)) (hanchor'.symm.trans hanchor)⟩
  · obtain ⟨name, phase, target, content, act, haccepted⟩ := r
    rintro ⟨rfl, rfl, rfl, rfl, rfl⟩
    have hwith : d.withAction act = some ⟨d.name, d.phase, d.target, d.content, act, haccepted⟩ := dif_pos haccepted
    unfold check
    cases act with
    | create => simp [hedit, hanchor, Action.edit, Action.anchor?, Edit.ofText?_text, hwith]
    | amend placement anchor =>
      have hvoid : anchor.isVoid = false := by
        cases placement with
        | after => simpa [Action.accepts] using haccepted
        | before => simpa [Action.accepts] using haccepted
        | «over» =>
          simp only [Action.accepts, Bool.and_eq_true, Bool.not_eq_true'] at haccepted
          exact haccepted.1
      cases placement <;>
        simp [hedit, hanchor, Action.edit, Action.anchor?, Edit.ofText?_text, anchored, hvoid, hwith]

namespace Catalog

/-! ## Families -/

/-- The rules of the tables, family by family. -/
structure Families where
  adhoc : Rule
  /-- Those of each enumeration. -/
  enums : List (List Rule)
  moduleHelpers : Rule
  serializerHelpers : Rule
  containers : List Rule
  bases : List Rule
  renames : List Rule
  setKind : Rule
  getKind : Rule
  parameters : List Rule
  accessors : List Rule
  notice : Rule

/-- Each family with its rules, in the order in which they are put down. -/
def Families.blocks (f : Families) : List (List Rule) :=
  [[f.adhoc], f.enums.flatten, [f.moduleHelpers, f.serializerHelpers], f.containers, f.bases, f.renames,
    f.setKind :: f.getKind :: f.parameters, f.accessors, [f.notice]]

/-- All rules, in the order in which they are put down. -/
def Families.rules (f : Families) : List Rule := f.blocks.flatten

/-- The rule puts lines after the header of a class. -/
def Inserts (family : Text) (phase : Int) (C : Text) (lines : List Text) (r : Rule) : Prop :=
  r.Has (family ++ ":" ++ C) phase (artifactName C) (memberLines lines) (.amend .after (.literal (classHeader C)))

/-- The rule changes the header of a class. -/
def Replaces (family : Text) (phase : Int) (C header : Text) (r : Rule) : Prop :=
  r.Has (family ++ ":" ++ C) phase (artifactName C) header (.amend .over (.literal (classHeader C)))

/-- The rule narrows a signature of the class of resources. -/
def Narrows (function source content : Text) (r : Rule) : Prop :=
  ∃ anchor, Anchor.ofPattern? source = some anchor ∧
    r.Has ("kind:gdResource." ++ function) signaturePhase (artifactName "gdResource") content (.amend .over anchor)

/-- A rule writes a type with the values of the enumeration if it has a name, and one puts constants into its class if it
wants them. -/
def OfEnum (spec : EnumSpec) (rules : List Rule) : Prop :=
  ∃ types constants, rules = types ++ constants ∧
    List.Forall₂ (fun T r => r.Has ("enum-alias:" ++ T) enumPhase (artifactName T)
      (Catalog.notice ++ "\ntype " ++ T ++ " = "
        ++ Text.join " | " ((List.range spec.members.length).map Text.ofNat) ++ "\n") .create)
      spec.typeName.toList types ∧
    List.Forall₂ (fun C r => Inserts "enum-members" enumPhase C (constantLines spec.members) r)
      (if spec.injectMembers then [spec.owner] else []) constants

/-- These are the rules of the tables: one rule for each entry, in the order of the table. -/
structure Families.Of (f : Families) (tables : Tables) : Prop where
  adhoc : f.adhoc.Has "adhoc-types" adhocPhase adhocFile (Text.join "\n" (Catalog.notice :: adhocLines) ++ "\n") .create
  enums : List.Forall₂ OfEnum tables.enums f.enums
  moduleHelpers : Inserts "helpers" conveniencePhase moduleClass (moduleLines tables) f.moduleHelpers
  serializerHelpers : Inserts "helpers" conveniencePhase "gdSerializer" tables.serializerHelpers f.serializerHelpers
  containers : List.Forall₂ (fun entry r => Inserts "container" containerPhase entry.1 [entry.2] r)
    tables.containerHelpers f.containers
  bases : List.Forall₂ (fun edge r => Replaces "extends" inheritancePhase edge.1 (extendedHeader edge.1 edge.2) r)
    tables.inheritanceEdges f.bases
  renames : List.Forall₂ (fun names r => Replaces "rename" renamePhase names.1 (classHeader names.2) r)
    tables.classRenames f.renames
  setKind : Narrows "setKind" "setKind\\(kind: string\\): void"
    ("setKind(kind: " ++ literalUnion tables.resourceKinds ++ "): void") f.setKind
  getKind : Narrows "getKind" "getKind\\(\\): string" ("getKind(): " ++ literalUnion tables.resourceKinds) f.getKind
  parameters : List.Forall₂ (fun C r => r.Has ("optional-parameters:" ++ C) signaturePhase (artifactName C)
    optionalParameters (.amend .over (.literal requiredParameters))) tables.metadataWithParameters f.parameters
  accessors : List.Forall₂ (fun a r => ∃ anchor,
    Anchor.ofPattern? ("\\b" ++ Pattern.escape a.name ++ ": " ++ Pattern.escape a.type ++ ";") = some anchor ∧
      r.Has ("accessors:" ++ a.owner ++ "." ++ a.name) accessorPhase (artifactName a.owner)
        (memberLines ["set_" ++ a.name ++ "(" ++ a.type ++ "): void;", "get_" ++ a.name ++ "(): " ++ a.type ++ ";"])
        (.amend .after anchor)) tables.attributeAccessors f.accessors
  notice : f.notice.Has "notice" noticePhase "*.js" (Catalog.notice ++ "\n")
    (.amend .before (.literal "declare class"))

/-! ## Entries and their rules -/

/-- A draft with an anchor that is read from a pattern makes sense if there is one. -/
theorem check_ofPattern?_iff {d : Draft} {r : Rule} {placement : Placement} {source : Text}
    (hedit : ∀ anchor, d.edit = (Action.amend placement anchor).edit.text) (hanchor : d.anchor = Anchor.ofPattern? source) :
    d.check = .ok r ↔ ∃ anchor, Anchor.ofPattern? source = some anchor ∧
      r.Has d.name d.phase d.target d.content (.amend placement anchor) := by
  constructor
  · intro h
    obtain ⟨anchor, hsome⟩ : ∃ anchor, d.anchor = some anchor := by
      obtain ⟨hedit', hanchor'⟩ := Draft.action_of_check h
      cases haction : r.action with
      | create =>
        rw [haction, hedit (.literal [])] at hedit'
        cases placement <;> cases Edit.text_injective hedit'
      | amend _ anchor => exact ⟨anchor, by rw [hanchor', haction]; rfl⟩
    exact ⟨anchor, hanchor ▸ hsome, (Draft.check_eq_ok_iff _ (hedit anchor) hsome).mp h⟩
  · rintro ⟨anchor, hsome, h⟩
    exact (Draft.check_eq_ok_iff _ (hedit anchor) (hanchor.trans hsome)).mpr h

theorem check_afterHeader_iff {family C : Text} {phase : Int} {lines : List Text} {r : Rule} :
    (afterHeader family phase C (memberLines lines)).check = .ok r ↔ Inserts family phase C lines r :=
  Draft.check_eq_ok_iff (.amend .after (.literal (classHeader C))) rfl rfl

theorem check_overHeader_iff {family C header : Text} {phase : Int} {r : Rule} :
    (overHeader family phase C header).check = .ok r ↔ Replaces family phase C header r :=
  Draft.check_eq_ok_iff (.amend .over (.literal (classHeader C))) rfl rfl

theorem check_kindDraft_iff {function source content : Text} {r : Rule} :
    (kindDraft function source content).check = .ok r ↔ Narrows function source content r :=
  check_ofPattern?_iff (fun _ => rfl) rfl

theorem exists_forall₂ {α β : Type} {R : α → β → Prop} :
    ∀ {as : List α}, (∀ a ∈ as, ∃ b, R a b) → ∃ bs, List.Forall₂ R as bs
  | [], _ => ⟨[], .nil⟩
  | a :: as, h => by
    obtain ⟨b, hb⟩ := h a List.mem_cons_self
    obtain ⟨bs, hbs⟩ := exists_forall₂ fun a ha => h a (List.mem_cons_of_mem _ ha)
    exact ⟨b :: bs, .cons hb hbs⟩

/-! ## Drafts and rules side by side -/

/-- Drafts, and the rules that they put down. -/
abbrev Checked : List Draft → List Rule → Prop := List.Forall₂ fun d r => d.check = .ok r

theorem checkAll_of_checked {drafts : List Draft} {rules : List Rule} (h : Checked drafts rules) :
    checkAll drafts = .ok rules := by
  rw [checkAll_eq_ok_iff, ← List.forall₂_eq_eq_eq, List.forall₂_map_left_iff, List.forall₂_map_right_iff]
  exact h

/-- The draft of the type of an enumeration. -/
def typeDraft (spec : EnumSpec) (T : Text) : Draft where
  name := "enum-alias:" ++ T
  phase := enumPhase
  target := artifactName T
  edit := Edit.create.text
  content := Catalog.notice ++ "\ntype " ++ T ++ " = "
    ++ Text.join " | " ((List.range spec.members.length).map Text.ofNat) ++ "\n"
  anchor := none

/-- The draft of the constants of an enumeration. -/
def constantsDraft (spec : EnumSpec) (C : Text) : Draft :=
  afterHeader "enum-members" enumPhase C (memberLines (constantLines spec.members))

theorem enumDrafts_eq (spec : EnumSpec) : enumDrafts spec = spec.typeName.toList.map (typeDraft spec) ++
    (if spec.injectMembers then [spec.owner] else []).map (constantsDraft spec) := by
  unfold enumDrafts
  congr 1
  · cases spec.typeName <;> rfl
  · split <;> rfl

theorem check_typeDraft_iff {spec : EnumSpec} {T : Text} {r : Rule} : (typeDraft spec T).check = .ok r ↔
    r.Has ("enum-alias:" ++ T) enumPhase (artifactName T) (typeDraft spec T).content .create :=
  Draft.check_eq_ok_iff .create rfl rfl

theorem checked_enumDrafts {spec : EnumSpec} {rules : List Rule} (h : OfEnum spec rules) :
    Checked (enumDrafts spec) rules := by
  obtain ⟨types, constants, rfl, htypes, hconstants⟩ := h
  rw [enumDrafts_eq]
  refine List.rel_append (List.forall₂_map_left_iff.mpr ?_) (List.forall₂_map_left_iff.mpr ?_)
  · exact htypes.imp fun _ _ => check_typeDraft_iff.mpr
  · exact hconstants.imp fun _ _ => check_afterHeader_iff.mpr

theorem exists_ofEnum {spec : EnumSpec} (h : ∀ d ∈ enumDrafts spec, ∃ r, d.check = .ok r) :
    ∃ rules, OfEnum spec rules := by
  rw [enumDrafts_eq, List.forall_mem_append] at h
  obtain ⟨htypes, hconstants⟩ := h
  obtain ⟨types, htypes⟩ := exists_forall₂ fun T hT => htypes _ (List.mem_map_of_mem hT)
  obtain ⟨constants, hconstants⟩ := exists_forall₂ fun C hC => hconstants _ (List.mem_map_of_mem hC)
  exact ⟨types ++ constants, types, constants, rfl, htypes.imp fun _ _ => check_typeDraft_iff.mp,
    hconstants.imp fun _ _ => check_afterHeader_iff.mp⟩

/-! ## The catalog of the rules -/

section
variable {tables : Tables} {f : Families}

theorem checked_signatureDrafts (h : f.Of tables) :
    Checked (signatureDrafts tables) (f.setKind :: f.getKind :: f.parameters) := by
  refine .cons (check_kindDraft_iff.mpr h.setKind) (.cons (check_kindDraft_iff.mpr h.getKind) ?_)
  exact List.forall₂_map_left_iff.mpr (h.parameters.imp fun C _ =>
    (Draft.check_eq_ok_iff (.amend .over (.literal requiredParameters)) rfl rfl).mpr)

/-- **The drafts of the tables make sense, and their rules are those of the families.** -/
theorem checkAll_drafts (h : f.Of tables) : checkAll (drafts tables) = .ok f.rules := by
  have hadhoc : Checked adhocDrafts [f.adhoc] :=
    .cons ((Draft.check_eq_ok_iff .create rfl rfl).mpr h.adhoc) .nil
  have henums : Checked (tables.enums.flatMap enumDrafts) f.enums.flatten :=
    List.rel_flatten (List.forall₂_map_left_iff.mpr (h.enums.imp fun _ _ => checked_enumDrafts))
  have hhelpers : Checked (convenienceDrafts tables) [f.moduleHelpers, f.serializerHelpers] :=
    .cons (check_afterHeader_iff.mpr h.moduleHelpers) (.cons (check_afterHeader_iff.mpr h.serializerHelpers) .nil)
  have hcontainers : Checked (containerDrafts tables) f.containers :=
    List.forall₂_map_left_iff.mpr (h.containers.imp fun _ _ => check_afterHeader_iff.mpr)
  have hbases : Checked (tables.inheritanceEdges.map fun edge => inheritanceDraft edge.1 edge.2) f.bases :=
    List.forall₂_map_left_iff.mpr (h.bases.imp fun _ _ => check_overHeader_iff.mpr)
  have hrenames : Checked (renameDrafts tables) f.renames :=
    List.forall₂_map_left_iff.mpr (h.renames.imp fun _ _ => check_overHeader_iff.mpr)
  have haccessors : Checked (accessorDrafts tables) f.accessors :=
    List.forall₂_map_left_iff.mpr (h.accessors.imp fun _ _ => (check_ofPattern?_iff (fun _ => rfl) rfl).mpr)
  have hnotice : Checked noticeDrafts [f.notice] :=
    .cons ((Draft.check_eq_ok_iff (.amend .before (.literal "declare class")) rfl rfl).mpr h.notice) .nil
  have hall : Checked [adhocDrafts, tables.enums.flatMap enumDrafts, convenienceDrafts tables, containerDrafts tables,
      tables.inheritanceEdges.map fun edge => inheritanceDraft edge.1 edge.2, renameDrafts tables, signatureDrafts tables,
      accessorDrafts tables, noticeDrafts].flatten f.rules :=
    List.rel_flatten (.cons hadhoc (.cons henums (.cons hhelpers (.cons hcontainers (.cons hbases (.cons hrenames
      (.cons (checked_signatureDrafts h) (.cons haccessors (.cons hnotice .nil)))))))))
  refine checkAll_of_checked ?_
  simpa only [drafts, List.flatten_cons, List.flatten_nil, List.append_nil, List.append_assoc] using hall

/-- **If every draft makes sense, there are the rules of the families.** -/
theorem exists_families (h : ∀ d ∈ drafts tables, ∃ r, d.check = .ok r) : ∃ f : Families, f.Of tables := by
  simp only [drafts, List.forall_mem_append, and_assoc] at h
  obtain ⟨hadhoc, henums, hhelpers, hcontainers, hbases, hrenames, hsignatures, haccessors, hnotice⟩ := h
  obtain ⟨adhoc, hadhoc⟩ := hadhoc _ List.mem_cons_self
  obtain ⟨enums, henums⟩ := exists_forall₂ fun spec hspec =>
    exists_ofEnum fun d hd => henums d (List.mem_flatMap.mpr ⟨spec, hspec, hd⟩)
  obtain ⟨moduleHelpers, hmodule⟩ := hhelpers _ List.mem_cons_self
  obtain ⟨serializerHelpers, hserializer⟩ := hhelpers _ (List.mem_cons_of_mem _ List.mem_cons_self)
  obtain ⟨containers, hcontainers⟩ := exists_forall₂ fun e he => hcontainers _ (List.mem_map_of_mem he)
  obtain ⟨bases, hbases⟩ := exists_forall₂ fun e he => hbases _ (List.mem_map_of_mem he)
  obtain ⟨renames, hrenames⟩ := exists_forall₂ fun e he => hrenames _ (List.mem_map_of_mem he)
  obtain ⟨setKind, hset⟩ := hsignatures _ List.mem_cons_self
  obtain ⟨getKind, hget⟩ := hsignatures _ (List.mem_cons_of_mem _ List.mem_cons_self)
  obtain ⟨parameters, hparameters⟩ := exists_forall₂ fun C hC => hsignatures _
    (List.mem_cons_of_mem _ (List.mem_cons_of_mem _ (List.mem_map_of_mem hC)))
  obtain ⟨accessors, haccessors⟩ := exists_forall₂ fun a ha => haccessors _ (List.mem_map_of_mem ha)
  obtain ⟨notice, hnotice⟩ := hnotice _ List.mem_cons_self
  refine ⟨⟨adhoc, enums, moduleHelpers, serializerHelpers, containers, bases, renames, setKind, getKind, parameters,
    accessors, notice⟩, ?_⟩
  constructor
  case adhoc => exact (Draft.check_eq_ok_iff .create rfl rfl).mp hadhoc
  case enums => exact henums
  case moduleHelpers => exact check_afterHeader_iff.mp hmodule
  case serializerHelpers => exact check_afterHeader_iff.mp hserializer
  case containers => exact hcontainers.imp fun _ _ => check_afterHeader_iff.mp
  case bases => exact hbases.imp fun _ _ => check_overHeader_iff.mp
  case renames => exact hrenames.imp fun _ _ => check_overHeader_iff.mp
  case setKind => exact check_kindDraft_iff.mp hset
  case getKind => exact check_kindDraft_iff.mp hget
  case parameters =>
    exact hparameters.imp fun C _ =>
      (Draft.check_eq_ok_iff (.amend .over (.literal requiredParameters)) rfl rfl).mp
  case accessors => exact haccessors.imp fun _ _ => (check_ofPattern?_iff (fun _ => rfl) rfl).mp
  case notice => exact (Draft.check_eq_ok_iff (.amend .before (.literal "declare class")) rfl rfl).mp hnotice

/-! ## Phases -/

/-- What is side by side with the members of a list has a property if this holds for each of them. -/
theorem forall_mem_of_forall₂ {α β : Type} {R : α → β → Prop} {P : β → Prop} :
    ∀ {as : List α} {bs : List β}, List.Forall₂ R as bs → (∀ a ∈ as, ∀ b, R a b → P b) → ∀ b ∈ bs, P b
  | _, _, .nil, _, _, hb => nomatch hb
  | a :: as, _, .cons hab hrest, hP, b, hb => by
    rcases List.mem_cons.mp hb with rfl | hb
    · exact hP a List.mem_cons_self _ hab
    · exact forall_mem_of_forall₂ hrest (fun a ha => hP a (List.mem_cons_of_mem _ ha)) b hb

theorem phase_ofEnum {spec : EnumSpec} {rules : List Rule} (h : OfEnum spec rules) :
    ∀ r ∈ rules, r.phase = enumPhase := by
  obtain ⟨types, constants, rfl, htypes, hconstants⟩ := h
  intro r hr
  rcases List.mem_append.mp hr with hr | hr
  · exact forall_mem_of_forall₂ htypes (fun _ _ _ h => h.phase_eq) r hr
  · exact forall_mem_of_forall₂ hconstants (fun _ _ _ h => h.phase_eq) r hr

/-- Each family has a phase of its own. -/
theorem phase_blocks (h : f.Of tables) : List.Forall₂ (fun (phase : Int) block => ∀ r ∈ block, r.phase = phase)
    [adhocPhase, enumPhase, conveniencePhase, containerPhase, inheritancePhase, renamePhase, signaturePhase,
      accessorPhase, noticePhase] f.blocks := by
  refine .cons ?adhoc (.cons ?enums (.cons ?helpers (.cons ?containers (.cons ?bases (.cons ?renames (.cons ?signatures
    (.cons ?accessors (.cons ?notice .nil))))))))
  case adhoc => exact List.forall_mem_singleton.mpr h.adhoc.phase_eq
  case enums =>
    intro r hr
    obtain ⟨rules, hrules, hr⟩ := List.mem_flatten.mp hr
    exact forall_mem_of_forall₂ h.enums (fun _ _ _ h => phase_ofEnum h) rules hrules r hr
  case helpers =>
    exact List.forall_mem_cons.mpr ⟨h.moduleHelpers.phase_eq, List.forall_mem_singleton.mpr h.serializerHelpers.phase_eq⟩
  case containers => exact forall_mem_of_forall₂ h.containers fun _ _ _ h => h.phase_eq
  case bases => exact forall_mem_of_forall₂ h.bases fun _ _ _ h => h.phase_eq
  case renames => exact forall_mem_of_forall₂ h.renames fun _ _ _ h => h.phase_eq
  case signatures =>
    obtain ⟨_, _, hset⟩ := h.setKind
    obtain ⟨_, _, hget⟩ := h.getKind
    exact List.forall_mem_cons.mpr ⟨hset.phase_eq, List.forall_mem_cons.mpr
      ⟨hget.phase_eq, forall_mem_of_forall₂ h.parameters fun _ _ _ h => h.phase_eq⟩⟩
  case accessors => exact forall_mem_of_forall₂ h.accessors fun _ _ _ ⟨_, _, h⟩ => h.phase_eq
  case notice => exact List.forall_mem_singleton.mpr h.notice.phase_eq

/-- Blocks of one phase each ascend if their phases do. -/
theorem pairwise_flatten_of_phases : ∀ {phases : List Int} {blocks : List (List Rule)},
    List.Forall₂ (fun (phase : Int) block => ∀ r ∈ block, r.phase = phase) phases blocks → phases.Pairwise (· ≤ ·) →
      blocks.flatten.Pairwise fun r later => r.phase ≤ later.phase
  | _, _, .nil, _ => .nil
  | phase :: phases, block :: blocks, .cons hblock hrest, hphases => by
    obtain ⟨hfirst, hphases⟩ := List.pairwise_cons.mp hphases
    rw [List.flatten_cons, List.pairwise_append]
    have hlater : ∀ later ∈ blocks, ∀ s ∈ later, phase ≤ s.phase :=
      forall_mem_of_forall₂ hrest fun phase' hphase' later hphase s hs => hphase s hs ▸ hfirst phase' hphase'
    refine ⟨List.pairwise_of_forall_mem_list fun r hr s hs => ?_, pairwise_flatten_of_phases hrest hphases,
      fun r hr s hs => ?_⟩
    · exact Int.le_of_eq ((hblock r hr).trans (hblock s hs).symm)
    · obtain ⟨later, hmem, hs⟩ := List.mem_flatten.mp hs
      rw [hblock r hr]
      exact hlater later hmem s hs

/-- **Rules are put down in the order in which they are applied.** -/
theorem inOrder_rules (h : f.Of tables) : inOrder f.rules = f.rules := by
  have hascending : f.rules.Pairwise fun r later => r.phase ≤ later.phase :=
    pairwise_flatten_of_phases (phase_blocks h) (by decide)
  exact (inPhaseOrder_iff.mp ⟨.refl _, hascending, fun _ => rfl⟩).symm

end

end Catalog

end FlowTypes
