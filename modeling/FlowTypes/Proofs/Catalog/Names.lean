import FlowTypes.Proofs.Catalog.Members
import FlowTypes.Proofs.Patch.Settled
import FlowTypes.Proofs.Pattern.Escape

/-!
# Rules that are made from names

The tables of the catalog are names of classes, of attributes and of members of enumerations, and the families put them
into fixed texts. Which rules come out, and what they do, must not depend on the names: **whatever identifiers the tables
hold, the drafts for bases, new names, constants and accessors have their rules, and a rule finds its work done in its own
result** (`FromNames.exists_rule_again`).

For headers this is seen from their shapes. The anchor of accessors is a pattern, which has to start a word. What it looks
for is read off the written form (`needle?_attributeSource`); the accessors hold a colon only behind a parenthesis, so they
declare no attribute (`apart_accessorLines`).
-/

namespace FlowTypes

open Occurrence (ClosedBy)

/-! ## Second applications -/

namespace Patch

variable {placement : Placement} {anchor : Anchor} {content t : Text}

theorem status_amend_cases (placement : Placement) (anchor : Anchor) (content t : Text) :
    (amend placement anchor content t).status = .applied ∨ (amend placement anchor content t).status = .alreadyApplied ∨
      (amend placement anchor content t).status = .anchorMissed := by
  unfold amend amendAt unmatched
  dsimp only
  split
  · split <;> simp
  · split <;> simp

/-- **An edit that has nothing left to do says so**, unless it missed before. -/
theorem amend_amend_of_edits_eq_zero {n : Needle} (hf : anchor.Finds n) (hplacement : placement ≠ .before)
    (hdone : (amend placement anchor content (amend placement anchor content t).text).edits = 0) :
    amend placement anchor content (amend placement anchor content t).text =
      ⟨(amend placement anchor content t).text,
        if (amend placement anchor content t).status = .anchorMissed then .anchorMissed else .alreadyApplied, 0⟩ := by
  rw [amend_of_edits_eq_zero hdone, Patched.mk.injEq]
  refine ⟨rfl, ?_, rfl⟩
  by_cases hfirst : (amend placement anchor content t).edits = 0
  · -- the first application left the text as it was
    have htext := congrArg Patched.text (amend_of_edits_eq_zero hfirst)
    rw [htext]
    rcases status_amend_cases placement anchor content t with h | h | h
    · exact absurd ((edits_amend_pos_iff placement anchor content t).mpr h) (by omega)
    · rw [h, if_neg nofun]
    · rw [h, if_pos rfl]
  · have happlied := (edits_amend_pos_iff placement anchor content t).mp (Nat.pos_of_ne_zero hfirst)
    rw [happlied, if_neg nofun]
    -- what was found once is found again
    have hfinds : Plan.FindsIn ⟨placement, n, content⟩ t :=
      (Plan.missed_amend_iff (p := ⟨placement, n, content⟩) hf).mp (congrArg Status.missed happlied)
    have hmissed := (Plan.missed_amend_iff (p := ⟨placement, n, content⟩) hf).mpr (hfinds.amend_self hf hplacement)
    rcases status_amend_cases placement anchor content (amend placement anchor content t).text with h | h | h
    · exact absurd ((edits_amend_pos_iff placement anchor content _).mpr h) (by omega)
    · exact h
    · exact absurd (hmissed.symm.trans (congrArg Status.missed h)) nofun

end Patch

/-- The draft has a rule, which finds its work done in its own result. It says that it is done already, or that it misses
its anchor if it did before. -/
def Draft.SettlesAtOnce (d : Draft) : Prop :=
  ∃ r, d.check = .ok r ∧ ∀ t, ∃ p, r.patchText t = .ok p ∧
    r.patchText p.text = .ok ⟨p.text, if p.status = .anchorMissed then .anchorMissed else .alreadyApplied, 0⟩

namespace Draft

variable {d : Draft} {anchor : Anchor}

theorem settlesAtOnce (placement : Placement) (hedit : d.edit = (Action.amend placement anchor).edit.text)
    (hanchor : d.anchor = some anchor)
    (haccepts : (Action.amend placement anchor).accepts d.target d.content = true) {n : Needle} (hf : anchor.Finds n)
    (hplacement : placement ≠ .before)
    (hdone : ∀ t, (Patch.amend placement anchor d.content (Patch.amend placement anchor d.content t).text).edits = 0) :
    d.SettlesAtOnce := by
  obtain ⟨r, hcheck, haction, hcontent⟩ := exists_rule_of_accepts placement hedit hanchor haccepts
  refine ⟨r, hcheck, fun t => ⟨_, Rule.patchText_of_amend haction t, ?_⟩⟩
  rw [Rule.patchText_of_amend haction, hcontent, Patch.amend_amend_of_edits_eq_zero hf hplacement (hdone t)]

/-- A draft at a literal anchor that does not recur. -/
theorem settlesAtOnce_of_not_recurs (placement : Placement) {a : Text}
    (hedit : d.edit = (Action.amend placement (.literal a)).edit.text)
    (hanchor : d.anchor = some (.literal a)) (ha : a ≠ []) (hplacement : placement ≠ .before)
    (hac : placement = .over → ¬ a <:+: d.content) (hr : ¬ Patch.Recurs placement a d.content) : d.SettlesAtOnce :=
  settlesAtOnce placement hedit hanchor (Action.accepts_literal ha hac d.target) (Anchor.finds_literal ha) hplacement
    ((Patch.edits_amend_amend_iff ha hac).mpr hr)

end Draft

theorem Text.isWord_of_isIdentifierChar {c : Char} (h : isIdentifierChar c = true) : Class.isWord c = true := by
  simp only [isIdentifierChar, Bool.or_eq_true] at h
  rw [Class.isWord, Bool.or_eq_true]
  refine h.imp_right fun hascii => ?_
  have hsmall : c.toNat < 128 := by
    simp only [Class.isAsciiAlphanumeric, Bool.or_eq_true, Bool.and_eq_true, decide_eq_true_eq] at hascii
    omega
  rwa [if_pos hsmall]

theorem Text.not_mem_ofNat {c : Char} (hc : c.isDigit = false) (n : Nat) : c ∉ ofNat n := fun h =>
  Bool.false_ne_true (hc.symm.trans (Nat.isDigit_of_mem_toDigits (by decide) (by decide) h))

namespace Catalog

/-! ## Headers and constants -/

section
variable {C B : Text}

theorem settlesAtOnce_overHeader (hC : C.isIdentifier = true) {content : Text}
    (hapart : Occurrence.apart (classHeader C) content = true) (family : Text) (phase : Int) :
    (overHeader family phase C content).SettlesAtOnce := by
  have hne := (closedBy_classHeader hC).ne_nil
  exact Draft.settlesAtOnce_of_not_recurs .over rfl rfl hne nofun
    (fun _ => (Occurrence.apart_iff.mp hapart).1) (Patch.not_recurs_of_apart hne hapart .over)

theorem settlesAtOnce_afterHeader (hC : C.isIdentifier = true) {lines : List Text}
    (hlines : ∀ line ∈ lines, (line = [] ∨ line.getLast? = some ';') ∧ '\x7b' ∉ line) (family : Text) (phase : Int) :
    (afterHeader family phase C (memberLines lines)).SettlesAtOnce :=
  Draft.settlesAtOnce_of_not_recurs .after rfl rfl (closedBy_classHeader hC).ne_nil nofun nofun
    (not_recurs_memberLines hC hlines)

theorem constantLines_spec {members : List Text} (h : ∀ name ∈ members, Text.isIdentifier name = true) :
    ∀ line ∈ constantLines members, (line = [] ∨ line.getLast? = some ';') ∧ '\x7b' ∉ line := by
  intro line hline
  obtain ⟨value, hvalue, rfl⟩ := List.mem_mapIdx.mp hline
  have hname := Text.not_mem_of_isIdentifier (h _ (List.getElem_mem hvalue)) (c := '\x7b') (by decide)
  refine ⟨.inr List.getLast?_concat, ?_⟩
  simp only [List.mem_append, not_or]
  exact ⟨⟨⟨⟨by decide, hname⟩, by decide⟩, Text.not_mem_ofNat (by decide) value⟩, by decide⟩

end

/-! ## Accessors -/

/-- The declaration of an attribute. -/
def attributeLine (a : Attribute) : Text := a.name ++ ": " ++ a.type ++ ";"

/-- The declarations of its accessors. -/
def accessorLines (a : Attribute) : List Text :=
  ["set_" ++ a.name ++ "(" ++ a.type ++ "): void;", "get_" ++ a.name ++ "(): " ++ a.type ++ ";"]

section
variable {a : Attribute}

/-- The pattern of an attribute is read as the boundary of a word and a row of characters. -/
theorem read?_attributeSource (a : Attribute) :
    Pattern.read? (attributeSource a) = some (Pattern.sequence (.wordBoundary :: (attributeLine a).map .char)) := by
  have hassoc : ∀ b n c t s : Text, b ++ n ++ c ++ t ++ s = b ++ (n ++ (c ++ (t ++ (s ++ [])))) := by simp
  have hboundary : ∀ rest : Text, Pattern.tokensFrom 0 ("\\b".toList ++ rest) =
      (Pattern.tokensFrom 0 rest).map (.atom .wordBoundary :: ·) := fun _ => rfl
  have hnil : Pattern.tokensFrom 0 [] = some [] := rfl
  have htokens : Pattern.tokensFrom 0 (attributeSource a) =
      some ((Regex.wordBoundary :: (attributeLine a).map .char).map .atom) := by
    rw [attributeSource, hassoc, hboundary, Pattern.tokensFrom_escape, Pattern.tokensFrom_append (by decide),
      Pattern.tokensFrom_escape, Pattern.tokensFrom_append (by decide), hnil]
    simp [Pattern.atoms, attributeLine, Function.comp_def]
  rw [Pattern.read?, htokens, ← Pattern.assemble_start]
  exact if_pos (Pattern.repeatWell_atoms _)

/-- **The anchor of accessors looks for the declaration of the attribute where a word starts.** -/
theorem needle?_attributeSource (hname : a.name.isIdentifier = true) : ∃ anchor,
    Anchor.ofPattern? (attributeSource a) = some anchor ∧ anchor.isVoid = false ∧
      anchor.needle? = some ⟨attributeLine a, true⟩ := by
  obtain ⟨c, rest, hrest⟩ := List.exists_cons_of_ne_nil (Text.ne_nil_of_isIdentifier hname)
  have hword : Text.Class.isWord c = true :=
    Text.isWord_of_isIdentifierChar (Text.isIdentifierChar_of_mem hname (hrest ▸ List.mem_cons_self))
  have hline : attributeLine a = c :: (rest ++ ": " ++ a.type ++ ";") := by
    rw [attributeLine, hrest]
    rfl
  have hne : (attributeLine a).map Regex.char ≠ [] := by
    rw [hline]
    nofun
  refine ⟨.pattern (attributeSource a) (.seq .wordBoundary (Pattern.sequence ((attributeLine a).map .char))), ?_, rfl,
    ?_⟩
  · rw [Anchor.ofPattern?, read?_attributeSource, Pattern.sequence_cons hne]
    rfl
  · rw [Anchor.needle?, Pattern.letters?_sequence, hline]
    exact if_pos hword

theorem closedBy_attributeLine (hname : a.name.isIdentifier = true) (htype : a.type.isIdentifier = true) :
    ClosedBy ';' (attributeLine a) := by
  refine ⟨a.name ++ ": " ++ a.type, rfl, ?_⟩
  simp only [List.mem_append, not_or]
  exact ⟨⟨Text.not_mem_of_isIdentifier hname (by decide), by decide⟩, Text.not_mem_of_isIdentifier htype (by decide)⟩

theorem not_mem_attributeLine (hname : a.name.isIdentifier = true) (htype : a.type.isIdentifier = true) {c : Char}
    (hc : Text.isIdentifierChar c = false) (hcolon : c ∉ (": " : Text)) (hend : c ∉ (";" : Text)) :
    c ∉ attributeLine a := by
  simp only [attributeLine, List.mem_append, not_or]
  exact ⟨⟨⟨Text.not_mem_of_isIdentifier hname hc, hcolon⟩, Text.not_mem_of_isIdentifier htype hc⟩, hend⟩

/-- What stands between the colons of the accessors. -/
theorem memberLines_accessorLines (a : Attribute) : memberLines (accessorLines a) =
    ("\n  set_" ++ a.name ++ "(" ++ a.type) ++ [')', ':'] ++
      ((" void;\n  get_" ++ a.name ++ "(") ++ [')', ':'] ++ (" " ++ a.type ++ ";")) := by
  have hassoc : ∀ indent set get name type void close : Text,
      (indent ++ (set ++ name ++ ['('] ++ type ++ ([')', ':'] ++ void))) ++
        ((indent ++ (get ++ name ++ (['('] ++ [')', ':'] ++ [' ']) ++ type ++ close)) ++ []) =
      (indent ++ set ++ name ++ ['('] ++ type) ++ [')', ':'] ++
        ((void ++ indent ++ get ++ name ++ ['(']) ++ [')', ':'] ++ ([' '] ++ type ++ close)) := by simp
  exact hassoc "\n  " "set_" "get_" a.name a.type " void;" ";"

theorem getLast?_accessorLines (a : Attribute) : (memberLines (accessorLines a)).getLast? = some ';' := by
  rw [memberLines_accessorLines, ← List.append_assoc, ← List.append_assoc]
  exact List.getLast?_concat

/-- Colons in the accessors follow a parenthesis, and not a name. -/
theorem not_infix_accessorLines (hname : a.name.isIdentifier = true) (htype : a.type.isIdentifier = true) {c : Char}
    (hc : Text.isIdentifierChar c = true) : ¬ [c, ':'] <:+: memberLines (accessorLines a) := by
  have hapart : Occurrence.apart [c, ':'] [')', ':'] = true := by
    have hcolon : c ≠ ':' := fun h => by subst h; cases hc
    have hclose : c ≠ ')' := fun h => by subst h; cases hc
    simp [Occurrence.apart, Occurrence.occursIn, Occurrence.meets, List.isPrefixOf, hclose, hcolon.symm, hclose.symm]
  have hfree : ∀ {t : Text}, ':' ∉ t → ¬ [c, ':'] <:+: t := fun ht hin =>
    ht (hin.subset (List.mem_cons_of_mem c List.mem_cons_self))
  have hcolon : ':' ∉ a.name := Text.not_mem_of_isIdentifier hname (by decide)
  have hcolon' : ':' ∉ a.type := Text.not_mem_of_isIdentifier htype (by decide)
  rw [memberLines_accessorLines]
  refine Occurrence.not_infix_insert hapart (hfree ?_) (Occurrence.not_infix_insert hapart (hfree ?_) (hfree ?_))
  all_goals simp only [List.mem_append, not_or]
  · exact ⟨⟨⟨by decide, hcolon⟩, by decide⟩, hcolon'⟩
  · exact ⟨⟨by decide, hcolon⟩, by decide⟩
  · exact ⟨⟨by decide, hcolon'⟩, by decide⟩

/-- **The accessors do not declare the attribute again**, neither alone nor with what stands beside them. -/
theorem apart_accessorLines (hname : a.name.isIdentifier = true) (htype : a.type.isIdentifier = true) :
    Occurrence.apart (attributeLine a) (memberLines (accessorLines a)) = true := by
  have hclosed := closedBy_attributeLine hname htype
  have hin : ¬ attributeLine a <:+: memberLines (accessorLines a) := by
    have hne := Text.ne_nil_of_isIdentifier hname
    have hcolon : [a.name.getLast hne, ':'] <:+: attributeLine a := by
      refine ⟨a.name.dropLast, " " ++ a.type ++ ";", ?_⟩
      conv => rhs; rw [attributeLine, ← List.dropLast_concat_getLast hne]
      simp only [List.append_assoc, List.cons_append, List.nil_append]
      rfl
    exact fun h => not_infix_accessorLines hname htype
      (Text.isIdentifierChar_of_mem hname (List.getLast_mem _)) (hcolon.trans h)
  refine Occurrence.apart_iff.mpr ⟨hin, fun h => ?_, ?_, ?_⟩
  · exact not_mem_attributeLine hname htype (c := '(') (by decide) (by decide) (by decide) (h.subset (by
      rw [memberLines_accessorLines]; simp))
  · exact Occurrence.meets_eq_false_of_head? rfl
      (not_mem_attributeLine hname htype (c := '\n') (by decide) (by decide) (by decide))
  · exact Occurrence.meets_eq_false_of_closedBy (getLast?_accessorLines a) hclosed fun h => hin h.isInfix

end

/-- The edit that puts the accessors after the declaration. -/
def accessorPlan (a : Attribute) : Patch.Plan := ⟨.after, ⟨attributeLine a, true⟩, memberLines (accessorLines a)⟩

theorem sound_accessorPlan {a : Attribute} (hname : a.name.isIdentifier = true) (htype : a.type.isIdentifier = true) :
    (accessorPlan a).sound = true := by
  have hclosed := closedBy_attributeLine hname htype
  have hreturn : '\r' ∉ memberLines (accessorLines a) := by
    have hline : ∀ front middle back : Text, '\r' ∉ front → '\r' ∉ middle → '\r' ∉ back →
        '\r' ∉ front ++ a.name ++ middle ++ a.type ++ back := by
      intro front middle back hfront hmiddle hback
      simp only [List.mem_append, not_or]
      exact ⟨⟨⟨⟨hfront, Text.not_mem_of_isIdentifier hname (by decide)⟩, hmiddle⟩,
        Text.not_mem_of_isIdentifier htype (by decide)⟩, hback⟩
    refine not_mem_memberLines (by decide) (by decide) ?_
    rw [accessorLines, List.forall_mem_cons, List.forall_mem_cons]
    exact ⟨hline _ _ _ (by decide) (by decide) (by decide), hline _ _ _ (by decide) (by decide) (by decide), nofun⟩
  simp [Patch.Plan.sound, accessorPlan, hclosed.ne_nil, hreturn, Occurrence.unbordered_of_closedBy hclosed,
    apart_accessorLines hname htype, hclosed.getLast?, getLast?_accessorLines]

theorem settlesAtOnce_of_mem_accessorDrafts {tables : Tables} {d : Draft}
    (hattributes : ∀ a ∈ tables.attributeAccessors, Text.isIdentifier a.name = true ∧ Text.isIdentifier a.type = true)
    (hd : d ∈ accessorDrafts tables) : d.SettlesAtOnce := by
  obtain ⟨a, ha, rfl⟩ := List.mem_map.mp hd
  obtain ⟨hname, htype⟩ := hattributes a ha
  obtain ⟨anchor, hanchor, hvoid, hneedle⟩ := needle?_attributeSource hname
  have hf : anchor.Finds (accessorPlan a).needle := Anchor.finds_of_needle? hneedle
  have hsound := sound_accessorPlan hname htype
  refine Draft.settlesAtOnce .after rfl hanchor ?_ hf nofun fun t => ?_
  · simp [Action.accepts, hvoid]
  · have hstatus := (Patch.amend_of_settled hf hsound (Patch.Plan.settled_amend hf hsound (t := t))).2
    exact Nat.eq_zero_of_not_pos fun hpos => hstatus ((Patch.edits_amend_pos_iff _ _ _ _).mp hpos)

/-! ## Drafts from names -/

/-- Drafts for bases, new names, constants and accessors that are made from identifiers. -/
inductive FromNames : Draft → Prop
  | base {C B : Text} (hC : C.isIdentifier = true) (hB : B.isIdentifier = true) : FromNames (inheritanceDraft C B)
  | rename {tables : Tables} {d : Draft} (hnames : ∀ pair ∈ tables.classRenames,
      Text.isIdentifier pair.1 = true ∧ Text.isIdentifier pair.2 = true ∧ pair.1 ≠ pair.2)
      (hd : d ∈ renameDrafts tables) : FromNames d
  | constants {spec : EnumSpec} {d : Draft} (howner : spec.owner.isIdentifier = true)
      (hmembers : ∀ name ∈ spec.members, Text.isIdentifier name = true) (hd : d ∈ enumDrafts spec)
      (hedit : d.edit = Edit.insertAfter.text) : FromNames d
  | accessors {tables : Tables} {d : Draft} (hattributes : ∀ a ∈ tables.attributeAccessors,
      Text.isIdentifier a.owner = true ∧ Text.isIdentifier a.name = true ∧ Text.isIdentifier a.type = true)
      (hd : d ∈ accessorDrafts tables) : FromNames d

/-- **Whatever identifiers they are made from, these drafts have their rules, and the rules find nothing left to do in their
own results.** -/
theorem FromNames.exists_rule_again {d : Draft} (h : FromNames d) :
    ∃ r, d.check = .ok r ∧ ∀ t, ∃ p, r.patchText t = .ok p ∧
      r.patchText p.text = .ok ⟨p.text, if p.status = .anchorMissed then .anchorMissed else .alreadyApplied, 0⟩ := by
  show d.SettlesAtOnce
  cases h with
  | base hC hB => exact settlesAtOnce_overHeader hC (apart_extendedHeader hC hC hB) _ _
  | rename hnames hd =>
    obtain ⟨pair, hpair, rfl⟩ := List.mem_map.mp hd
    obtain ⟨hold, hnew, hne⟩ := hnames pair hpair
    exact settlesAtOnce_overHeader hold (apart_classHeader hold hnew hne) _ _
  | @constants spec _ howner hmembers hd hedit =>
    rcases List.mem_append.mp hd with hd | hd
    · -- the file of the type is written anew
      split at hd
      · cases hd
      · rw [List.mem_singleton.mp hd] at hedit
        have hne : Edit.create.text ≠ Edit.insertAfter.text := by decide
        exact absurd hedit hne
    · split at hd
      · rw [List.mem_singleton.mp hd]
        exact settlesAtOnce_afterHeader howner (constantLines_spec hmembers) _ _
      · cases hd
  | accessors hattributes hd => exact settlesAtOnce_of_mem_accessorDrafts (fun a ha => (hattributes a ha).2) hd

theorem exists_rule_again_each :
    (inheritanceDraft "gdTextObject" "gdObjectConfiguration").SettlesAtOnce ∧
      (∃ d ∈ renameDrafts .standard, d.SettlesAtOnce) ∧
      (∃ d ∈ enumDrafts ⟨"gdVariable", none, ["Unknown", "String"], true⟩, d.SettlesAtOnce) ∧
      ∃ d ∈ accessorDrafts .standard, d.SettlesAtOnce := by
  have hrename : ∀ d ∈ renameDrafts .standard, d.SettlesAtOnce := fun d hd =>
    FromNames.exists_rule_again (.rename (by decide) hd)
  have hconstants : ∀ d ∈ enumDrafts ⟨"gdVariable", none, ["Unknown", "String"], true⟩, d.SettlesAtOnce := fun d hd =>
    FromNames.exists_rule_again (.constants (by decide) (by decide) hd (by rw [List.mem_singleton.mp hd]; rfl))
  have haccessors : ∀ d ∈ accessorDrafts .standard, d.SettlesAtOnce := fun d hd =>
    FromNames.exists_rule_again (.accessors (by decide) hd)
  exact ⟨FromNames.exists_rule_again (.base (by decide) (by decide)),
    ⟨_, List.mem_cons_self, hrename _ List.mem_cons_self⟩,
    ⟨_, List.mem_cons_self, hconstants _ List.mem_cons_self⟩,
    ⟨_, List.mem_cons_self, haccessors _ List.mem_cons_self⟩⟩

end Catalog

end FlowTypes
