import FlowTypes.Catalog
import FlowTypes.Proofs.Patch.Recurrence
import FlowTypes.Proofs.Text.Closed

/-!
# Headers of classes

Headers are found in the declarations by their text, and the names of classes may be parts of one another or of the words
around them. All the same no header is mistaken for another: every one of them ends with the only brace in it, and the
blanks before the brace keep its words apart. So headers of different classes lie apart, and so do headers with and without
a base (`apart_classHeader`, `apart_extendedHeader`).

**A rule that gives a class its base or a new name replaces the headers of this class, and leaves the number of all others
as it is** (`patchText_headers`).
-/

namespace FlowTypes

open Occurrence (ClosedBy)

/-! ## Identifiers -/

namespace Text

/-- ASCII letters, digits, and the underscore. -/
def isIdentifierChar (c : Char) : Bool := c == '_' || Class.isAsciiAlphanumeric c

/-- Such characters, at least one, and no digit at the start. -/
def isIdentifier : Text → Bool
  | [] => false
  | c :: rest => !c.isDigit && (c :: rest).all isIdentifierChar

variable {t : Text}

theorem ne_nil_of_isIdentifier (h : t.isIdentifier = true) : t ≠ [] := by
  rintro rfl
  cases h

theorem isIdentifierChar_of_mem (h : t.isIdentifier = true) {c : Char} (hc : c ∈ t) : isIdentifierChar c = true := by
  cases t with
  | nil => cases hc
  | cons d rest =>
    simp only [isIdentifier, Bool.and_eq_true] at h
    exact List.all_eq_true.mp h.2 c hc

theorem not_mem_of_isIdentifier (h : t.isIdentifier = true) {c : Char} (hc : isIdentifierChar c = false) : c ∉ t :=
  fun hmem => Bool.false_ne_true (hc.symm.trans (isIdentifierChar_of_mem h hmem))

end Text

/-! ## Drafts that have their rules -/

/-- An action with a literal anchor makes sense, unless it puts the anchor in its own place. -/
theorem Action.accepts_literal {placement : Placement} {a content : Text} (ha : a ≠ [])
    (hac : placement = .over → ¬ a <:+: content) (target : Text) :
    (Action.amend placement (.literal a)).accepts target content = true := by
  have hvoid : (Anchor.literal a).isVoid = false := by simpa [Anchor.isVoid] using ha
  cases placement with
  | «over» =>
    have hoccurs : (Anchor.literal a).occursIn content = false := by
      rw [Bool.eq_false_iff, Ne, (Anchor.finds_literal ha).occursIn_iff_contains]
      exact hac rfl
    simp [accepts, hvoid, hoccurs]
  | after => simp [accepts, hvoid]
  | before => simp [accepts, hvoid]

/-- **A draft whose action makes sense has its rule.** -/
theorem Draft.exists_rule_of_accepts (placement : Placement) {d : Draft} {anchor : Anchor}
    (hedit : d.edit = (Action.amend placement anchor).edit.text) (hanchor : d.anchor = some anchor)
    (haccepts : (Action.amend placement anchor).accepts d.target d.content = true) :
    ∃ r, d.check = .ok r ∧ r.action = .amend placement anchor ∧ r.content = d.content := by
  have hvoid : anchor.isVoid = false := by
    cases placement <;> simp [Action.accepts] at haccepts <;> simp [haccepts]
  refine ⟨⟨d.name, d.phase, d.target, d.content, .amend placement anchor, haccepts⟩, ?_, rfl, rfl⟩
  unfold check
  rw [hedit, Edit.ofText?_text]
  cases placement <;> simp [Action.edit, anchored, hanchor, hvoid, withAction, haccepts]

namespace Catalog

/-! ## Shapes of headers -/

section
variable {C D B : Text}

/-- The last word of a header stands between the words before it and the brace. -/
theorem classHeader_eq (C : Text) : classHeader C = "declare class".toList ++ ' ' :: C ++ " \x7b".toList := rfl

theorem extendedHeader_eq (C B : Text) : extendedHeader C B =
    "declare class".toList ++ ' ' :: C ++ ' ' :: "extends".toList ++ ' ' :: B ++ " \x7b".toList := by
  have hwords : ∀ front word rest : Text, (front ++ [' ']) ++ C ++ (' ' :: word ++ [' ']) ++ B ++ rest =
      front ++ ' ' :: C ++ ' ' :: word ++ ' ' :: B ++ rest := by simp
  exact hwords "declare class".toList "extends".toList " \x7b".toList

theorem closedBy_brace {t : Text} (h : '\x7b' ∉ t) : ClosedBy '\x7b' (t ++ " \x7b".toList) :=
  ⟨t ++ [' '], (List.append_assoc t [' '] ['\x7b']).symm, by simpa using h⟩

theorem closedBy_classHeader (hC : C.isIdentifier = true) : ClosedBy '\x7b' (classHeader C) := by
  have hname := Text.not_mem_of_isIdentifier hC (c := '\x7b') (by decide)
  refine classHeader_eq C ▸ closedBy_brace ?_
  simp only [List.mem_append, List.mem_cons, not_or]
  exact ⟨by decide, by decide, hname⟩

theorem closedBy_extendedHeader (hC : C.isIdentifier = true) (hB : B.isIdentifier = true) :
    ClosedBy '\x7b' (extendedHeader C B) := by
  have hname := Text.not_mem_of_isIdentifier hC (c := '\x7b') (by decide)
  have hbase := Text.not_mem_of_isIdentifier hB (c := '\x7b') (by decide)
  refine extendedHeader_eq C B ▸ closedBy_brace ?_
  simp only [List.mem_append, List.mem_cons, not_or]
  exact ⟨⟨⟨by decide, by decide, hname⟩, by decide, by decide⟩, by decide, hbase⟩

/-- The word before the name tells a header from one with a base. -/
theorem not_suffix_words (front : Text) : ¬ "declare class".toList <:+ front ++ ' ' :: "extends".toList := by
  intro h
  have hwords := Occurrence.eq_and_suffix_of_suffix (x := ' ') (u := "declare".toList) (s := "class".toList)
    (t := "extends".toList) (w := []) (by decide) (by decide) (by simpa using h)
  exact absurd hwords.1 (by decide)

/-- **Headers of different classes lie apart.** -/
theorem apart_classHeader (hD : D.isIdentifier = true) (hC : C.isIdentifier = true) (hne : D ≠ C) :
    Occurrence.apart (classHeader D) (classHeader C) = true := by
  have hsuffix : ∀ {D C : Text}, D.isIdentifier = true → C.isIdentifier = true →
      classHeader D <:+ classHeader C → D = C := by
    intro D C hD hC h
    rw [classHeader_eq, classHeader_eq] at h
    exact (Occurrence.eq_and_suffix_of_suffix (Text.not_mem_of_isIdentifier hD (by decide))
      (Text.not_mem_of_isIdentifier hC (by decide)) h).1
  exact Occurrence.apart_of_closedBy (closedBy_classHeader hD) (closedBy_classHeader hC)
    (fun h => hne (hsuffix hD hC h)) (fun h => hne (hsuffix hC hD h).symm)

/-- **A header with a base lies apart from all headers without one**, that of its class among them. -/
theorem apart_extendedHeader (hD : D.isIdentifier = true) (hC : C.isIdentifier = true) (hB : B.isIdentifier = true) :
    Occurrence.apart (classHeader D) (extendedHeader C B) = true := by
  have hblank : ∀ {t : Text}, t.isIdentifier = true → ' ' ∉ t := fun h => Text.not_mem_of_isIdentifier h (by decide)
  refine Occurrence.apart_of_closedBy (closedBy_classHeader hD) (closedBy_extendedHeader hC hB) (fun h => ?_)
    fun h => ?_
  · rw [classHeader_eq, extendedHeader_eq] at h
    exact not_suffix_words _ (Occurrence.eq_and_suffix_of_suffix (hblank hD) (hblank hB) h).2
  · rw [classHeader_eq, extendedHeader_eq] at h
    have hwords := (Occurrence.eq_and_suffix_of_suffix (hblank hB) (hblank hD) h).2
    have hlength := hwords.length_le
    simp only [List.length_append, List.length_cons] at hlength
    omega

end

/-! ## Headers that are replaced -/

section
variable {C D B N : Text}

/-- **The rule over the header of a class takes all of these headers away and brings its content in for each of them.** A
header that lies apart from the content, and is of another class, is neither made nor broken. -/
theorem exists_overHeader (hC : C.isIdentifier = true) {content : Text} (hclosed : ClosedBy '\x7b' content)
    (hapart : Occurrence.apart (classHeader C) content = true) (family : Text) (phase : Int) (t : Text) :
    ∃ r p, (overHeader family phase C content).check = .ok r ∧ r.patchText t = .ok p ∧
      ¬ classHeader C <:+: p.text ∧
      Occurrence.countOf content p.text = Occurrence.countOf content t + Occurrence.countOf (classHeader C) t ∧
      ∀ D : Text, D.isIdentifier = true → D ≠ C → Occurrence.apart (classHeader D) content = true →
        Occurrence.countOf (classHeader D) p.text = Occurrence.countOf (classHeader D) t := by
  have hheader := closedBy_classHeader hC
  have hin := (Occurrence.apart_iff.mp hapart).1
  obtain ⟨r, hcheck, haction, hcontent⟩ := Draft.exists_rule_of_accepts .over (d := overHeader family phase C content)
    rfl rfl (Action.accepts_literal hheader.ne_nil (fun _ => hin) _)
  have hpatch := Rule.patchText_of_amend haction t
  rw [hcontent] at hpatch
  refine ⟨r, _, hcheck, hpatch, ?_, ?_, fun D hD hne hother => ?_⟩
  · have hdone := (Patch.edits_amend_amend_iff hheader.ne_nil fun _ => hin).mpr
      (Patch.not_recurs_of_apart hheader.ne_nil hapart .over) t
    exact (Patch.edits_amend_over_eq_zero_iff hheader.ne_nil).mp hdone
  · exact Patch.countOf_amend_over_self hheader.ne_nil hclosed.ne_nil (Occurrence.unbordered_of_closedBy hclosed)
      (Occurrence.apart_symm hapart) t
  · have hword := closedBy_classHeader hD
    exact Patch.countOf_amend_over_of_apart hheader.ne_nil hword.ne_nil (Occurrence.unbordered_of_closedBy hword)
      (apart_classHeader hD hC hne) hother t

/-- **A base and a new name go to the headers of their class only.** -/
theorem patchText_headers (hC : C.isIdentifier = true) (hB : B.isIdentifier = true) (hN : N.isIdentifier = true)
    (hne : N ≠ C) (tables : Tables) (t : Text) :
    (∃ r p, (inheritanceDraft C B).check = .ok r ∧ r.patchText t = .ok p ∧
      ¬ classHeader C <:+: p.text ∧
      (∀ D : Text, D.isIdentifier = true → D ≠ C →
        Occurrence.countOf (classHeader D) p.text = Occurrence.countOf (classHeader D) t) ∧
      Occurrence.countOf (extendedHeader C B) p.text =
        Occurrence.countOf (extendedHeader C B) t + Occurrence.countOf (classHeader C) t) ∧
    ∃ d r p, renameDrafts { tables with classRenames := [(C, N)] } = [d] ∧ d.check = .ok r ∧ r.patchText t = .ok p ∧
      ¬ classHeader C <:+: p.text ∧
      Occurrence.countOf (classHeader N) p.text =
        Occurrence.countOf (classHeader N) t + Occurrence.countOf (classHeader C) t ∧
      ∀ D : Text, D.isIdentifier = true → D ≠ C → D ≠ N →
        Occurrence.countOf (classHeader D) p.text = Occurrence.countOf (classHeader D) t := by
  constructor
  · obtain ⟨r, p, hcheck, hpatch, hgone, hgrown, hkept⟩ := exists_overHeader hC (closedBy_extendedHeader hC hB)
      (apart_extendedHeader hC hC hB) "extends" inheritancePhase t
    exact ⟨r, p, hcheck, hpatch, hgone, fun D hD hother => hkept D hD hother (apart_extendedHeader hD hC hB), hgrown⟩
  · obtain ⟨r, p, hcheck, hpatch, hgone, hgrown, hkept⟩ := exists_overHeader hC (closedBy_classHeader hN)
      (apart_classHeader hC hN hne.symm) "rename" renamePhase t
    exact ⟨_, r, p, rfl, hcheck, hpatch, hgone, hgrown,
      fun D hD hother hnew => hkept D hD hother (apart_classHeader hD hN hnew)⟩

end

/-- Declarations of two classes, the name of one of which begins the other. -/
def sampleHeaders : Text :=
  "declare class gdExporter \x7b\n\x7d;\ndeclare class gdExporterHelper \x7b\n\x7d;\ndeclare class gdExporter \x7b\n"

theorem patchText_headers_gdExporter :
    (∃ r p, (inheritanceDraft "gdExporter" "gdObject").check = .ok r ∧ r.patchText sampleHeaders = .ok p ∧
      ¬ classHeader "gdExporter" <:+: p.text ∧
      Occurrence.countOf (classHeader "gdExporterHelper") p.text = 1 ∧
      Occurrence.countOf (extendedHeader "gdExporter" "gdObject") p.text = 2) ∧
    ∃ d r p, renameDrafts .standard = [d] ∧ d.check = .ok r ∧ r.patchText sampleHeaders = .ok p ∧
      ¬ classHeader "gdExporter" <:+: p.text ∧
      Occurrence.countOf (classHeader "gdjsExporter") p.text = 2 ∧
      Occurrence.countOf (classHeader "gdExporterHelper") p.text = 1 := by
  obtain ⟨⟨r, p, hcheck, hpatch, hgone, hkept, hgrown⟩, hrename⟩ :=
    patchText_headers (C := "gdExporter") (B := "gdObject") (N := "gdjsExporter") (by decide) (by decide) (by decide)
      (by decide) .standard sampleHeaders
  refine ⟨⟨r, p, hcheck, hpatch, hgone, ?_, hgrown.trans (by decide)⟩, ?_⟩
  · exact (hkept "gdExporterHelper" (by decide) (by decide)).trans (by decide)
  · obtain ⟨d, r, p, hdraft, hcheck, hpatch, hgone, hgrown, hkept⟩ := hrename
    refine ⟨d, r, p, hdraft, hcheck, hpatch, hgone, hgrown.trans (by decide), ?_⟩
    exact (hkept "gdExporterHelper" (by decide) (by decide) (by decide)).trans (by decide)

end Catalog

end FlowTypes
