import FlowTypes.Proofs.Catalog.Headers

/-!
# Members after one header

Several rules insert their members after the header of the same class. Each of them looks for its own members anywhere
before the next header, so it finds them behind those of the others.

What a run of such rules makes of a text is seen part by part: **the headers stay where they are, and every part after a
header is filled by all rules of the run** (`gaps_patchEach`). Nothing takes members away again. So a rule that was in the
run has nothing left to do, whatever came after it (`patchEach_members`).
-/

namespace FlowTypes

open Occurrence (Gaps)

/-! ## Runs on a text -/

/-- Rules applied to a text one after the other. -/
def Rule.patchEach : List Rule → Text → Except RuleFault Text
  | [], t => .ok t
  | r :: rest, t => do
    let patched ← r.patchText t
    patchEach rest patched.text

namespace Patch

/-- A part after several contents were put at its start, unless it held them. -/
def fillEach (contents : List Text) (gap : Text) : Text := contents.foldl (fun gap content => fill content gap) gap

theorem suffix_fillEach (contents : List Text) (gap : Text) : gap <:+ fillEach contents gap := by
  induction contents generalizing gap with
  | nil => exact List.suffix_rfl
  | cons content contents ih => exact (suffix_fill content gap).trans (ih (fill content gap))

/-- **What was put into a part is in it at the end**, whatever was put there before and after. -/
theorem infix_fillEach {content : Text} {contents : List Text} (h : content ∈ contents) (gap : Text) :
    content <:+: fillEach contents gap := by
  induction contents generalizing gap with
  | nil => cases h
  | cons first contents ih =>
    rcases List.mem_cons.mp h with rfl | h
    · exact (infix_fill content gap).trans (suffix_fillEach contents (fill content gap)).isInfix
    · exact ih h (fill first gap)

end Patch

/-- The rule inserts content after the literal anchor, and the anchor does not recur. -/
structure Rule.Follows (a : Text) (r : Rule) : Prop where
  action : r.action = .amend .after (.literal a)
  not_recurs : ¬ Patch.Recurs .after a r.content

section
variable {a t gap : Text} {gaps : List Text} {rules : List Rule}

/-- **A run of rules at one anchor fills the parts after the anchors**, and the anchors stay as they are. -/
theorem gaps_patchEach (hrules : ∀ r ∈ rules, r.Follows a) (h : Gaps a t (gap :: gaps)) :
    ∃ t', Rule.patchEach rules t = .ok t' ∧
      Gaps a t' (gap :: gaps.map (Patch.fillEach (rules.map Rule.content))) := by
  induction rules generalizing t gaps with
  | nil =>
    have hsame : gaps.map (Patch.fillEach []) = gaps := List.map_id gaps
    refine ⟨t, rfl, ?_⟩
    rwa [List.map_nil, hsame]
  | cons r rules ih =>
    have hr := hrules r List.mem_cons_self
    have ha : a ≠ [] := Rule.anchor_ne_nil hr.action
    have hstep := Patch.gaps_fill hr.not_recurs h
    rw [← Patch.text_amend_after ha h] at hstep
    obtain ⟨t', hrest, hgaps⟩ := ih (fun r hr => hrules r (List.mem_cons_of_mem _ hr)) hstep
    rw [List.map_map] at hgaps
    refine ⟨t', ?_, hgaps⟩
    rw [Rule.patchEach, Rule.patchText_of_amend hr.action]
    exact hrest

/-- **After a run at one anchor no rule of the run has anything left to do, and the anchors are as many as before.** -/
theorem exists_patchEach (hrules : ∀ r ∈ rules, r.Follows a) (ha : a ≠ []) (t : Text) :
    ∃ t', Rule.patchEach rules t = .ok t' ∧ Occurrence.countOf a t' = Occurrence.countOf a t ∧
      ∀ r ∈ rules, r.patchText t' =
        .ok ⟨t', if Occurrence.occursIn a t' then .alreadyApplied else .anchorMissed, 0⟩ := by
  obtain ⟨gaps, hgaps⟩ := Occurrence.exists_gaps ha t
  obtain ⟨gap, gaps, rfl⟩ := List.exists_cons_of_ne_nil hgaps.ne_nil
  obtain ⟨t', hrun, hgaps'⟩ := gaps_patchEach hrules hgaps
  refine ⟨t', hrun, ?_, fun r hr => ?_⟩
  · have hbefore := Occurrence.countOf_of_gaps ha hgaps
    have hafter := Occurrence.countOf_of_gaps ha hgaps'
    simp only [List.length_cons, List.length_map] at hbefore hafter
    omega
  · have hzero : (Patch.amend .after (.literal a) r.content t').edits = 0 :=
      Patch.edits_amend_after_eq_zero ha hgaps'
        (List.forall_mem_map.mpr fun gap _ => Patch.infix_fillEach (List.mem_map_of_mem hr) gap)
    have hoccurs : (Anchor.literal a).occursIn t' = Occurrence.occursIn a t' := by
      rw [Bool.eq_iff_iff, (Anchor.finds_literal ha).occursIn_iff_contains, Occurrence.occursIn_iff_infix]
    rw [Rule.patchText_of_amend (hrules r hr).action, Patch.amend_of_edits_eq_zero hzero,
      Patch.status_amend_of_edits_eq_zero hzero, hoccurs]
    rfl

end

namespace Catalog

/-! ## Lines of members -/

section
variable {C : Text} {lines : List Text}

theorem not_mem_memberLines {c : Char} (hbreak : c ≠ '\n') (hblank : c ≠ ' ') (h : ∀ line ∈ lines, c ∉ line) :
    c ∉ memberLines lines := by
  intro hc
  obtain ⟨line, hline, hc⟩ := List.mem_flatMap.mp hc
  split at hc
  · exact hbreak (List.mem_singleton.mp hc)
  · rcases List.mem_append.mp hc with hc | hc
    · rcases List.mem_cons.mp hc with hc | hc
      · exact hbreak hc
      · exact hblank (List.eq_of_mem_replicate (n := 2) hc)
    · exact h line hline hc

/-- Members end with a semicolon or with an empty line. -/
theorem getLast?_memberLines (hne : lines ≠ []) (h : ∀ line ∈ lines, line = [] ∨ line.getLast? = some ';') :
    ∃ c, (memberLines lines).getLast? = some c ∧ (c = ';' ∨ c = '\n') := by
  have hlast := h _ (List.getLast_mem hne)
  rw [← List.dropLast_concat_getLast hne, memberLines, List.flatMap_append, List.flatMap_singleton]
  generalize lines.getLast hne = line at hlast
  rcases hlast with rfl | hlast
  · exact ⟨'\n', List.getLast?_concat, .inr rfl⟩
  · have hline : line.isEmpty = false := by
      cases line with
      | nil => cases hlast
      | cons => rfl
    refine ⟨';', ?_, .inl rfl⟩
    rw [hline, if_neg Bool.false_ne_true, List.getLast?_append, List.getLast?_append, hlast]
    rfl

/-- **A header does not recur in members**, which hold no brace and do not end like anything in a header. -/
theorem not_recurs_memberLines (hC : C.isIdentifier = true)
    (hlines : ∀ line ∈ lines, (line = [] ∨ line.getLast? = some ';') ∧ '\x7b' ∉ line) :
    ¬ Patch.Recurs .after (classHeader C) (memberLines lines) := by
  by_cases hne : lines = []
  · subst hne
    exact fun h => h.1 rfl
  have hheader := closedBy_classHeader hC
  obtain ⟨c, hc, hend⟩ := getLast?_memberLines hne fun line hline => (hlines line hline).1
  have hbrace : '\x7b' ∉ memberLines lines :=
    not_mem_memberLines (by decide) (by decide) fun line hline => (hlines line hline).2
  have hname : ∀ c, Text.isIdentifierChar c = false → c ∉ C := fun c => Text.not_mem_of_isIdentifier hC
  have hother : c ∉ classHeader C := by
    rw [classHeader_eq]
    rcases hend with rfl | rfl <;> simp only [List.mem_append, List.mem_cons, not_or]
    · exact ⟨⟨by decide, by decide, hname _ (by decide)⟩, by decide⟩
    · exact ⟨⟨by decide, by decide, hname _ (by decide)⟩, by decide⟩
  exact Patch.not_recurs_of_apart hheader.ne_nil
    (Occurrence.apart_of_ends hheader.getLast? hbrace hc hother) .after

end

/-! ## Rules with members -/

/-- The rule inserts lines of members after the header of the class, each of them empty or ended by a semicolon. -/
structure InsertsMembers (C : Text) (r : Rule) : Prop where
  action : r.action = .amend .after (.literal (classHeader C))
  content : ∃ lines, r.content = memberLines lines ∧
    ∀ line ∈ lines, (line = [] ∨ line.getLast? = some ';') ∧ '\x7b' ∉ line

section
variable {C : Text} {rules : List Rule}

/-- **Rules that insert members after one header share it**, in whatever order and however often they run: the number of
headers stays, and a rule of the run finds its members there at the end. -/
theorem patchEach_members (hC : C.isIdentifier = true) (hrules : ∀ r ∈ rules, InsertsMembers C r) (t : Text) :
    ∃ t', Rule.patchEach rules t = .ok t' ∧
      Occurrence.countOf (classHeader C) t' = Occurrence.countOf (classHeader C) t ∧
      ∀ r ∈ rules, r.patchText t' =
        .ok ⟨t', if Occurrence.occursIn (classHeader C) t' then .alreadyApplied else .anchorMissed, 0⟩ := by
  refine exists_patchEach (fun r hr => ?_) (closedBy_classHeader hC).ne_nil t
  obtain ⟨lines, hcontent, hlines⟩ := (hrules r hr).content
  exact ⟨(hrules r hr).action, hcontent ▸ not_recurs_memberLines hC hlines⟩

end

/-- Members for one class, some of which are part of others. -/
def sampleMembers : List Rule :=
  [⟨"constants", 20, "gdvariable.js", memberLines ["static Unknown: 0;", "static String: 1;"],
      .amend .after (.literal (classHeader "gdVariable")), by decide⟩,
    ⟨"constant", 20, "gdvariable.js", memberLines ["static Unknown: 0;"],
      .amend .after (.literal (classHeader "gdVariable")), by decide⟩,
    ⟨"helper", 30, "gdvariable.js", memberLines ["", "isEmpty(): boolean;"],
      .amend .after (.literal (classHeader "gdVariable")), by decide⟩]

theorem patchEach_members_gdVariable : ∃ t', Rule.patchEach sampleMembers (classHeader "gdVariable") = .ok t' ∧
    Occurrence.countOf (classHeader "gdVariable") t' = 1 ∧
    ∀ r ∈ sampleMembers, r.patchText t' = .ok ⟨t', .alreadyApplied, 0⟩ := by
  have hmembers : ∀ r ∈ sampleMembers, InsertsMembers "gdVariable" r := by
    simp only [sampleMembers, List.forall_mem_cons]
    exact ⟨⟨rfl, _, rfl, by decide⟩, ⟨rfl, _, rfl, by decide⟩, ⟨rfl, _, rfl, by decide⟩, fun _ h => absurd h List.not_mem_nil⟩
  obtain ⟨t', hrun, hcount, hagain⟩ := patchEach_members (by decide) hmembers (classHeader "gdVariable")
  have hone : Occurrence.countOf (classHeader "gdVariable") t' = 1 := hcount.trans (by decide)
  have hoccurs : classHeader "gdVariable" <:+: t' := by
    refine Decidable.byContradiction fun hnone => ?_
    rw [(Occurrence.countOf_eq_zero_iff (by decide)).mpr hnone] at hone
    cases hone
  refine ⟨t', hrun, hone, fun r hr => ?_⟩
  rw [hagain r hr, Occurrence.occursIn_iff_infix.mpr hoccurs]
  rfl

end Catalog

end FlowTypes
