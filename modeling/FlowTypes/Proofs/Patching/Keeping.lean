import FlowTypes.Proofs.FileTree.Closed
import FlowTypes.Proofs.Patch.Keeping
import FlowTypes.Proofs.Patch.Recurrence
import FlowTypes.Proofs.Patching.Outcomes
import FlowTypes.Proofs.Patching.Rest

/-!
# Words that a run keeps

What an edit keeps in a text is kept in a file: it may be written anew, and it is read with other line ends then, but
a word without carriage returns is read as it stands (`Holds.revise`). So a word that all rules of a run keep is there
after the run if it was there before (`Catalog.holds_applyEach`).

A rule of a run that finds its anchor brings its content in. If the rules before it keep its anchor and the rules
after it keep its content, **the rule finds its anchor in any case, and its content is there at the end**
(`Catalog.holds_content_applyEach`).
-/

namespace FlowTypes

/-- A file is there, and the word stands in its text. -/
def Holds (w : Text) (entry : Option Entry) : Prop :=
  ∃ bytes t, entry = some (.file bytes) ∧ FileTree.textOf bytes = .ok t ∧ w <:+: t

theorem Holds.infix_of_file {w t : Text} {bytes : List UInt8} {entry : Option Entry} (h : Holds w entry)
    (hentry : entry = some (.file bytes)) (ht : FileTree.textOf bytes = .ok t) : w <:+: t := by
  obtain ⟨bytes', t', rfl, ht', hin⟩ := h
  cases hentry
  rw [ht] at ht'
  cases ht'
  exact hin

/-- The rule is an edit that touches no place inside of the word. -/
def Rule.Keeps (r : Rule) (w : Text) : Prop := ∃ p, r.plan? = some p ∧ p.Keeps w

/-- A rule that is an edit keeps the empty word. -/
theorem Rule.Keeps.empty {r : Rule} {w : Text} (h : r.Keeps w) : r.Keeps [] := by
  obtain ⟨p, hp, -⟩ := h
  exact ⟨p, hp, .empty rfl⟩

section
variable {r : Rule} {placement : Placement} {anchor : Anchor} {w name : Text} {out : Path} {free : Bool}
  {entry entry' : Option Entry}

/-! ## One rule -/

/-- What stands in an amended text stands in the file that gets it. -/
theorem holds_amendEntry (hw : '\r' ∉ w) {bytes : List UInt8} {t : Text} (ht : FileTree.textOf bytes = .ok t)
    (hin : w <:+: (Patch.amend placement anchor r.content t).text)
    (h : r.amendEntry placement anchor (some (.file bytes)) = some entry') : Holds w entry' := by
  simp only [Rule.amendEntry, ht, Option.some.injEq] at h
  subst h
  split
  · rename_i hsame
    exact ⟨bytes, t, rfl, ht, hsame ▸ hin⟩
  · exact ⟨_, _, rfl, by simp [FileTree.textOf, Utf8.decode_encode], Text.infix_unifyLineEnds hw hin⟩

/-- **A word stays in a file if the rule keeps it**, or is not about the file. -/
theorem Holds.revise (hw : '\r' ∉ w) (hkeeps : r.concerns name = true → r.Keeps w) (h : Holds w entry)
    (hrevise : r.revise out name free entry = some entry') : Holds w entry' := by
  cases hmeets : r.meets out name entry with
  | false =>
    rw [Rule.revise_of_not_meets hmeets] at hrevise
    cases hrevise
    exact h
  | true =>
    obtain ⟨-, hrewrite⟩ := Rule.revise_of_meets hmeets hrevise
    have hconcerns : r.concerns name = true := by
      simp only [Rule.meets, Bool.and_eq_true] at hmeets
      exact hmeets.1
    obtain ⟨p, hp, hkeeps⟩ := hkeeps hconcerns
    obtain ⟨anchor, haction, hf, hcontent⟩ := Rule.plan?_eq_some hp
    obtain ⟨bytes, t, rfl, ht, hin⟩ := h
    rw [Rule.rewrite_file haction] at hrewrite
    refine holds_amendEntry hw ht ?_ hrewrite
    rw [← hcontent]
    exact Patch.infix_amend_of_keeps hf hkeeps hin

/-- A rule for one file that finds its anchor there leaves its content in the file. -/
theorem holds_content_revise (hplacement : placement ≠ .before) (haction : r.action = .amend placement anchor)
    (hp : Wildcard.isPattern r.target = false) (hcontent : '\r' ∉ r.content) {bytes : List UInt8} {t : Text}
    (ht : FileTree.textOf bytes = .ok t) (hoccurs : anchor.occursIn t = true)
    (hrevise : r.revise out r.target free (some (.file bytes)) = some entry') : Holds r.content entry' := by
  have hmeets : r.meets out r.target (some (.file bytes)) = true := by simp [Rule.meets_plain hp]
  obtain ⟨-, hrewrite⟩ := Rule.revise_of_meets hmeets hrevise
  rw [Rule.rewrite_file haction] at hrewrite
  exact holds_amendEntry hcontent ht (Patch.content_infix_amend hplacement hoccurs) hrewrite

end

namespace Catalog

/-! ## Runs -/

/-- Rules that succeed have succeeded in two parts. -/
theorem applyEach_append_ok_iff {out : Path} {rest : List Rule} {tree' : FileTree} :
    ∀ {front : List Rule} {tree : FileTree} {outcomes : List Outcome},
      applyEach tree out (front ++ rest) = (tree', .ok outcomes) ↔
        ∃ between first more, applyEach tree out front = (between, .ok first) ∧
          applyEach between out rest = (tree', .ok more) ∧ outcomes = first ++ more
  | [], tree, outcomes => by
    constructor
    · exact fun h => ⟨tree, [], outcomes, rfl, h, rfl⟩
    · rintro ⟨_, _, more, hnone, h, rfl⟩
      cases hnone
      exact h
  | r :: front, tree, outcomes => by
    rw [List.cons_append, applyEach_cons_ok_iff]
    constructor
    · rintro ⟨made, own, others, hr, hothers, rfl⟩
      obtain ⟨between, first, more, hfront, hrest, rfl⟩ := applyEach_append_ok_iff.mp hothers
      exact ⟨between, own ++ first, more, applyEach_cons_ok_iff.mpr ⟨made, own, first, hr, hfront, rfl⟩, hrest,
        (List.append_assoc own first more).symm⟩
    · rintro ⟨between, _, more, hfront, hrest, rfl⟩
      obtain ⟨made, own, first, hr, hothers, rfl⟩ := applyEach_cons_ok_iff.mp hfront
      exact ⟨made, own, first ++ more, hr, applyEach_append_ok_iff.mpr ⟨between, first, more, hothers, hrest, rfl⟩,
        List.append_assoc own first more⟩

section
variable {out : Path} {loc : Location} {tree tree' : FileTree} {name w : Text} {free : Bool} {outcomes : List Outcome}

/-- What is reported of a run is about its rules. -/
theorem rule_mem_of_applyEach : ∀ {rules : List Rule} {tree tree' : FileTree} {outcomes : List Outcome},
    applyEach tree out rules = (tree', .ok outcomes) → ∀ o ∈ outcomes, o.rule ∈ rules
  | [], tree, tree', outcomes, h, o, ho => by
    cases h
    cases ho
  | r :: rest, tree, tree', outcomes, h, o, ho => by
    obtain ⟨_, first, more, hfirst, hrest, rfl⟩ := applyEach_cons_ok_iff.mp h
    rcases List.mem_append.mp ho with ho | ho
    · exact ((Rule.isBlock_apply hfirst).reports o ho).rule ▸ List.mem_cons_self
    · exact List.mem_cons_of_mem _ (rule_mem_of_applyEach hrest o ho)

theorem holds_reviseEach (hw : '\r' ∉ w) : ∀ {rules : List Rule} {entry entry' : Option Entry},
    (∀ r ∈ rules, r.concerns name = true → r.Keeps w) → Holds w entry →
      reviseEach out name free rules entry = some entry' → Holds w entry'
  | [], entry, entry', _, hin, h => by
    cases h
    exact hin
  | r :: rest, entry, entry', hkeeps, hin, h => by
    obtain ⟨between, hbetween, hafter⟩ := Option.bind_eq_some_iff.mp h
    exact holds_reviseEach hw (fun r hr => hkeeps r (List.mem_cons_of_mem _ hr))
      (hin.revise hw (hkeeps r List.mem_cons_self) hbetween) hafter

/-- **What all rules of a run keep in a file stays there.** -/
theorem holds_applyEach {rules : List Rule} (hopens : tree.Opens out loc) (hsingle : ∀ r ∈ rules, r.isSingle = true)
    (hw : '\r' ∉ w) (hkeeps : ∀ r ∈ rules, r.concerns name = true → r.Keeps w) (hin : Holds w (tree.under loc name))
    (h : applyEach tree out rules = (tree', .ok outcomes)) : Holds w (tree'.under loc name) :=
  holds_reviseEach hw hkeeps hin ((applyEach_ok hopens hsingle h).2 name)

/-- **A rule whose anchor is kept by the rules before it finds it**, and what it brings in is there at the end if the
rules after it keep that. -/
theorem holds_content_applyEach {front back : List Rule} {r : Rule} {placement : Placement} {a : Text}
    (hopens : tree.Opens out loc) (hsingle : ∀ s ∈ front ++ r :: back, s.isSingle = true)
    (hp : Wildcard.isPattern r.target = false) (haction : r.action = .amend placement (.literal a))
    (hplacement : placement ≠ .before) (hanchor : '\r' ∉ a) (hcontent : '\r' ∉ r.content)
    (hfront : ∀ s ∈ front, s.concerns r.target = true → s.Keeps a)
    (hback : ∀ s ∈ back, s.concerns r.target = true → s.Keeps r.content)
    (hfresh : r ∉ front ++ back) (hin : Holds a (tree.under loc r.target))
    (h : applyEach tree out (front ++ r :: back) = (tree', .ok outcomes)) :
    ((∃ o ∈ outcomes, o.rule = r) ∧
      ∀ o ∈ outcomes, o.rule = r → o.status = .applied ∨ o.status = .alreadyApplied) ∧
      Holds r.content (tree'.under loc r.target) := by
  have ha : a ≠ [] := Rule.anchor_ne_nil haction
  obtain ⟨hfrontSingle, hsingle⟩ := List.forall_mem_append.mp hsingle
  obtain ⟨hrSingle, hbackSingle⟩ := List.forall_mem_cons.mp hsingle
  rw [List.mem_append, not_or] at hfresh
  obtain ⟨made, first, others, hmade, hothers, rfl⟩ := applyEach_append_ok_iff.mp h
  obtain ⟨between, own, more, hr, hmore, rfl⟩ := applyEach_cons_ok_iff.mp hothers
  -- the anchor is still there when the turn of the rule comes
  obtain ⟨bytes, t, hfile, ht, hinfix⟩ : Holds a (made.under loc r.target) :=
    holds_applyEach hopens hfrontSingle hanchor hfront hin hmade
  have hoccurs : (Anchor.literal a).occursIn t = true := (Anchor.finds_literal ha).occursIn_iff_contains.mpr hinfix
  have hmadeOpens := (applyEach_ok hopens hfrontSingle hmade).1.opens hopens
  obtain ⟨hsame, hrevise, -⟩ := Rule.apply_ok hmadeOpens hrSingle hr
  have hown : own = [⟨r, r.target, (Patch.amend placement (.literal a) r.content t).status,
      (Patch.amend placement (.literal a) r.content t).edits⟩] := by
    rw [Rule.apply_outcomes hmadeOpens (Rule.selectsIn_of_isSingle hrSingle) hr, Rule.outcomesIn_plain haction hp,
      hfile, Rule.outcomeAt_file ht]
  subst hown
  refine ⟨⟨⟨_, List.mem_append_right _ List.mem_cons_self, rfl⟩, fun o ho hrule => ?_⟩, ?_⟩
  · rcases List.mem_append.mp ho with ho | ho
    · exact absurd (hrule ▸ rule_mem_of_applyEach hmade o ho) hfresh.1
    · rcases List.mem_cons.mp ho with rfl | ho
      · exact Patch.status_amend_of_occursIn hoccurs
      · exact absurd (hrule ▸ rule_mem_of_applyEach hmore o ho) hfresh.2
  · have hbrought : Holds r.content (between.under loc r.target) :=
      holds_content_revise hplacement haction hp hcontent ht hoccurs (hfile ▸ hrevise r.target)
    exact holds_applyEach (hsame.opens hmadeOpens) hbackSingle hcontent hback hbrought hmore

end

end Catalog

end FlowTypes
