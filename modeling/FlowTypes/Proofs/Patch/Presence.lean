import FlowTypes.Proofs.Patch.Weaving

/-!
# What edits find again

An edit misses a text if its needle stands nowhere in it; a replacement may also find what it has put there before.
`Plan.FindsIn` says so of a text, and an edit misses exactly where it does not hold (`Plan.missed_amend_iff`).

What an edit finds may be lost to other edits, and to its own. `Plan.spares` is a test for this: **an edit that spares a
plan leaves it something to find** (`Plan.FindsIn.amend`). Edits that commute spare each other, and edits that keep their
needle spare themselves.

## Lines

An insertion right before a word might tear apart what another edit looks for. It does not if the word occurs only where
a line starts and what is looked for lies within a line. So the places of the word are followed too: most edits put
nothing there that the word could be part of, and they leave it at the start of its line (`Plan.keepsLineStarts`).
-/

namespace FlowTypes

/-! ## Words at the start of lines -/

/-- A line starts after the text. -/
def Text.AtLineStart (t : Text) : Prop := t = [] ∨ t.getLast? = some '\n'

instance : DecidablePred Text.AtLineStart := fun t => inferInstanceAs (Decidable (t = [] ∨ t.getLast? = some '\n'))

theorem Text.atLineStart_iff {t : Text} : AtLineStart t ↔ lastOr (some '\n') t = some '\n' := by
  unfold AtLineStart lastOr
  cases h : t.getLast? with
  | none => simp [List.getLast?_eq_none_iff.mp h]
  | some c =>
    have hne : t ≠ [] := by rintro rfl; cases h
    simp [hne]

/-- What precedes the start of a line does not matter if there is something in the line before. -/
theorem Text.atLineStart_append {u w : Text} (hw : w ≠ []) : AtLineStart (u ++ w) ↔ w.getLast? = some '\n' := by
  rw [atLineStart_iff, lastOr_append, lastOr_of_ne_nil _ hw]

theorem Text.AtLineStart.right {u w : Text} (h : AtLineStart (u ++ w)) : AtLineStart w := by
  by_cases hw : w = []
  · exact .inl hw
  · exact .inr ((atLineStart_append hw).mp h)

/-- The word occurs in the text only where a line starts. -/
def Text.OnlyStartsLines (word t : Text) : Prop := ∀ u v, t = u ++ word ++ v → AtLineStart u

theorem Text.onlyStartsLines_iff {word t : Text} : OnlyStartsLines word t ↔
    ∀ i ∈ List.range (t.length + 1), word.isPrefixOf (t.drop i) = true → AtLineStart (t.take i) := by
  constructor
  · intro h i _ hprefix
    obtain ⟨v, hv⟩ := List.isPrefixOf_iff_prefix.mp hprefix
    exact h _ v (by rw [List.append_assoc, hv, List.take_append_drop])
  · rintro h u v rfl
    have hu := h u.length (List.mem_range.mpr (by simp only [List.length_append]; omega))
    simpa using hu

instance (word t : Text) : Decidable (Text.OnlyStartsLines word t) := decidable_of_iff' _ Text.onlyStartsLines_iff

/-- A part of a text gives way to one that lies apart from the word, and the word does not come to stand behind it in the
middle of a line. -/
theorem Text.OnlyStartsLines.replace {word x front old new back y : Text} (hapart : Occurrence.apart word new = true)
    (hlast : new.getLast? = some '\n' ∨ ¬ AtLineStart (front ++ old))
    (h : OnlyStartsLines word (x ++ (front ++ old ++ back) ++ y)) :
    OnlyStartsLines word (x ++ (front ++ new ++ back) ++ y) := by
  intro u v e
  have hwhere : u ++ word ++ v = x ++ front ++ new ++ (back ++ y) := by simp [← e]
  rcases Occurrence.split_of_apart hapart hwhere with ⟨w, hw, -⟩ | ⟨w, rfl, hw⟩
  · have holder : x ++ (front ++ old ++ back) ++ y = u ++ word ++ (w ++ (old ++ (back ++ y))) := by
      rw [← List.append_assoc (u ++ word), ← hw]
      simp
    exact h u _ holder
  · have holder : x ++ (front ++ old ++ back) ++ y = x ++ (front ++ old) ++ w ++ word ++ v := by
      rw [List.append_assoc _ w, List.append_assoc _ (w ++ word), ← hw]
      simp
    have hstart := h _ _ holder
    by_cases hnil : w = []
    case neg => exact (atLineStart_append hnil).mpr ((atLineStart_append hnil).mp hstart)
    case pos =>
      -- the word stands right behind the new part
      subst hnil
      rw [List.append_nil] at hstart ⊢
      rcases hlast with hnew | hinner
      · have hne : new ≠ [] := by rintro rfl; cases hnew
        exact (atLineStart_append hne).mpr hnew
      · exact absurd hstart.right hinner

/-! ## Needles that stand somewhere -/

/-- The needle stands somewhere in the text. -/
def Needle.Stands (n : Needle) (t : Text) : Prop :=
  ∃ u v, t = u ++ n.text ++ v ∧ n.admits (lastOr none u) = true

theorem Needle.not_stands_iff {n : Needle} {t : Text} : ¬ n.Stands t ↔ n.Free none t := by
  simp [Stands, Free]

/-- Without the condition on words, the needle just occurs. -/
theorem Needle.stands_iff_infix {c t : Text} : Needle.Stands ⟨c, false⟩ t ↔ c <:+: t := by
  constructor
  · rintro ⟨u, v, rfl, -⟩
    exact ⟨u, v, rfl⟩
  · rintro ⟨u, v, rfl⟩
    exact ⟨u, v, rfl, admits_of_not_wordStart rfl _⟩

/-- An anchor has a match exactly where its needle stands. -/
theorem Anchor.Finds.occursIn_iff {a : Anchor} {n : Needle} (hf : a.Finds n) {t : Text} :
    a.occursIn t = true ↔ n.Stands t := by
  have hsplits := hf.splits_cuts t
  have hwhole : (a.cuts t).head ++ Segment.flat (a.cuts t).segments = t := a.whole_cuts t
  unfold occursIn
  cases hsegments : (a.cuts t).segments with
  | nil =>
    rw [hsegments] at hsplits hwhole
    rw [Segment.flat_nil, List.append_nil] at hwhole
    rw [hwhole] at hsplits
    simpa using Needle.not_stands_iff.mpr hsplits
  | cons s rest =>
    rw [hsegments] at hsplits hwhole
    rw [Segment.flat_cons, hsplits.2.1, ← List.append_assoc] at hwhole
    simp only [List.isEmpty_cons, Bool.not_false, true_iff]
    exact ⟨_, _, hwhole.symm, hsplits.2.2.1⟩

theorem Anchor.Finds.occursIn_iff_contains {a : Anchor} {c t : Text} (hf : a.Finds ⟨c, false⟩) :
    a.occursIn t = true ↔ c <:+: t :=
  hf.occursIn_iff.trans Needle.stands_iff_infix

/-- **What lies within a line is not torn apart** by whole lines that are put before words at the start of lines. -/
theorem Needle.Stands.insert {n : Needle} {word c x y : Text} (hline : '\n' ∉ n.text) (hc : c.getLast? = some '\n')
    (hlines : Text.OnlyStartsLines word (x ++ word ++ y)) (h : n.Stands (x ++ word ++ y)) :
    n.Stands (x ++ (c ++ word) ++ y) := by
  obtain ⟨u, v, e, hadmits⟩ := h
  rw [List.append_assoc] at e
  rcases Occurrence.split_append e.symm with ⟨w, rfl, -⟩ | ⟨w, rfl, hw⟩ | ⟨b, d, hb, -, hbd, rfl, -⟩
  · exact ⟨u, w ++ ((c ++ word) ++ y), by simp, hadmits⟩
  · refine ⟨x ++ c ++ w, v, by simp [hw], ?_⟩
    by_cases hnil : w = []
    · subst hnil
      have hbreak : Text.Class.isWord '\n' = false := by decide
      rw [List.append_nil, lastOr_append, lastOr, hc]
      simp [admits, hbreak]
    · rw [lastOr_append, lastOr_eq_of_ne_nil _ (lastOr none x) hnil, ← lastOr_append]
      exact hadmits
  · -- the line break before the word would lie in the needle
    exfalso
    have hlast := (Text.atLineStart_append hb).mp (hlines _ _ rfl)
    exact hline (hbd ▸ List.mem_append_left _ (List.mem_of_getLast? hlast))

namespace Patch.Plan

/-! ## Conditions -/

/-- How far two texts agree. -/
def agreement (s t : Text) : Nat := ((s.zip t).takeWhile fun (c, d) => c = d).length

/-- A text may give way to another without moving the word off the start of lines: what is new in it lies apart from the
word, and the word does not come to stand right behind it unless it ends a line. -/
def swapsWithinLines (word s t : Text) : Bool :=
  let i := agreement s t
  let j := agreement (s.drop i).reverse (t.drop i).reverse
  let front := s.take i
  let back := s.drop (s.length - j)
  let old := (s.take (s.length - j)).drop i
  let new := (t.take (t.length - j)).drop i
  decide (s = front ++ old ++ back) && decide (t = front ++ new ++ back) && Occurrence.apart word new &&
    (decide (new.getLast? = some '\n') || decide (¬ Text.AtLineStart (front ++ old)))

/-- The edit leaves the word at the start of lines. -/
def keepsLineStarts (p : Plan) (word : Text) : Bool :=
  match p.placement with
  | .over => swapsWithinLines word p.needle.text p.content
  | .after => Occurrence.apart word p.content &&
      (decide (p.content.getLast? = some '\n') || decide (¬ Text.AtLineStart p.needle.text))
  | .before => Occurrence.apart word p.content && decide (p.content.getLast? = some '\n')

/-- What the plan looks for lies within a line. -/
def isWithinLine (p : Plan) : Bool :=
  !p.needle.text.contains '\n' && (decide (p.placement ≠ .over) || !p.content.contains '\n')

/-- The plan puts whole lines before a word. -/
def headsLines (p : Plan) (word : Text) : Bool :=
  decide (p.placement = .before) && decide (p.needle.text = word) && decide (p.content.getLast? = some '\n')

/-- The edit of a plan takes nothing away that the other looks for, in texts in which the word only starts lines. -/
def spares (p other : Plan) (word : Text) : Bool :=
  p.keepsLineStarts word &&
    (other.commutes p || decide (other = p) && decide (p.placement ≠ .before) ||
      p.headsLines word && other.isWithinLine)

/-- The needle of the plan stands in all that the other looks for. -/
def findsWith (p other : Plan) : Bool :=
  !p.needle.wordStart && Occurrence.occursIn p.needle.text other.needle.text &&
    (decide (other.placement ≠ .over) || Occurrence.occursIn p.needle.text other.content)

/-- The edit finds its needle, or what a replacement has put in the place of it. -/
def FindsIn (p : Plan) (t : Text) : Prop :=
  p.needle.Stands t ∨ (p.placement = .over ∧ p.content <:+: t)

section
variable {p q : Plan} {a b : Anchor} {t word : Text}

/-- **An edit misses exactly where it finds nothing.** -/
theorem missed_amend_iff (hf : a.Finds p.needle) : (p.amend a t).status.missed = false ↔ p.FindsIn t := by
  have hoccurs := @Anchor.Finds.occursIn_iff a p.needle hf t
  unfold FindsIn amend Patch.amend amendAt unmatched
  dsimp only
  rw [← hoccurs, Anchor.occursIn]
  cases hempty : (a.cuts t).segments.isEmpty with
  | true =>
    cases hcontent : Occurrence.occursIn p.content t with
    | true => simp [Occurrence.occursIn_iff_infix.mp hcontent]; cases p.placement <;> simp [Status.missed]
    | false => simp [Occurrence.occursIn_eq_false_iff.mp hcontent, Status.missed]
  | false =>
    simp only [Bool.false_eq_true, if_false]
    split <;> simp [Status.missed]

theorem FindsIn.of_findsWith (h : q.findsWith p = true) (hp : p.FindsIn t) : q.FindsIn t := by
  simp only [findsWith, Bool.and_eq_true, Bool.or_eq_true, Bool.not_eq_true', decide_eq_true_eq] at h
  obtain ⟨⟨hword, hneedle⟩, hcontent⟩ := h
  have hin : q.needle.text <:+: t := by
    rcases hp with ⟨u, v, rfl, -⟩ | ⟨hover, hin⟩
    · exact (Occurrence.occursIn_iff_infix.mp hneedle).trans (List.infix_append u _ v)
    · have hcontent := hcontent.resolve_left fun hne => hne hover
      exact (Occurrence.occursIn_iff_infix.mp hcontent).trans hin
  obtain ⟨u, v, rfl⟩ := hin
  exact .inl ⟨u, v, rfl, Needle.admits_of_not_wordStart hword _⟩

theorem status_amend_ne_artifactMissing (p : Plan) (a : Anchor) (t : Text) :
    (p.amend a t).status ≠ .artifactMissing := by
  unfold amend Patch.amend amendAt unmatched
  dsimp only
  split
  · split <;> exact fun hmissing => by cases hmissing
  · split <;> exact fun hmissing => by cases hmissing

/-! ## Own edits -/

/-- A plan that keeps its needle finds it again, and a replacement what it has put there. -/
theorem FindsIn.amend_self (hf : a.Finds p.needle) (hp : p.placement ≠ .before) (h : p.FindsIn t) :
    p.FindsIn (p.amend a t).text := by
  have hsplits := hf.splits_cuts t
  have hlength := length_due p.placement p.content (a.cuts t)
  have htext := p.text_amend a t
  unfold assemble at htext
  cases hsegments : (a.cuts t).segments with
  | nil =>
    have hwhole : (a.cuts t).head ++ Segment.flat (a.cuts t).segments = t := a.whole_cuts t
    rw [hsegments, Segment.flat_nil, List.append_nil] at hwhole
    rw [hsegments, List.zipWith_nil_left, List.flatten_nil, List.append_nil, hwhole] at htext
    rwa [htext]
  | cons s rest =>
    rw [hsegments] at hsplits hlength htext
    obtain ⟨isDue, flags, hdue⟩ := List.exists_cons_of_length_eq_add_one hlength
    rw [hdue, List.zipWith_cons_cons, List.flatten_cons, written_eq s isDue hsplits.2.1] at htext
    generalize (List.zipWith (written p.placement p.content) rest flags).flatten = others at htext
    rw [htext]
    cases hplacement : p.placement with
    | before => exact absurd hplacement hp
    | «over» =>
      refine .inr ⟨hplacement, (a.cuts t).head, s.after ++ others, ?_⟩
      simp [around, hplacement]
    | after =>
      refine .inl ⟨(a.cuts t).head, ?_⟩
      cases isDue with
      | true => exact ⟨p.content ++ (s.after ++ others), by simp [around, hplacement], hsplits.2.2.1⟩
      | false => exact ⟨s.after ++ others, by simp, hsplits.2.2.1⟩

/-! ## Other edits -/

theorem onlyStartsLines_of_swapsWithinLines {s s' : Text} (h : swapsWithinLines word s s' = true) (x y : Text)
    (hlines : Text.OnlyStartsLines word (x ++ s ++ y)) : Text.OnlyStartsLines word (x ++ s' ++ y) := by
  simp only [swapsWithinLines, Bool.and_eq_true, Bool.or_eq_true, decide_eq_true_eq] at h
  obtain ⟨⟨⟨hold, hnew⟩, hapart⟩, hlast⟩ := h
  rw [hold] at hlines
  rw [hnew]
  exact hlines.replace hapart hlast

/-- A change of one needle leaves the word at the start of lines. -/
theorem keepsLineStarts_step (hkeeps : p.keepsLineStarts word = true) (x y : Text)
    (h : Text.OnlyStartsLines word (x ++ p.needle.text ++ y)) :
    Text.OnlyStartsLines word (x ++ p.around ++ y) := by
  unfold keepsLineStarts at hkeeps
  unfold around
  cases hp : p.placement with
  | «over» =>
    rw [hp] at hkeeps
    exact onlyStartsLines_of_swapsWithinLines hkeeps x y h
  | after =>
    simp only [hp, Bool.and_eq_true, Bool.or_eq_true, decide_eq_true_eq] at hkeeps
    have hinsert := @Text.OnlyStartsLines.replace word x p.needle.text [] p.content [] y hkeeps.1
      (by simpa using hkeeps.2) (by simpa using h)
    simpa using hinsert
  | before =>
    simp only [hp, Bool.and_eq_true, decide_eq_true_eq] at hkeeps
    have hinsert := @Text.OnlyStartsLines.replace word x [] [] p.content p.needle.text y hkeeps.1
      (.inl hkeeps.2) (by simpa using h)
    simpa using hinsert

/-- **The word stays at the start of lines.** -/
theorem onlyStartsLines_amend (hf : a.Finds p.needle) (hkeeps : p.keepsLineStarts word = true)
    (h : Text.OnlyStartsLines word t) : Text.OnlyStartsLines word (p.amend a t).text :=
  amend_induction hf (keepsLineStarts_step hkeeps) h

/-- Lines that are put before words at the start of lines tear nothing apart that lies within a line. -/
theorem stands_amend_of_headsLines {n : Needle} (hf : b.Finds q.needle) (hheads : q.headsLines word = true)
    (hkeeps : q.keepsLineStarts word = true) (hline : '\n' ∉ n.text) (hlines : Text.OnlyStartsLines word t)
    (h : n.Stands t) : n.Stands (q.amend b t).text := by
  simp only [headsLines, Bool.and_eq_true, decide_eq_true_eq] at hheads
  obtain ⟨⟨hq, hword⟩, hlast⟩ := hheads
  have hboth : Text.OnlyStartsLines word (q.amend b t).text ∧ n.Stands (q.amend b t).text := by
    refine amend_induction hf (Q := fun t => Text.OnlyStartsLines word t ∧ n.Stands t) (fun x y h => ?_) ⟨hlines, h⟩
    refine ⟨keepsLineStarts_step hkeeps x y h.1, ?_⟩
    rw [hword] at h
    rw [around, hq, hword]
    exact h.2.insert hline hlast h.1
  exact hboth.2

/-- **A plan finds something after an edit that spares it.** -/
theorem FindsIn.amend (hf : a.Finds p.needle) (hf' : b.Finds q.needle) (hspares : q.spares p word = true)
    (hlines : Text.OnlyStartsLines word t) (h : p.FindsIn t) : p.FindsIn (q.amend b t).text := by
  simp only [spares, Bool.and_eq_true, Bool.or_eq_true, decide_eq_true_eq] at hspares
  obtain ⟨hkeeps, (hcommutes | ⟨rfl, hp⟩) | ⟨hheads, hwithin⟩⟩ := hspares
  · rw [← missed_amend_iff hf] at h ⊢
    rw [(amend_amend hcommutes hf hf' t).1, h]
  · exact h.amend_self hf' hp
  · simp only [isWithinLine, Bool.and_eq_true, Bool.or_eq_true, Bool.not_eq_true', List.contains_eq_mem,
      decide_eq_true_eq, decide_eq_false_iff_not] at hwithin
    rcases h with h | ⟨hp, h⟩
    · exact .inl (stands_amend_of_headsLines hf' hheads hkeeps hwithin.1 hlines h)
    · rw [← Needle.stands_iff_infix] at h
      have hline : '\n' ∉ p.content := hwithin.2.resolve_left fun hne => hne hp
      exact .inr ⟨hp, Needle.stands_iff_infix.mp (stands_amend_of_headsLines hf' hheads hkeeps hline hlines h)⟩

end

end Patch.Plan

end FlowTypes
