import FlowTypes.Proofs.Patch.Plan

/-!
# What stays settled

An edit that settles a text has nothing to do on it a second time. Whether it does is a question about its
needle and its content alone (`Plan.sound`): **the result of a sound edit is settled** (`settled_amend`). And
what is settled may be disturbed by another edit that comes later. This too is a question about needles and
contents alone (`Plan.bears`): **a settled text stays settled under an edit that the plan bears**
(`Plan.Settled.amend`).

## How an insertion is followed

Content that lies apart from the needle makes no new needle and leaves every other one on one side of it. Three
things may still go wrong, and each has its condition:

* the content makes the needle admissible where it was not, since another character stands before it now;
* the insertion tears the content of the plan apart;
* content that was put before a needle is no longer right before it. No plan of that kind bears anything.
-/

namespace FlowTypes

namespace Needle

/-- **An insertion makes no needle** unless it makes one admissible. -/
theorem Free.insert {n : Needle} {previous : Option Char} {x c y : Text}
    (hac : Occurrence.apart n.text c = true) (hc : c ≠ []) (h : n.Free previous (x ++ y))
    (hquiet : n.text <+: y → n.admits c.getLast? = true → n.admits (lastOr previous x) = true) :
    n.Free previous (x ++ c ++ y) := by
  intro u v e
  rcases Occurrence.split_of_apart hac e.symm with ⟨w, rfl, -⟩ | ⟨w, rfl, rfl⟩
  · exact h u (w ++ y) (by simp)
  · have hold := h (x ++ w) v (by simp)
    by_cases hw : w = []
    · subst hw
      rw [List.append_nil] at hold ⊢
      rw [lastOr_append, lastOr_of_ne_nil _ hc]
      refine Bool.eq_false_iff.mpr fun ha => Bool.eq_false_iff.mp hold (hquiet ⟨v, by simp⟩ ha)
    · rwa [lastOr_append, lastOr_eq_of_ne_nil _ (lastOr previous x) hw, ← lastOr_append]

end Needle

namespace Patch

namespace Plan

/-! ## Conditions -/

/-- The edits of a later plan disturb nothing that is settled. -/
def bears (p later : Plan) : Bool :=
  !later.content.isEmpty && Occurrence.apart p.needle.text later.content &&
    match p.placement, later.placement with
    | .over, _ => true
    | .after, .before =>
      !Occurrence.cutBefore later.needle.text p.content &&
        (!p.needle.wordStart || !(p.needle.text.isPrefixOf later.needle.text ||
          later.needle.text.isPrefixOf p.needle.text))
    | .after, .after =>
      !Occurrence.cutAfter later.needle.text p.content &&
        p.needle.admits later.content.getLast? == p.needle.admits later.needle.text.getLast?
    | _, _ => false

theorem content_ne_nil {a c : Text} (h : Occurrence.apart a c = true) : c ≠ [] := by
  rintro rfl
  exact (Occurrence.apart_iff.mp h).2.1 ⟨[], a, rfl⟩

/-! ## An edit settles its text -/

section
variable {p : Plan} {a : Anchor} {t : Text}

/-- Content in the place of every needle. -/
theorem not_infix_over (hne : p.needle.text ≠ []) (hn : p.needle.wordStart = false)
    (hac : Occurrence.supplants p.needle.text p.content = true) :
    ∀ {segments : List Segment} {flags : List Bool} {previous : Option Char} (done head : Text),
      p.needle.Splits previous head segments → flags.length = segments.length →
        (∀ u v y, done ++ head ++ y = u ++ p.needle.text ++ v → ∃ w, head ++ y = w ++ p.needle.text ++ v) →
          ¬ p.needle.text <:+:
            done ++ head ++ (List.zipWith (written .over p.content) segments flags).flatten
  | [], [], _, done, head, hfree, _, h => by
    rintro ⟨u, v, e⟩
    obtain ⟨w, hw⟩ := h u v [] (by simpa using e.symm)
    exact (Needle.free_iff_of_not_wordStart hn).mp hfree ⟨w, v, by simpa using hw.symm⟩
  | s :: rest, b :: flags, _, done, head, ⟨hfirst, _, _, hrest⟩, hlength, h => by
    have hx : ∀ u v, done ++ head ++ p.needle.text = u ++ p.needle.text ++ v → v = [] := by
      intro u v e
      obtain ⟨w, hw⟩ := h u v p.needle.text e
      exact hfirst w v hw (Needle.admits_of_not_wordStart hn _)
    have ih := not_infix_over hne hn hac (done ++ head ++ p.content) s.after hrest
      (Nat.succ.inj hlength) fun u v y e => ?_
    · simpa [written] using ih
    · rw [List.append_assoc] at e
      exact Occurrence.split_of_supplants hac hx e.symm hne

theorem settled_amend_over (hf : a.Finds p.needle) (hp : p.placement = .over)
    (hac : Occurrence.supplants p.needle.text p.content = true) (hn : p.needle.wordStart = false) :
    p.Settled (p.amend a t).text := by
  refine (settled_over_iff hp hn).mpr ?_
  rw [Plan.text_amend, hp, assemble]
  exact not_infix_over hf.text_ne_nil hn hac [] _ (hf.splits_cuts t) (length_due ..)
    fun u v _ e => ⟨u, e⟩

/-- A segment whose gap holds the content. -/
def filled (content : Text) (s : Segment) : Segment :=
  ⟨s.found, if Occurrence.occursIn content s.after then s.after else content ++ s.after⟩

theorem infix_filled (content : Text) (s : Segment) : content <:+: (filled content s).after := by
  unfold filled
  dsimp only
  split
  · rename_i h
    exact Occurrence.occursIn_iff_infix.mp h
  · exact ⟨[], s.after, rfl⟩

theorem flatten_written_after (content : Text) (segments : List Segment) :
    (List.zipWith (written .after content) segments
      (segments.map fun s => !Occurrence.occursIn content s.after)).flatten =
        Segment.flat (segments.map (filled content)) := by
  induction segments with
  | nil => rfl
  | cons s rest ih =>
    rw [List.map_cons, List.zipWith_cons_cons, List.flatten_cons, ih, List.map_cons, Segment.flat_cons]
    unfold written filled
    cases Occurrence.occursIn content s.after <;> simp

/-- Filled gaps hold no needle. -/
theorem splits_filled (hne : p.needle.text ≠ []) (hb : Occurrence.unbordered p.needle.text = true)
    (hac : Occurrence.apart p.needle.text p.content = true)
    (hquiet : p.needle.admits p.content.getLast? = p.needle.admits p.needle.text.getLast?) :
    ∀ {segments : List Segment} {previous : Option Char} {head : Text},
      p.needle.Splits previous head segments →
        p.needle.Splits previous head (segments.map (filled p.content))
  | [], _, _, h => h
  | s :: rest, previous, head, ⟨hfirst, hfound, hadmits, hrest⟩ => by
    refine ⟨hfirst, hfound, hadmits, ?_⟩
    have ih := splits_filled hne hb hac hquiet hrest
    by_cases hin : Occurrence.occursIn p.content s.after = true
    · simpa [filled, hin] using ih
    · have hc := content_ne_nil hac
      have hgap : p.needle.Free p.needle.text.getLast? (p.content ++ s.after) :=
        Needle.Free.insert (x := []) hac hc (hrest.free hne) fun _ ha => hquiet ▸ ha
      rw [filled, if_neg hin]
      cases rest with
      | nil => exact hgap
      | cons next rest =>
        obtain ⟨-, hfound', hadmits', hrest'⟩ := ih
        refine ⟨hgap.first hb, hfound', ?_, hrest'⟩
        by_cases ha : s.after = []
        · rw [ha] at hadmits' ⊢
          rw [List.append_nil, lastOr_of_ne_nil _ hc, hquiet]
          exact hadmits'
        · rwa [lastOr_append, lastOr_eq_of_ne_nil _ p.needle.text.getLast? ha]

theorem settled_amend_after (hf : a.Finds p.needle) (hp : p.placement = .after)
    (hb : Occurrence.unbordered p.needle.text = true)
    (hac : Occurrence.apart p.needle.text p.content = true)
    (hquiet : p.needle.admits p.content.getLast? = p.needle.admits p.needle.text.getLast?) :
    p.Settled (p.amend a t).text := by
  have hsplits := splits_filled hf.text_ne_nil hb hac hquiet (hf.splits_cuts t)
  rw [Plan.text_amend, hp, assemble, due, flatten_written_after]
  intro u v e ha
  obtain ⟨front, s, rest, hs, rfl, rfl⟩ := hsplits.exists_segment hf.text_ne_nil hb v u e.symm ha
  have hmem : s ∈ (a.cuts t).segments.map (filled p.content) := by rw [hs]; simp
  obtain ⟨old, -, rfl⟩ := List.mem_map.mp hmem
  obtain ⟨x, y, hxy⟩ := infix_filled p.content old
  rw [hs] at hsplits
  have hfree := (hsplits.segment hf.text_ne_nil).2.2.free hf.text_ne_nil
  simp only [Carries, hp]
  refine ⟨x, y ++ Segment.flat rest, by simp [← hxy], ?_⟩
  rw [← hxy, List.append_assoc] at hfree
  exact hfree.left

/-- Content that ends a text with a needle in it stands behind that needle. -/
theorem suffix_of_apart {n c u g : Text} (hac : Occurrence.apart n c = true) (h : c <:+ u ++ n ++ g) :
    c <:+ g := by
  obtain ⟨w, hw⟩ := h
  rcases Occurrence.split_of_apart hac (y := []) (by simpa using hw.symm) with ⟨z, rfl, hz⟩ | ⟨z, -, hz⟩
  · exact ⟨z, by simpa using hz.symm⟩
  · have hn : n = [] := by simp_all
    subst hn
    exact absurd ⟨[], c, rfl⟩ (Occurrence.apart_iff.mp hac).1

/-- Content right before every needle. `old` and `new` are the text up to the gap, before and after the
edit; the gap ends with the content in one exactly if it does in the other. -/
theorem suffix_before (hne : p.needle.text ≠ []) (hb : Occurrence.unbordered p.needle.text = true)
    (hac : Occurrence.apart p.needle.text p.content = true) (hn : p.needle.wordStart = false) :
    ∀ {segments : List Segment} {previous : Option Char} (old new gap : Text),
      p.needle.Splits previous gap segments → (p.content <:+ old ++ gap → p.content <:+ new ++ gap) →
        (∀ u v, new ++ gap = u ++ p.needle.text ++ v → p.content <:+ u) →
          ∀ u v, new ++ gap ++ (List.zipWith (written .before p.content) segments
            (dueBefore p.content (old ++ gap).reverse segments)).flatten = u ++ p.needle.text ++ v →
              p.content <:+ u
  | [], _, old, new, gap, _, _, hnew => by simpa using hnew
  | s :: rest, _, old, new, gap, ⟨_, hfound, _, hrest⟩, hsame, hnew => by
    intro u v e
    rw [dueBefore_reverse_cons] at e
    obtain ⟨front, hfront, hsuffix, hclean⟩ : ∃ front, front = new ++ gap ++
        (if Occurrence.endsWith (old ++ gap) p.content then [] else p.content) ∧ p.content <:+ front ∧
          ∀ u v, front = u ++ p.needle.text ++ v → p.content <:+ u := by
      refine ⟨_, rfl, ?_, ?_⟩
      · split
        · rename_i h
          rw [List.append_nil]
          exact hsame (List.isSuffixOf_iff_suffix.mp h)
        · exact List.suffix_append _ _
      · split
        · simpa using hnew
        · intro u v e
          have e' : u ++ p.needle.text ++ v = new ++ gap ++ p.content ++ [] := by simpa using e.symm
          rcases Occurrence.split_of_apart hac e' with ⟨w, hw, -⟩ | ⟨w, -, hw⟩
          · exact hnew u w hw
          · exact absurd (List.append_eq_nil_iff.mp (List.append_eq_nil_iff.mp hw.symm).1).2 hne
    have hafter : ¬ p.needle.text <:+: s.after := (Needle.free_iff_of_not_wordStart hn).mp (hrest.free hne)
    refine suffix_before hne hb hac hn (old ++ gap ++ p.needle.text) (front ++ p.needle.text) s.after hrest
      ?_ ?_ u v ?_
    · intro h
      exact (suffix_of_apart hac h).trans (List.suffix_append _ _)
    · intro u v e
      rcases Occurrence.split_of_unbordered hb e.symm with ⟨w, hw, -⟩ | ⟨rfl, -⟩ | ⟨w, -, hw⟩
      · exact hclean u w hw
      · exact hsuffix
      · exact absurd ⟨w, v, hw.symm⟩ hafter
    · rw [← e, hfront]
      cases Occurrence.endsWith (old ++ gap) p.content <;> simp [written, hfound]

theorem settled_amend_before (hf : a.Finds p.needle) (hp : p.placement = .before)
    (hb : Occurrence.unbordered p.needle.text = true)
    (hac : Occurrence.apart p.needle.text p.content = true) (hn : p.needle.wordStart = false) :
    p.Settled (p.amend a t).text := by
  have hsplits := hf.splits_cuts t
  have hfree := (Needle.free_iff_of_not_wordStart hn).mp (hsplits.free hf.text_ne_nil)
  intro u v e _
  rw [Plan.text_amend, hp, assemble, due] at e
  simp only [Carries, hp]
  refine suffix_before hf.text_ne_nil hb hac hn [] [] _ hsplits id ?_ u v (by simpa using e)
  exact fun u v e => absurd ⟨u, v, e.symm⟩ hfree

/-- **The result of a sound edit is settled.** -/
theorem settled_amend (hf : a.Finds p.needle) (hsound : p.sound = true) :
    p.Settled (p.amend a t).text := by
  cases hp : p.placement with
  | «over» =>
    obtain ⟨hn, hac⟩ := sound_over hsound hp
    exact settled_amend_over hf hp hac hn
  | after =>
    obtain ⟨hb, hac, hquiet⟩ := sound_after hsound hp
    exact settled_amend_after hf hp hb hac hquiet
  | before =>
    obtain ⟨hb, hac, hn⟩ := sound_before hsound hp
    exact settled_amend_before hf hp hb hac hn

end

/-! ## What later edits leave settled -/

section
variable {p later : Plan} {a : Anchor} {t x y c : Text}

/-- **An insertion leaves content in place that follows its needle**, if it makes no needle admissible and
does not tear the content apart. -/
theorem Settled.insert (hp : p.placement = .after) (hne : p.needle.text ≠ [])
    (hac : Occurrence.apart p.needle.text c = true) (h : p.Settled (x ++ y))
    (hquiet : p.needle.text <+: y → p.needle.admits c.getLast? = true →
      p.needle.admits (lastOr none x) = true)
    (hwhole : ∀ b d, p.content = b ++ d → b ≠ [] → d ≠ [] → b <:+ x → ¬ d <+: y) :
    p.Settled (x ++ c ++ y) := by
  have hc := content_ne_nil hac
  intro u v e ha
  unfold Settled Carries at h
  unfold Carries
  rw [hp] at h ⊢
  rcases Occurrence.split_of_apart hac e.symm with ⟨w, rfl, rfl⟩ | ⟨w, rfl, rfl⟩
  · -- the needle stands before the insertion, which may be ahead of its content or behind it
    obtain ⟨s, z, hz, hfree⟩ := h u (w ++ y) (by simp) ha
    rcases Occurrence.split_append hz.symm with ⟨q, rfl, -⟩ | ⟨q, rfl, rfl⟩ | ⟨b, d, hb, hd, hbd, rfl, rfl⟩
    · exact ⟨s, q ++ c ++ y, by simp, hfree⟩
    · refine ⟨w ++ c ++ q, z, by simp, hfree.insert hac hc fun hq hadmits => ?_⟩
      have hx := hquiet (hq.trans (by simp)) hadmits
      rwa [lastOr_append, lastOr_append, lastOr_of_ne_nil _ hne] at hx
    · have hsuffix : b <:+ u ++ p.needle.text ++ (s ++ b) := ⟨u ++ p.needle.text ++ s, by simp⟩
      exact absurd (List.prefix_append d z) (hwhole b d hbd hb hd hsuffix)
  · -- the needle stands behind the insertion
    refine h (x ++ w) v (by simp) ?_
    by_cases hw : w = []
    · subst hw
      rw [List.append_nil, lastOr_append, lastOr_of_ne_nil _ hc] at ha
      rw [List.append_nil]
      exact hquiet ⟨v, by simp⟩ ha
    · rw [lastOr_append, lastOr_eq_of_ne_nil _ (lastOr none (x ++ c)) hw, ← lastOr_append]
      exact ha

theorem Settled.insert_before (hp : p.placement = .after) (hlater : later.placement = .before)
    (hne : p.needle.text ≠ []) (hbears : p.bears later = true)
    (h : p.Settled (x ++ later.needle.text ++ y)) :
    p.Settled (x ++ (later.content ++ later.needle.text) ++ y) := by
  simp only [bears, hp, hlater, Bool.and_eq_true, Bool.or_eq_true, Bool.not_eq_true',
    Bool.or_eq_false_iff] at hbears
  obtain ⟨⟨-, hac⟩, hcut, hguard⟩ := hbears
  rw [List.append_assoc] at h
  rw [show x ++ (later.content ++ later.needle.text) ++ y =
    x ++ later.content ++ (later.needle.text ++ y) by simp]
  refine h.insert hp hne hac (fun hy _ => ?_) fun b d hbd hb hd _ hy => ?_
  · rcases hguard with hn | ⟨hn, hl⟩
    · exact Needle.admits_of_not_wordStart hn _
    · rcases List.prefix_or_prefix_of_prefix hy (List.prefix_append later.needle.text y) with h | h
      · exact absurd (List.isPrefixOf_iff_prefix.mpr h) (Bool.eq_false_iff.mp hn)
      · exact absurd (List.isPrefixOf_iff_prefix.mpr h) (Bool.eq_false_iff.mp hl)
  · exact hd (Occurrence.eq_nil_of_cutBefore hcut hbd hb (List.prefix_append _ y) hy)

theorem Settled.insert_after (hp : p.placement = .after) (hlater : later.placement = .after)
    (hne : p.needle.text ≠ []) (hl : later.needle.text ≠ []) (hbears : p.bears later = true)
    (h : p.Settled (x ++ later.needle.text ++ y)) :
    p.Settled (x ++ (later.needle.text ++ later.content) ++ y) := by
  simp only [bears, hp, hlater, Bool.and_eq_true, Bool.not_eq_true', beq_iff_eq] at hbears
  obtain ⟨⟨-, hac⟩, hcut, hguard⟩ := hbears
  rw [← List.append_assoc x]
  refine h.insert hp hne hac (fun _ ha => ?_) fun b d hbd hb hd hx _ => ?_
  · rw [lastOr_append, lastOr_of_ne_nil _ hl, ← hguard]
    exact ha
  · exact hb (Occurrence.eq_nil_of_cutAfter hcut hbd hd (List.suffix_append x _) hx)

/-- A change of one needle of an edit that the plan bears. -/
theorem Settled.step (hne : p.needle.text ≠ []) (hsound : p.sound = true)
    (hl : later.needle.text ≠ []) (hbears : p.bears later = true)
    (h : p.Settled (x ++ later.needle.text ++ y)) : p.Settled (x ++ later.around ++ y) := by
  cases hplacement : p.placement with
  | «over» =>
    have hac : Occurrence.apart p.needle.text later.content = true := by
      simp only [bears, hplacement, Bool.and_eq_true] at hbears
      exact hbears.1.2
    have hiff := @settled_over_iff p hplacement (sound_over hsound hplacement).1
    rw [hiff] at h ⊢
    unfold around
    split
    · -- the needle of the other edit is gone
      exact Occurrence.not_infix_insert hac
        (fun hx => h (hx.trans ⟨[], later.needle.text ++ y, by simp⟩))
        (fun hy => h (hy.trans (List.suffix_append _ y).isInfix))
    · rw [← List.append_assoc x]
      exact Occurrence.not_infix_insert hac (fun hx => h (hx.trans (List.prefix_append _ y).isInfix))
        (fun hy => h (hy.trans (List.suffix_append _ y).isInfix))
    · rw [← List.append_assoc x, List.append_assoc]
      rw [List.append_assoc] at h
      exact Occurrence.not_infix_insert hac (fun hx => h (hx.trans (List.prefix_append x _).isInfix))
        (fun hy => h (hy.trans (List.suffix_append x _).isInfix))
  | after =>
    unfold around
    split
    · rename_i hlater
      simp [bears, hplacement, hlater] at hbears
    · exact h.insert_after hplacement ‹_› hne hl hbears
    · exact h.insert_before hplacement ‹_› hne hbears
  | before => simp [bears, hplacement] at hbears

/-- **A settled text stays settled under an edit that the plan bears.** -/
theorem Settled.amend (hf : a.Finds later.needle) (hsound : p.sound = true)
    (hbears : p.bears later = true) (h : p.Settled t) : p.Settled (later.amend a t).text :=
  amend_induction hf (fun _ _ h => h.step (text_ne_nil_of_sound hsound) hsound hf.text_ne_nil hbears) h

end

end Plan

end Patch

end FlowTypes
