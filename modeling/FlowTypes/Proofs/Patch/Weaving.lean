import FlowTypes.Proofs.Patch.Settled

/-!
# Edits that commute

Two edits of one text commute if neither touches what the other looks for and what it puts there (`Plan.commutes`). This
is followed on a text that is cut at the needles of both: a `Site` is a needle of one of the two plans, or what its edit
has made of it, and the text up to the next site. The gaps hold no needle of either plan (`Woven`).

An edit changes its own sites and leaves those of the other alone (`edit`). Whether something is due at a site is a
question about gaps, and these stay as they are. So **each edit finds the same to do, whichever comes first**, and the
sites are the same in the end (`Plan.amend_comm`, `Plan.amend_amend`).
-/

namespace FlowTypes

/-! ## Needles in joined texts -/

namespace Needle

variable {n : Needle} {previous previous' : Option Char} {x m y : Text}

theorem admits_lastOr_congr (h : n.admits previous = n.admits previous') (t : Text) :
    n.admits (lastOr previous t) = n.admits (lastOr previous' t) := by
  by_cases ht : t = []
  · subst ht
    exact h
  · rw [lastOr_eq_of_ne_nil previous previous' ht]

theorem Free.of_admits (h : n.admits previous = n.admits previous') {t : Text} (hfree : n.Free previous t) :
    n.Free previous' t := by
  intro u v e
  rw [← admits_lastOr_congr h]
  exact hfree u v e

theorem Free.right (hfree : n.Free previous (x ++ y)) : n.Free (lastOr previous x) y := by
  rintro u v rfl
  rw [← lastOr_append]
  exact hfree (x ++ u) v (by simp)

/-- What lies apart from a needle does not make one between two texts without any. -/
theorem Free.join (hm : Occurrence.apart n.text m = true) (hne : m ≠ []) (hx : n.Free previous x)
    (hy : n.Free m.getLast? y) : n.Free previous (x ++ m ++ y) := by
  intro u v e
  rcases Occurrence.split_of_apart hm e.symm with ⟨w, rfl, -⟩ | ⟨w, rfl, rfl⟩
  · exact hx u w rfl
  · rw [lastOr_append, lastOr_append, lastOr_of_ne_nil _ hne]
    exact hy w v rfl

/-- The first needle after a text is the first one after the end of it. -/
theorem First.right (h : n.First previous (x ++ y)) : n.First (lastOr previous x) y := by
  intro u v e ha
  rw [← lastOr_append] at ha
  exact h (x ++ u) v (by simp [e]) ha

theorem First.of_admits (h : n.admits previous = n.admits previous') {gap : Text} (hfirst : n.First previous gap) :
    n.First previous' gap := by
  intro u v e ha
  rw [← admits_lastOr_congr h] at ha
  exact hfirst u v e ha

theorem First.join (hm : Occurrence.apart n.text m = true) (hne : m ≠ []) (hx : n.Free previous x)
    (hy : n.First m.getLast? y) : n.First previous (x ++ m ++ y) := by
  intro u v e ha
  rw [List.append_assoc (x ++ m)] at e
  rcases Occurrence.split_of_apart hm e.symm with ⟨w, rfl, -⟩ | ⟨w, rfl, hw⟩
  · rw [hx u w rfl] at ha
    cases ha
  · rw [lastOr_append, lastOr_append, lastOr_of_ne_nil _ hne] at ha
    exact hy w v hw ha

theorem Splits.join (hm : Occurrence.apart n.text m = true) (hne : m ≠ []) (hx : n.Free previous x)
    {segments : List Segment} (h : n.Splits m.getLast? y segments) : n.Splits previous (x ++ m ++ y) segments := by
  cases segments with
  | nil => exact Free.join hm hne hx h
  | cons s rest =>
    obtain ⟨hfirst, hfound, hadmits, hrest⟩ := h
    refine ⟨First.join hm hne hx hfirst, hfound, ?_, hrest⟩
    rw [lastOr_append, lastOr_append, lastOr_of_ne_nil _ hne]
    exact hadmits

/-- Of two places of the needle in a text none comes before the first one. -/
theorem First.le {gap gap' after after' : Text} (h : n.First previous gap)
    (ha : n.admits (lastOr previous gap') = true) (e : gap ++ n.text ++ after = gap' ++ n.text ++ after') :
    gap.length ≤ gap'.length := by
  refine Nat.le_of_not_lt fun hlt => ?_
  have hprefix : gap' ++ n.text <+: gap ++ n.text :=
    List.prefix_of_prefix_length_le ⟨after', e.symm⟩ (List.prefix_append _ after) (by simp; omega)
  obtain ⟨v, hv⟩ := hprefix
  have hnil := h gap' v hv.symm ha
  subst hnil
  have hlength := congrArg List.length hv
  simp only [List.append_nil, List.length_append] at hlength
  omega

/-- **A text has one way to be cut** at a needle. -/
theorem Splits.unique :
    ∀ {segments segments' : List Segment} {previous : Option Char} {head head' : Text},
      n.Splits previous head segments → n.Splits previous head' segments' →
        head ++ Segment.flat segments = head' ++ Segment.flat segments' → head = head' ∧ segments = segments'
  | [], [], _, head, head', _, _, e => by simpa using e
  | [], s' :: rest', _, head, head', h, h', e => by
    rw [Segment.flat_nil, List.append_nil, Segment.flat_cons, h'.2.1] at e
    have hfree := h head' _ (by rw [e, List.append_assoc])
    rw [h'.2.2.1] at hfree
    cases hfree
  | s :: rest, [], _, head, head', h, h', e => by
    rw [Segment.flat_nil, List.append_nil, Segment.flat_cons, h.2.1] at e
    have hfree := h' head _ (by rw [← e, List.append_assoc])
    rw [h.2.2.1] at hfree
    cases hfree
  | s :: rest, s' :: rest', _, head, head', ⟨hfirst, hfound, hadmits, hrest⟩, ⟨hfirst', hfound', hadmits', hrest'⟩,
      e => by
    rw [Segment.flat_cons, Segment.flat_cons, hfound, hfound', ← List.append_assoc, ← List.append_assoc head'] at e
    have hlength : head.length = head'.length :=
      Nat.le_antisymm (hfirst.le hadmits' e) (hfirst'.le hadmits e.symm)
    rw [List.append_assoc, List.append_assoc head'] at e
    obtain ⟨rfl, htail⟩ := List.append_inj e hlength
    obtain ⟨hafter, hsegments⟩ := Splits.unique hrest hrest' (List.append_cancel_left htail)
    have hs : s = s' := by
      cases s
      cases s'
      simp only [Segment.mk.injEq]
      exact ⟨hfound.trans hfound'.symm, hafter⟩
    exact ⟨rfl, by rw [hs, hsegments]⟩

end Needle

/-- Every text can be cut at a needle. -/
theorem Needle.exists_splits {n : Needle} (hn : n.text ≠ []) (previous : Option Char) (t : Text) :
    ∃ head segments, n.Splits previous head segments ∧ head ++ Segment.flat segments = t := by
  let probe : Cuts.Probe := fun _ p =>
    if n.text.isPrefixOf p.rest && n.admits p.previous then some n.text.length else none
  refine ⟨_, _, @Cuts.splits_cutFrom probe n hn (fun _ _ => rfl) 0 previous t, ?_⟩
  rw [← Cuts.whole_eq_flat, Cuts.whole_cutFrom, List.drop_zero]

/-- The cuts of an anchor are the only ones there are. -/
theorem Anchor.Finds.cuts_eq {a : Anchor} {n : Needle} (hf : a.Finds n)
    {head : Text} {segments : List Segment} (h : n.Splits none head segments) :
    a.cuts (head ++ Segment.flat segments) = ⟨head, segments⟩ := by
  obtain ⟨hhead, hsegments⟩ := Needle.Splits.unique (hf.splits_cuts _) h (a.whole_cuts _)
  cases hcuts : a.cuts (head ++ Segment.flat segments) with
  | mk head' segments' =>
  rw [hcuts] at hhead hsegments
  rw [← hhead, ← hsegments]

namespace Patch

/-! ## Conditions -/

namespace Plan

/-- The plan is about nothing that stands at the needles of the other, before its edit or after it. -/
def ignores (p other : Plan) : Bool :=
  [other.needle.text, other.around].all fun mark =>
    Occurrence.apart p.needle.text mark && Occurrence.apart p.content mark &&
      p.needle.admits mark.getLast? == p.needle.admits other.needle.text.getLast?

/-- Neither plan is about what the other looks for or puts there. -/
def commutes (p q : Plan) : Bool :=
  decide (p.placement ≠ .before) && decide (q.placement ≠ .before) && p.ignores q && q.ignores p

theorem commutes_symm {p q : Plan} (h : p.commutes q = true) : q.commutes p = true := by
  simp only [commutes, Bool.and_eq_true] at h ⊢
  obtain ⟨⟨⟨hp, hq⟩, hpq⟩, hqp⟩ := h
  exact ⟨⟨⟨hq, hp⟩, hqp⟩, hpq⟩

end Plan

/-! ## Sites -/

/-- A needle of one of two plans, or what an edit has made of it, and what follows up to the next one of any of them. -/
structure Site where
  owner : Bool
  edited : Bool
  gap : Text

section
variable (plans : Bool → Plan)

/-- What stands at a site. -/
def Site.mark (s : Site) : Text := if s.edited then (plans s.owner).around else (plans s.owner).needle.text

/-- The text of some sites. -/
def siteText (sites : List Site) : Text := sites.flatMap fun s => s.mark plans ++ s.gap

/-- Every site is the first place of its needle after the gap before it, and no gap holds a needle. -/
def Starts : Option Char → Text → List Site → Prop
  | _, _, [] => True
  | previous, gap, s :: rest =>
    (plans s.owner).needle.First previous gap ∧ (plans s.owner).needle.admits (lastOr previous gap) = true ∧
      (∀ k, (plans k).needle.Free (plans s.owner).needle.text.getLast? s.gap) ∧
        Starts (plans s.owner).needle.text.getLast? s.gap rest

/-- The text is cut at the needles of both plans. -/
structure Woven (previous : Option Char) (head : Text) (sites : List Site) : Prop where
  free : ∀ k, (plans k).needle.Free previous head
  starts : Starts plans previous head sites

/-- The cuts at the needles of one plan: the other sites lie in the gaps. -/
def cutsOf (k : Bool) (head : Text) : List Site → Cuts
  | [] => ⟨head, []⟩
  | s :: rest =>
    let cuts := cutsOf k s.gap rest
    if s.owner = k then ⟨head, ⟨(plans k).needle.text, cuts.head⟩ :: cuts.segments⟩
    else ⟨head ++ s.mark plans ++ cuts.head, cuts.segments⟩

/-- The content of a plan stands in a gap or in one that follows, up to the next site of the plan. -/
def holds (k : Bool) (gap : Text) : List Site → Bool
  | [] => Occurrence.occursIn (plans k).content gap
  | s :: rest =>
    Occurrence.occursIn (plans k).content gap || (decide (s.owner ≠ k) && holds k s.gap rest)

/-- Something is due at a site of the plan with this gap. -/
def isDue (k : Bool) (gap : Text) (rest : List Site) : Bool :=
  match (plans k).placement with
  | .over => true
  | _ => !holds plans k gap rest

/-- Whether something is due, site by site of the plan. -/
def dues (k : Bool) : List Site → List Bool
  | [] => []
  | s :: rest => if s.owner = k then isDue plans k s.gap rest :: dues k rest else dues k rest

/-- The edit of the sites of a plan. -/
def edit (k : Bool) : List Site → List Site
  | [] => []
  | s :: rest => (if s.owner = k then { s with edited := isDue plans k s.gap rest } else s) :: edit k rest

/-- What the edit of a plan reports. -/
def statusOf (k : Bool) (head : Text) (sites : List Site) : Status :=
  if (dues plans k sites).isEmpty then
    if (plans k).placement = .over && holds plans k head sites then .alreadyApplied else .anchorMissed
  else if (dues plans k sites).count true = 0 then .alreadyApplied
  else .applied

end

/-- Two plans that ignore each other. -/
structure Compatible (plans : Bool → Plan) : Prop where
  placement : ∀ k, (plans k).placement ≠ .before
  ignores : ∀ k, (plans k).ignores (plans !k) = true
  text_ne_nil : ∀ k, (plans k).needle.text ≠ []

section
variable {plans : Bool → Plan} {k : Bool} {previous : Option Char} {head : Text} {sites : List Site}

/-! ## What stands at the sites of the other plan -/

theorem Compatible.mark (hc : Compatible plans) {s : Site} (hs : s.owner ≠ k) :
    Occurrence.apart (plans k).needle.text (s.mark plans) = true ∧
      Occurrence.apart (plans k).content (s.mark plans) = true ∧
        (plans k).needle.admits (s.mark plans).getLast? =
          (plans k).needle.admits (plans s.owner).needle.text.getLast? := by
  have howner : s.owner = !k := by cases hk : k <;> cases ho : s.owner <;> simp_all
  have hignores := hc.ignores k
  simp only [Plan.ignores, List.all_cons, List.all_nil, Bool.and_true, Bool.and_eq_true, beq_iff_eq] at hignores
  obtain ⟨⟨⟨hn, hcn⟩, -⟩, ⟨ha, hca⟩, hadmits⟩ := hignores
  unfold Site.mark
  rw [howner]
  split
  · exact ⟨ha, hca, hadmits⟩
  · exact ⟨hn, hcn, rfl⟩

theorem Compatible.mark_ne_nil (hc : Compatible plans) {s : Site} (hs : s.owner ≠ k) : s.mark plans ≠ [] :=
  Plan.content_ne_nil (hc.mark hs).1

/-! ## The cuts of one plan -/

/-- The sites of a plan that its edit has not come to yet. -/
def Fresh (k : Bool) (sites : List Site) : Prop := ∀ s ∈ sites, s.owner = k → s.edited = false

theorem Fresh.tail {s : Site} (h : Fresh k (s :: sites)) : Fresh k sites :=
  fun s' hs => h s' (List.mem_cons_of_mem _ hs)

theorem Fresh.mark_eq {s : Site} (h : Fresh k (s :: sites)) (hs : s.owner = k) :
    s.mark plans = (plans k).needle.text := by
  unfold Site.mark
  rw [h s List.mem_cons_self hs, hs]
  rfl

theorem flat_cutsOf : ∀ {sites : List Site} {head : Text}, Fresh k sites →
    (cutsOf plans k head sites).head ++ Segment.flat (cutsOf plans k head sites).segments =
      head ++ siteText plans sites
  | [], head, _ => by simp [cutsOf, siteText]
  | s :: rest, head, hfresh => by
    have ih := @flat_cutsOf rest s.gap hfresh.tail
    rw [cutsOf, siteText, List.flatMap_cons]
    split
    · rename_i hs
      rw [Segment.flat_cons, hfresh.mark_eq hs, ← List.append_assoc head, ih]
      simp [siteText]
    · rw [List.append_assoc, ih]
      simp [siteText]

/-- **The cuts at the needles of one plan.** -/
theorem splits_cutsOf (hc : Compatible plans) :
    ∀ {sites : List Site} {previous previous' : Option Char} {head : Text},
      (plans k).needle.admits previous = (plans k).needle.admits previous' → Woven plans previous head sites →
        (plans k).needle.Splits previous' (cutsOf plans k head sites).head (cutsOf plans k head sites).segments
  | [], _, _, _, hprevious, h => (h.free k).of_admits hprevious
  | s :: rest, previous, previous', head, hprevious, h => by
    have hfree := (h.free k).of_admits hprevious
    obtain ⟨hfirst, hadmits, hgap, hrest⟩ := h.starts
    have hwoven : Woven plans (plans s.owner).needle.text.getLast? s.gap rest := ⟨hgap, hrest⟩
    rw [cutsOf]
    split
    · rename_i hs
      rw [hs] at hfirst hadmits hwoven
      refine ⟨hfirst.of_admits hprevious, rfl, ?_, splits_cutsOf hc rfl hwoven⟩
      rwa [Needle.admits_lastOr_congr hprevious] at hadmits
    · rename_i hs
      obtain ⟨hapart, -, hlast⟩ := hc.mark hs
      exact Needle.Splits.join hapart (hc.mark_ne_nil hs) hfree (splits_cutsOf hc hlast.symm hwoven)

theorem occursIn_join {c x m y : Text} (hm : Occurrence.apart c m = true) :
    Occurrence.occursIn c (x ++ m ++ y) = (Occurrence.occursIn c x || Occurrence.occursIn c y) := by
  rw [Bool.eq_iff_iff, Bool.or_eq_true, Occurrence.occursIn_iff_infix, Occurrence.occursIn_iff_infix,
    Occurrence.occursIn_iff_infix]
  constructor
  · intro h
    refine Decidable.byContradiction fun hnot => ?_
    exact Occurrence.not_infix_insert hm (fun hx => hnot (.inl hx)) (fun hy => hnot (.inr hy)) h
  · rintro (h | h)
    · exact h.trans ⟨[], m ++ y, by simp⟩
    · exact h.trans (List.suffix_append (x ++ m) y).isInfix

/-- The content stands in a gap between needles of one plan if it stands in a part of it. -/
theorem occursIn_head_cutsOf (hc : Compatible plans) : ∀ {sites : List Site} {head : Text},
    Occurrence.occursIn (plans k).content (cutsOf plans k head sites).head = holds plans k head sites
  | [], _ => rfl
  | s :: rest, head => by
    rw [cutsOf, holds]
    split
    · rename_i hs
      simp [hs]
    · rename_i hs
      rw [occursIn_join (hc.mark hs).2.1, occursIn_head_cutsOf hc]
      simp [hs]

theorem due_cutsOf (hc : Compatible plans) : ∀ {sites : List Site} {head : Text},
    due (plans k).placement (plans k).content (cutsOf plans k head sites) = dues plans k sites
  | [], head => by
    rw [cutsOf, dues]
    cases hp : (plans k).placement <;> rfl
  | s :: rest, head => by
    have ih := @due_cutsOf hc rest s.gap
    rw [cutsOf, dues]
    split
    · rw [← ih]
      unfold isDue
      cases hp : (plans k).placement with
      | before => exact absurd hp (hc.placement k)
      | «over» => rfl
      | after =>
        dsimp only
        rw [← occursIn_head_cutsOf hc]
        rfl
    · rw [← ih]
      cases hp : (plans k).placement with
      | before => exact absurd hp (hc.placement k)
      | «over» => rfl
      | after => rfl

theorem mark_edited (s : Site) (isDue : Bool) (hover : (plans k).placement = .over → isDue = true) :
    (if isDue = true ∨ (plans k).placement = .over then (plans k).around else (plans k).needle.text) =
      Site.mark plans ⟨k, isDue, s.gap⟩ := by
  unfold Site.mark
  cases isDue with
  | true => simp
  | false =>
    have hp : (plans k).placement ≠ .over := fun hp => Bool.noConfusion (hover hp)
    simp [hp]

/-- What the edit puts together is what stands at the edited sites. -/
theorem assemble_cutsOf (hc : Compatible plans) : ∀ {sites : List Site} {head : Text},
    (cutsOf plans k head sites).head ++ (List.zipWith (written (plans k).placement (plans k).content)
      (cutsOf plans k head sites).segments (dues plans k sites)).flatten =
        head ++ siteText plans (edit plans k sites)
  | [], head => by simp [cutsOf, dues, edit, siteText]
  | s :: rest, head => by
    have ih := @assemble_cutsOf hc rest s.gap
    rw [cutsOf, dues, edit, siteText, List.flatMap_cons]
    split
    · rename_i hs
      have hover : (plans k).placement = .over → isDue plans k s.gap rest = true := by
        intro hp
        simp [isDue, hp]
      rw [List.zipWith_cons_cons, List.flatten_cons, written_eq _ _ rfl, mark_edited s _ hover]
      dsimp only
      rw [List.append_assoc (Site.mark _ _), ih, hs]
      simp [siteText]
    · rename_i hs
      rw [List.append_assoc, ih]
      simp [siteText]

/-- **The edit of one plan changes its own sites**, and what it reports is seen from the gaps. -/
theorem amend_woven (hc : Compatible plans) {a : Anchor} (hf : a.Finds (plans k).needle)
    (h : Woven plans none head sites) (hfresh : Fresh k sites) :
    (plans k).amend a (head ++ siteText plans sites) =
      ⟨head ++ siteText plans (edit plans k sites), statusOf plans k head sites, (dues plans k sites).count true⟩ := by
  have hcuts : a.cuts (head ++ siteText plans sites) = cutsOf plans k head sites := by
    rw [← flat_cutsOf hfresh, hf.cuts_eq (splits_cutsOf hc rfl h)]
  have hdue := @due_cutsOf plans k hc sites head
  have htext : ((plans k).amend a (head ++ siteText plans sites)).text =
      head ++ siteText plans (edit plans k sites) := by
    rw [Plan.text_amend, hcuts, assemble, hdue, assemble_cutsOf hc]
  have hempty : (cutsOf plans k head sites).segments.isEmpty = (dues plans k sites).isEmpty := by
    have hlength : (dues plans k sites).length = (cutsOf plans k head sites).segments.length := by
      rw [← hdue, length_due]
    rw [Bool.eq_iff_iff, List.isEmpty_iff, List.isEmpty_iff, ← List.length_eq_zero_iff, ← List.length_eq_zero_iff,
      hlength]
  have hstatus : ((plans k).amend a (head ++ siteText plans sites)).status = statusOf plans k head sites := by
    unfold Plan.amend amend amendAt statusOf
    dsimp only
    rw [hcuts, hdue, hempty]
    split
    · rename_i hnone
      -- without a site of its own the plan sees one gap
      have hflat := @flat_cutsOf plans k sites head hfresh
      rw [List.isEmpty_iff.mp (hempty.trans hnone), Segment.flat_nil, List.append_nil] at hflat
      unfold unmatched
      rw [← hflat, occursIn_head_cutsOf hc]
    · split <;> rfl
  have hedits : ((plans k).amend a (head ++ siteText plans sites)).edits = (dues plans k sites).count true := by
    rw [Plan.amend, edits_amend, hcuts, hdue]
  cases hamend : (plans k).amend a (head ++ siteText plans sites) with
  | mk text status edits =>
  rw [hamend] at htext hstatus hedits
  simp only [Patched.mk.injEq]
  exact ⟨htext, hstatus, hedits⟩

/-! ## The other edit -/

variable {j : Bool}

theorem holds_edit : ∀ {sites : List Site} {gap : Text},
    holds plans k gap (edit plans j sites) = holds plans k gap sites
  | [], _ => rfl
  | s :: rest, gap => by
    rw [edit, holds, holds]
    split
    · rw [holds_edit]
    · rw [holds_edit]

theorem isDue_edit (gap : Text) (sites : List Site) :
    isDue plans k gap (edit plans j sites) = isDue plans k gap sites := by
  unfold isDue
  rw [holds_edit]

/-- What is due for one plan does not depend on the edits of any. -/
theorem dues_edit : ∀ {sites : List Site}, dues plans k (edit plans j sites) = dues plans k sites
  | [] => rfl
  | s :: rest => by
    have ih := @dues_edit rest
    rw [edit, dues, dues, ih, isDue_edit]
    split <;> rfl

theorem edit_comm (hne : k ≠ j) :
    ∀ {sites : List Site}, edit plans k (edit plans j sites) = edit plans j (edit plans k sites)
  | [] => rfl
  | s :: rest => by
    have ih := @edit_comm hne rest
    simp only [edit, isDue_edit, ih]
    congr 1
    by_cases hs : s.owner = j
    · have hk : s.owner ≠ k := fun e => hne (e.symm.trans hs)
      simp [hs, Ne.symm hne]
    · simp [hs]
      split <;> simp [hs]

theorem starts_edit : ∀ {sites : List Site} {previous : Option Char} {gap : Text},
    Starts plans previous gap sites → Starts plans previous gap (edit plans j sites)
  | [], _, _, h => h
  | s :: rest, previous, gap, ⟨hfirst, hadmits, hgap, hrest⟩ => by
    rw [edit]
    split
    · exact ⟨hfirst, hadmits, hgap, starts_edit hrest⟩
    · exact ⟨hfirst, hadmits, hgap, starts_edit hrest⟩

theorem Woven.edit (h : Woven plans previous head sites) : Woven plans previous head (edit plans j sites) :=
  ⟨h.free, starts_edit h.starts⟩

theorem Fresh.edit (hne : k ≠ j) : ∀ {sites : List Site}, Fresh k sites → Fresh k (edit plans j sites)
  | [], h => h
  | s :: rest, h => by
    intro s' hs' howner
    rw [Patch.edit] at hs'
    rcases List.mem_cons.mp hs' with rfl | hs'
    · split at howner
      · rename_i hs
        exact absurd (howner.symm.trans hs) hne
      · rename_i hs
        rw [if_neg hs]
        exact h s List.mem_cons_self howner
    · exact Fresh.edit hne h.tail s' hs' howner

/-! ## Cutting at both needles -/

theorem Starts.right {x y : Text} : ∀ {sites : List Site},
    Starts plans previous (x ++ y) sites → Starts plans (lastOr previous x) y sites
  | [], _ => trivial
  | s :: rest, ⟨hfirst, hadmits, hgap, hrest⟩ => by
    rw [lastOr_append] at hadmits
    exact ⟨hfirst.right, hadmits, hgap, hrest⟩

/-- A text without needles of the other plan is cut at those of one, ahead of more sites. -/
theorem exists_woven_gap {rest : List Site} :
    ∀ {segments : List Segment} {previous : Option Char} {head : Text},
      (plans j).needle.Splits previous head segments → (plans j).needle.text ≠ [] →
        (plans !j).needle.Free previous (head ++ Segment.flat segments) →
          Starts plans previous (head ++ Segment.flat segments) rest →
            ∃ sites, Woven plans previous head sites ∧ (∀ s ∈ sites, s ∈ rest ∨ s.edited = false) ∧
              siteText plans sites = Segment.flat segments ++ siteText plans rest
  | [], previous, head, h, hne, hfree, hrest => by
    rw [Segment.flat_nil, List.append_nil] at hfree hrest
    refine ⟨rest, ⟨fun k => ?_, hrest⟩, fun s hs => .inl hs, rfl⟩
    by_cases hk : k = j
    · rw [hk]
      exact h
    · rwa [show k = !j by cases k <;> cases j <;> simp_all]
  | s :: tail, previous, head, h, hne, hfree, hrest => by
    obtain ⟨hfirst, hfound, hadmits, hsplits⟩ := h
    have hprevious : lastOr previous (head ++ (plans j).needle.text) = (plans j).needle.text.getLast? := by
      rw [lastOr_append, lastOr_of_ne_nil _ hne]
    rw [Segment.flat_cons, hfound, ← List.append_assoc] at hfree hrest
    have hfree' := hfree.right
    have hrest' := hrest.right
    rw [hprevious] at hfree' hrest'
    obtain ⟨sites, hwoven, hfresh, htext⟩ := exists_woven_gap hsplits hne hfree' hrest'
    refine ⟨⟨j, false, s.after⟩ :: sites, ⟨fun k => ?_, hfirst, hadmits, hwoven.free, hwoven.starts⟩, ?_, ?_⟩
    · by_cases hk : k = j
      · rw [hk]
        exact hfirst.free hne
      · rw [show k = !j by cases k <;> cases j <;> simp_all]
        exact hfree.left.left
    · intro s' hs'
      rcases List.mem_cons.mp hs' with rfl | hs'
      · exact .inr rfl
      · exact hfresh s' hs'
    · rw [siteText, List.flatMap_cons]
      change ((plans j).needle.text ++ s.after) ++ siteText plans sites = _
      rw [htext, Segment.flat_cons, hfound]
      simp

/-- **Every text can be cut at the needles of both plans.** -/
theorem exists_woven (hc : Compatible plans) : ∀ {segments : List Segment} {previous : Option Char} {head : Text},
    (plans false).needle.Splits previous head segments →
      ∃ head' sites, Woven plans previous head' sites ∧ (∀ s ∈ sites, s.edited = false) ∧
        head' ++ siteText plans sites = head ++ Segment.flat segments
  | [], previous, head, h => by
    obtain ⟨head', segments, hsplits, rfl⟩ := Needle.exists_splits (hc.text_ne_nil true) previous head
    obtain ⟨sites, hwoven, hfresh, htext⟩ :=
      @exists_woven_gap plans true [] _ _ _ hsplits (hc.text_ne_nil true) h trivial
    refine ⟨head', sites, hwoven, fun s hs => (hfresh s hs).resolve_left List.not_mem_nil, ?_⟩
    rw [htext]
    simp [siteText]
  | s :: tail, previous, head, ⟨hfirst, hfound, hadmits, hrest⟩ => by
    obtain ⟨gap, rest, hwoven, hfresh, htext⟩ := exists_woven hc hrest
    obtain ⟨head', segments, hsplits, rfl⟩ := Needle.exists_splits (hc.text_ne_nil true) previous head
    have hstarts : Starts plans previous (head' ++ Segment.flat segments) (⟨false, false, gap⟩ :: rest) :=
      ⟨hfirst, hadmits, hwoven.free, hwoven.starts⟩
    obtain ⟨sites, hwoven', hfresh', htext'⟩ :=
      exists_woven_gap hsplits (hc.text_ne_nil true) (hfirst.free (hc.text_ne_nil false)) hstarts
    refine ⟨head', sites, hwoven', fun s' hs' => ?_, ?_⟩
    · rcases hfresh' s' hs' with hs' | hs'
      · rcases List.mem_cons.mp hs' with rfl | hs'
        · rfl
        · exact hfresh s' hs'
      · exact hs'
    · rw [htext', siteText, List.flatMap_cons]
      change head' ++ (_ ++ (((plans false).needle.text ++ gap) ++ siteText plans rest)) = _
      rw [List.append_assoc _ gap, htext, Segment.flat_cons, hfound]
      simp

/-! ## Two edits -/

/-- Both orders of two edits, on a text that is cut for both. -/
theorem amend_amend_woven (hc : Compatible plans) (hne : k ≠ j) {a b : Anchor} (hf : a.Finds (plans k).needle)
    (hf' : b.Finds (plans j).needle) (h : Woven plans none head sites) (hfresh : ∀ s ∈ sites, s.edited = false) :
    (plans k).amend a ((plans j).amend b (head ++ siteText plans sites)).text =
      ⟨head ++ siteText plans (edit plans k (edit plans j sites)), statusOf plans k head sites,
        (dues plans k sites).count true⟩ := by
  have hfreshAll : ∀ i, Fresh i sites := fun i s hs _ => hfresh s hs
  rw [amend_woven hc hf' h (hfreshAll j)]
  dsimp only
  rw [amend_woven hc hf h.edit ((hfreshAll k).edit hne), dues_edit]
  unfold statusOf
  rw [dues_edit, holds_edit]

end

namespace Plan

variable {p q : Plan} {a b : Anchor}

/-- The two plans by number. -/
def pair (p q : Plan) (k : Bool) : Plan := if k then q else p

theorem compatible_pair (h : p.commutes q = true) (hp : p.needle.text ≠ []) (hq : q.needle.text ≠ []) :
    Compatible (pair p q) := by
  simp only [commutes, Bool.and_eq_true, decide_eq_true_eq] at h
  obtain ⟨⟨⟨hpp, hqp⟩, hpq⟩, hqp'⟩ := h
  constructor
  case placement => exact fun k => by cases k <;> assumption
  case ignores => exact fun k => by cases k <;> assumption
  case text_ne_nil => exact fun k => by cases k <;> assumption

/-- **An edit finds the same to do after one that it commutes with.** -/
theorem amend_amend (h : p.commutes q = true) (hf : a.Finds p.needle) (hf' : b.Finds q.needle) (t : Text) :
    (p.amend a (q.amend b t).text).status = (p.amend a t).status ∧
      (p.amend a (q.amend b t).text).edits = (p.amend a t).edits := by
  have hc := compatible_pair h hf.text_ne_nil hf'.text_ne_nil
  obtain ⟨head, segments, hsplits, rfl⟩ := Needle.exists_splits hf.text_ne_nil none t
  obtain ⟨head', sites, hwoven, hfresh, htext⟩ := exists_woven hc hsplits
  have hboth := amend_amend_woven (k := false) (j := true) hc (by decide) hf hf' hwoven hfresh
  have hone := amend_woven (k := false) hc hf hwoven fun s hs _ => hfresh s hs
  rw [htext] at hboth hone
  change p.amend a (q.amend b _).text = _ at hboth
  change p.amend a _ = _ at hone
  rw [hboth, hone]
  exact ⟨rfl, rfl⟩

/-- **Edits that commute make the same text in both orders.** -/
theorem amend_comm (h : p.commutes q = true) (hf : a.Finds p.needle) (hf' : b.Finds q.needle) (t : Text) :
    (p.amend a (q.amend b t).text).text = (q.amend b (p.amend a t).text).text := by
  have hc := compatible_pair h hf.text_ne_nil hf'.text_ne_nil
  obtain ⟨head, segments, hsplits, rfl⟩ := Needle.exists_splits hf.text_ne_nil none t
  obtain ⟨head', sites, hwoven, hfresh, htext⟩ := exists_woven hc hsplits
  have hlast := amend_amend_woven (k := false) (j := true) hc (by decide) hf hf' hwoven hfresh
  have hfirst := amend_amend_woven (k := true) (j := false) hc (by decide) hf' hf hwoven hfresh
  rw [htext] at hlast hfirst
  change p.amend a (q.amend b _).text = _ at hlast
  change q.amend b (p.amend a _).text = _ at hfirst
  rw [hlast, hfirst, edit_comm (by decide)]

end Plan

end Patch

end FlowTypes
