import FlowTypes.Proofs.Text.Closed
import FlowTypes.Proofs.Text.Counting

/-!
# Replacing part by part

Occurrences are taken from the left, so what is replaced at one place can hang on what stands far before it. A *seam* ends
that: no occurrence reaches over a word that lies apart from the pattern, nor over a symbol that the pattern does not
hold. So the parts on both sides of a seam are replaced by themselves (`replaceAll_append_of_apart`,
`replaceAll_append_cons`).

* A text that is cut at such symbols can be replaced before the cut or after it. This is said of any function that works
  between the symbols, `Piecewise` (`Piecewise.splitOn_eq`), so it goes on from one replacement to many.
* Words that lie apart are seams for each other. What is put in the place of one neither makes nor destroys the other, so
  they can be replaced in any order (`replaceAll_comm`).
-/

namespace FlowTypes.Occurrence

variable {α : Type} [DecidableEq α]

/-! ## Seams -/

section
variable {pattern replacement seam whole x y : List α}

/-- Without an occurrence nothing is replaced. -/
theorem replaceAll_of_not_infix (hpattern : pattern ≠ []) (replacement : List α) (h : ¬ pattern <:+: whole) :
    replaceAll pattern replacement whole = whole := by
  rw [replaceAll_of_gaps hpattern replacement (.last h), List.intercalate_singleton]

/-- No occurrence begins in a part without one, or in the seam behind it. -/
theorem not_prefix_of_apart (hseam : apart pattern seam = true) (hx : ¬ pattern <:+: x) (y : List α) {s t : List α}
    (hsplit : x ++ seam = s ++ t) (ht : t ≠ []) : ¬ pattern <+: t ++ y := by
  rintro ⟨v, hv⟩
  have hplace : s ++ pattern ++ v = x ++ seam ++ y := by
    rw [List.append_assoc, hv, ← List.append_assoc, hsplit]
  rcases split_of_apart hseam hplace with ⟨w, rfl, -⟩ | ⟨w, rfl, -⟩
  · exact hx (List.infix_append s pattern w)
  · -- then nothing of the seam is left
    have hlength := congrArg List.length hsplit
    have hpos := List.length_pos_iff.mpr ht
    simp only [List.length_append] at hlength
    omega

/-- **On both sides of a word that lies apart the parts are replaced by themselves.** -/
theorem replaceAll_append_of_apart (hpattern : pattern ≠ []) (replacement : List α)
    (hseam : apart pattern seam = true) (x y : List α) :
    replaceAll pattern replacement (x ++ seam ++ y) =
      replaceAll pattern replacement x ++ seam ++ replaceAll pattern replacement y := by
  obtain ⟨gaps, hgaps⟩ := exists_gaps hpattern x
  simp only [replaceAll_of_ne_nil hpattern]
  induction hgaps with
  | @last gap hfree =>
    rw [replaceFrom_gap replacement fun s t => not_prefix_of_apart hseam hfree y, ← replaceAll_of_ne_nil hpattern _ gap,
      replaceAll_of_not_infix hpattern replacement hfree]
  | @next gap rest gaps hfirst hrest ih =>
    have hleft : replaceFrom pattern replacement 0 (gap ++ pattern ++ rest) =
        gap ++ (replacement ++ replaceFrom pattern replacement 0 rest) := by
      rw [List.append_assoc, replaceFrom_gap replacement fun s t => hfirst.not_prefix rest, replaceFrom_found hpattern]
    have hwhole : gap ++ pattern ++ rest ++ seam ++ y = gap ++ (pattern ++ (rest ++ seam ++ y)) := by
      simp only [List.append_assoc]
    rw [hwhole, replaceFrom_gap replacement fun s t => hfirst.not_prefix _, replaceFrom_found hpattern, ih, hleft]
    simp only [List.append_assoc]

/-- A symbol lies apart from every word that does not hold it. -/
theorem apart_singleton {sep : α} (hpattern : pattern ≠ []) (hsep : sep ∉ pattern) : apart pattern [sep] = true := by
  have hlast := List.getLast?_eq_some_getLast hpattern
  refine apart_of_ends hlast ?_ rfl hsep
  intro hmem
  exact hsep (List.mem_singleton.mp hmem ▸ List.getLast_mem hpattern)

/-- **On both sides of a symbol that the pattern does not hold the parts are replaced by themselves**, also if the pattern
is empty. -/
theorem replaceAll_append_cons {sep : α} (hsep : sep ∉ pattern) (replacement x y : List α) :
    replaceAll pattern replacement (x ++ sep :: y) =
      replaceAll pattern replacement x ++ sep :: replaceAll pattern replacement y := by
  by_cases hpattern : pattern = []
  · subst hpattern
    simp [replaceAll]
  · have hseam := replaceAll_append_of_apart hpattern replacement (apart_singleton hpattern hsep) x y
    simpa only [List.append_assoc, List.singleton_append] using hseam

/-- What is there after replacing comes from the text or from the replacement. -/
theorem mem_or_mem_of_mem_replaceAll {a : α} (h : a ∈ replaceAll pattern replacement whole) :
    a ∈ whole ∨ a ∈ replacement := by
  by_cases hpattern : pattern = []
  · subst hpattern
    simp only [replaceAll, List.isEmpty_nil, if_true, List.mem_append, List.mem_flatMap, List.mem_singleton] at h
    rcases h with ⟨c, hc, h | rfl⟩ | h
    · exact .inr h
    · exact .inl hc
    · exact .inr h
  · obtain ⟨gaps, hgaps⟩ := exists_gaps hpattern whole
    rw [replaceAll_of_gaps hpattern replacement hgaps] at h
    rcases mem_intercalate h with h | ⟨gap, hgap, h⟩
    · exact .inr h
    · exact .inl ((hgaps.infix_whole hgap).subset h)

end

/-! ## Between symbols -/

/-- The function works between the symbols: it keeps them, and makes no new ones. -/
structure Piecewise (sep : α) (f : List α → List α) : Prop where
  append_cons : ∀ x y, f (x ++ sep :: y) = f x ++ sep :: f y
  not_mem : ∀ x, sep ∉ x → sep ∉ f x

namespace Piecewise

variable {sep : α} {f g : List α → List α}

omit [DecidableEq α] in
theorem id : Piecewise sep (fun x => x) := ⟨fun _ _ => rfl, fun _ h => h⟩

omit [DecidableEq α] in
theorem comp (hg : Piecewise sep g) (hf : Piecewise sep f) : Piecewise sep fun x => g (f x) where
  append_cons x y := by rw [hf.append_cons, hg.append_cons]
  not_mem x h := hg.not_mem _ (hf.not_mem x h)

/-- **The pieces of the result are the results of the pieces.** -/
theorem splitOn_eq (hf : Piecewise sep f) (whole : List α) : (f whole).splitOn sep = (whole.splitOn sep).map f := by
  by_cases h : sep ∈ whole
  · obtain ⟨x, y, hwhole, hx⟩ := List.eq_append_cons_of_mem h
    have hshorter : y.length < whole.length := by
      rw [hwhole, List.length_append, List.length_cons]
      omega
    rw [hwhole, hf.append_cons, List.splitOn_append_cons_self_of_not_mem hx,
      List.splitOn_append_cons_self_of_not_mem (hf.not_mem x hx), List.map_cons, splitOn_eq hf y]
  · rw [List.splitOn_eq_singleton h, List.splitOn_eq_singleton (hf.not_mem whole h), List.map_singleton]
termination_by whole.length

/-- Replacing works between symbols that neither word holds. -/
theorem replaceAll {pattern replacement : List α} (hpattern : sep ∉ pattern) (hreplacement : sep ∉ replacement) :
    Piecewise sep (replaceAll pattern replacement) where
  append_cons := replaceAll_append_cons hpattern replacement
  not_mem _ h hmem := (mem_or_mem_of_mem_replaceAll hmem).elim h hreplacement

end Piecewise

/-! ## Words that lie apart -/

section
variable {p q m n whole : List α} {parts : List (List α)}

/-- No word is made by what stands between parts without it, if that lies apart from the word. -/
theorem not_infix_intercalate_of_apart (hm : apart p m = true) (hparts : ∀ part ∈ parts, ¬ p <:+: part)
    (hne : parts ≠ []) : ¬ p <:+: m.intercalate parts := by
  induction parts with
  | nil => exact absurd rfl hne
  | cons part parts ih =>
    have hpart := hparts part List.mem_cons_self
    by_cases hnil : parts = []
    · rwa [hnil, List.intercalate_singleton]
    · rw [List.intercalate_cons_of_ne_nil hnil]
      exact not_infix_insert hm hpart (ih (fun part' h => hparts part' (List.mem_cons_of_mem part h)) hnil)

/-- A word that is replaced is gone, if it lies apart from what is put in its place. -/
theorem not_infix_replaceAll_self (hp : p ≠ []) (hm : apart p m = true) (whole : List α) :
    ¬ p <:+: replaceAll p m whole := by
  obtain ⟨gaps, hgaps⟩ := exists_gaps hp whole
  rw [replaceAll_of_gaps hp m hgaps]
  exact not_infix_intercalate_of_apart hm (fun gap hgap => hgaps.not_infix hp hgap) hgaps.ne_nil

/-- A word is not made by replacing another, if it lies apart from what is put in. -/
theorem not_infix_replaceAll (hq : q ≠ []) (hn : apart p n = true) (h : ¬ p <:+: whole) :
    ¬ p <:+: replaceAll q n whole := by
  obtain ⟨gaps, hgaps⟩ := exists_gaps hq whole
  rw [replaceAll_of_gaps hq n hgaps]
  exact not_infix_intercalate_of_apart hn (fun gap hgap hin => h (hin.trans (hgaps.infix_whole hgap))) hgaps.ne_nil

/-- What stands between parts stays, if it lies apart from the word that is replaced. -/
theorem replaceAll_intercalate_of_apart (hp : p ≠ []) (m : List α) (hn : apart p n = true) (hne : parts ≠ []) :
    replaceAll p m (n.intercalate parts) = n.intercalate (parts.map (replaceAll p m)) := by
  induction parts with
  | nil => exact absurd rfl hne
  | cons part parts ih =>
    by_cases hnil : parts = []
    · rw [hnil, List.map_singleton, List.intercalate_singleton, List.intercalate_singleton]
    · have hnil' : parts.map (replaceAll p m) ≠ [] := by simpa using hnil
      rw [List.map_cons, List.intercalate_cons_of_ne_nil hnil, List.intercalate_cons_of_ne_nil hnil',
        replaceAll_append_of_apart hp m hn, ih hnil]

/-- Parts without a word that does not overlap itself are what it cuts the list between them into. -/
theorem gaps_intercalate (hb : unbordered q = true) (hparts : ∀ part ∈ parts, ¬ q <:+: part) (hne : parts ≠ []) :
    Gaps q (q.intercalate parts) parts := by
  induction parts with
  | nil => exact absurd rfl hne
  | cons part parts ih =>
    have hpart := hparts part List.mem_cons_self
    by_cases hnil : parts = []
    · subst hnil
      rw [List.intercalate_singleton]
      exact .last hpart
    · rw [List.intercalate_cons_of_ne_nil hnil]
      exact .next (endsFirst_of_free hb hpart) (ih (fun part' h => hparts part' (List.mem_cons_of_mem part h)) hnil)

/-- **Words that lie apart, from each other and from what is put in, are replaced in any order.** -/
theorem replaceAll_comm (hp : p ≠ []) (hq : q ≠ []) (hb : unbordered q = true) (hpq : apart p q = true)
    (hpn : apart p n = true) (hqm : apart q m = true) (whole : List α) :
    replaceAll p m (replaceAll q n whole) = replaceAll q n (replaceAll p m whole) := by
  obtain ⟨gaps, hgaps⟩ := exists_gaps hq whole
  have hne : gaps.map (replaceAll p m) ≠ [] := by simpa using hgaps.ne_nil
  have hfree : ∀ part ∈ gaps.map (replaceAll p m), ¬ q <:+: part := by
    intro part hpart
    obtain ⟨gap, hgap, rfl⟩ := List.mem_map.mp hpart
    exact not_infix_replaceAll hp hqm (hgaps.not_infix hq hgap)
  calc replaceAll p m (replaceAll q n whole)
      = replaceAll p m (n.intercalate gaps) := by rw [replaceAll_of_gaps hq n hgaps]
    _ = n.intercalate (gaps.map (replaceAll p m)) := replaceAll_intercalate_of_apart hp m hpn hgaps.ne_nil
    _ = replaceAll q n (q.intercalate (gaps.map (replaceAll p m))) :=
        (replaceAll_of_gaps hq n (gaps_intercalate hb hfree hne)).symm
    _ = replaceAll q n (replaceAll p m (q.intercalate gaps)) := by
        rw [replaceAll_intercalate_of_apart hp m hpq hgaps.ne_nil]
    _ = replaceAll q n (replaceAll p m whole) := by rw [hgaps.intercalate_eq]

end

end FlowTypes.Occurrence
