import FlowTypes.Proofs.Fallible
import FlowTypes.Proofs.Idl.Copy
import FlowTypes.Proofs.Text.Replacing

/-!
# Sanitized lines

Sanitizing keeps to the lines: what comes out of a text are its lines, each of them sanitized by itself
(`sanitize_lines`). So their number stays, and what the generator says of a line is said of the same line of the
definitions. All that is asked is that neither patterns nor markers hold a line feed.

The attributes of the bindings are elided for good (`sanitize_elidedAttributes`): none of them is left, and it does not
matter which is the first. This holds of all attributes that are *independent*, that is whose patterns lie apart from each
other and from the markers.

Both are facts about replacing words of any symbols, and so they hold of definitions that are no text, too, which are
sanitized as characters and stray bytes (`sanitizeItems_lines`, `sanitizeItems_elidedAttributes`).
-/

namespace FlowTypes.Idl

open Occurrence (Piecewise apart unbordered)

/-! ## Replacing in a row -/

section
variable {α : Type} [DecidableEq α] {pairs others : List (List α × List α)} {sep : α} {whole clean : List α}

/-- Many replacements work between symbols that none of their words holds. -/
theorem piecewise_replaceEach (h : ∀ pair ∈ pairs, sep ∉ pair.1 ∧ sep ∉ pair.2) :
    Piecewise sep (replaceEach pairs) := by
  induction pairs with
  | nil => exact Piecewise.id
  | cons pair pairs ih =>
    obtain ⟨hpattern, hreplacement⟩ := h pair List.mem_cons_self
    have hrest := ih fun pair' h' => h pair' (List.mem_cons_of_mem pair h')
    exact hrest.comp (Piecewise.replaceAll hpattern hreplacement)

/-- A computation that replaces words, if it succeeds at all, does this between symbols that none of the words holds. -/
theorem splitOn_of_replaceEach {ε : Type} {fits : Prop} {run : List α → Except ε (List α)}
    (hrun : ∀ {x y}, run x = .ok y ↔ fits ∧ replaceEach pairs x = y)
    (hsep : fits → ∀ pair ∈ pairs, sep ∉ pair.1 ∧ sep ∉ pair.2) (h : run whole = .ok clean) :
    (whole.splitOn sep).mapM run = .ok (clean.splitOn sep) ∧
      (clean.splitOn sep).length = (whole.splitOn sep).length ∧
      ∀ (i : Nat) (whole' clean' : List α), run whole' = .ok clean' →
        (whole'.splitOn sep)[i]? = (whole.splitOn sep)[i]? → (clean'.splitOn sep)[i]? = (clean.splitOn sep)[i]? := by
  obtain ⟨hfits, rfl⟩ := hrun.mp h
  have hlines := (piecewise_replaceEach (hsep hfits)).splitOn_eq
  refine ⟨?_, ?_, ?_⟩
  · rw [hlines, mapM_eq_ok_iff, List.map_map]
    refine List.map_congr_left fun line _ => ?_
    exact hrun.mpr ⟨hfits, rfl⟩
  · rw [hlines, List.length_map]
  · intro i whole' clean' h' hline
    obtain ⟨-, rfl⟩ := hrun.mp h'
    rw [hlines, hlines, List.getElem?_map, List.getElem?_map, hline]

/-! ## Independent words -/

/-- Without occurrences there is nothing to replace. -/
theorem replaceEach_of_not_infix (hne : ∀ pair ∈ pairs, pair.1 ≠ []) (h : ∀ pair ∈ pairs, ¬ pair.1 <:+: whole) :
    replaceEach pairs whole = whole := by
  induction pairs with
  | nil => rfl
  | cons pair pairs ih =>
    have hfirst := Occurrence.replaceAll_of_not_infix (hne pair List.mem_cons_self) pair.2 (h pair List.mem_cons_self)
    have hrest := ih (fun other hm => hne other (List.mem_cons_of_mem pair hm))
      fun other hm => h other (List.mem_cons_of_mem pair hm)
    calc replaceEach (pair :: pairs) whole
        = replaceEach pairs (Occurrence.replaceAll pair.1 pair.2 whole) := rfl
      _ = whole := by rw [hfirst, hrest]

/-- A word that lies apart from all replacements is not made. -/
theorem not_infix_replaceEach {word : List α} (hne : ∀ pair ∈ pairs, pair.1 ≠ [])
    (hapart : ∀ pair ∈ pairs, apart word pair.2 = true) (h : ¬ word <:+: whole) :
    ¬ word <:+: replaceEach pairs whole := by
  induction pairs generalizing whole with
  | nil => exact h
  | cons pair pairs ih =>
    have hfirst := Occurrence.not_infix_replaceAll (hne pair List.mem_cons_self) (hapart pair List.mem_cons_self) h
    exact ih (fun other hm => hne other (List.mem_cons_of_mem pair hm))
      (fun other hm => hapart other (List.mem_cons_of_mem pair hm)) hfirst

/-- The words that are replaced do not overlap themselves. They lie apart from each other and from all replacements. -/
structure Independent (pairs : List (List α × List α)) : Prop where
  ne_nil : ∀ pair ∈ pairs, pair.1 ≠ []
  unbordered : ∀ pair ∈ pairs, unbordered pair.1 = true
  replacements : ∀ pair ∈ pairs, ∀ other ∈ pairs, apart pair.1 other.2 = true
  words : ∀ pair ∈ pairs, ∀ other ∈ pairs, pair ≠ other → apart pair.1 other.1 = true

namespace Independent

theorem tail {pair : List α × List α} (h : Independent (pair :: pairs)) : Independent pairs where
  ne_nil other hm := h.ne_nil other (List.mem_cons_of_mem pair hm)
  unbordered other hm := h.unbordered other (List.mem_cons_of_mem pair hm)
  replacements other hm third hm' :=
    h.replacements other (List.mem_cons_of_mem pair hm) third (List.mem_cons_of_mem pair hm')
  words other hm third hm' := h.words other (List.mem_cons_of_mem pair hm) third (List.mem_cons_of_mem pair hm')

/-- **No word is left.** -/
theorem not_infix (h : Independent pairs) {pair : List α × List α} (hpair : pair ∈ pairs) (whole : List α) :
    ¬ pair.1 <:+: replaceEach pairs whole := by
  induction pairs generalizing whole with
  | nil => cases hpair
  | cons first pairs ih =>
    rcases List.mem_cons.mp hpair with rfl | hrest
    · -- the first one goes at once, and nothing brings it back
      have hgone := Occurrence.not_infix_replaceAll_self (h.ne_nil pair hpair) (h.replacements pair hpair pair hpair) whole
      show ¬ pair.1 <:+: replaceEach pairs (Occurrence.replaceAll pair.1 pair.2 whole)
      exact not_infix_replaceEach h.tail.ne_nil
        (fun other hm => h.replacements pair hpair other (List.mem_cons_of_mem pair hm)) hgone
    · exact ih h.tail hrest _

/-- **What was replaced once is left alone.** -/
theorem replaceEach_again (h : Independent pairs) (whole : List α) :
    replaceEach pairs (replaceEach pairs whole) = replaceEach pairs whole :=
  replaceEach_of_not_infix h.ne_nil fun _ hpair => h.not_infix hpair whole

/-- **The order does not matter.** -/
theorem replaceEach_perm (h : Independent pairs) (hperm : pairs.Perm others) (whole : List α) :
    replaceEach pairs whole = replaceEach others whole := by
  refine hperm.foldl_eq' ?_ whole
  intro x hx y hy z
  by_cases hxy : x = y
  · rw [hxy]
  · exact Occurrence.replaceAll_comm (h.ne_nil y hy) (h.ne_nil x hx) (h.unbordered x hx)
      (h.words y hy x hx (Ne.symm hxy)) (h.replacements y hy x hx) (h.replacements x hx y hy) z

/-- What is left has none of the words, and it is the old list only if that had none. -/
theorem replaceEach_eq_self_iff (h : Independent pairs) :
    replaceEach pairs whole = whole ↔ ∀ pair ∈ pairs, ¬ pair.1 <:+: whole := by
  constructor
  · intro hsame pair hpair
    exact hsame ▸ h.not_infix hpair whole
  · exact replaceEach_of_not_infix h.ne_nil

end Independent

end

/-! ## Sanitizing -/

/-- The patterns, and the markers that take their places, written with some symbols. -/
def pairsBy {α : Type} (word : Text → List α) (attributes : List ElidedAttribute) : List (List α × List α) :=
  attributes.map fun a => (word a.pattern, word a.marker)

section
variable {attributes : List ElidedAttribute} {t clean : Text} {items cleanItems : List Utf8.Item}

theorem checked_eq_ok_iff {α : Type} {x y : α} :
    (checkMarkers attributes >>= fun _ => pure x) = .ok y ↔ (∀ a ∈ attributes, '\n' ∉ a.marker) ∧ x = y := by
  rw [bind_eq_ok, ← checkMarkers_eq_ok_iff]
  constructor
  · rintro ⟨⟨⟩, hmarkers, h⟩
    exact ⟨hmarkers, Except.ok.inj h⟩
  · rintro ⟨hmarkers, rfl⟩
    exact ⟨(), hmarkers, rfl⟩

/-- **Sanitizing succeeds exactly if all markers fit on a line**, and then replaces one attribute after the other. -/
theorem sanitize_eq_ok_iff :
    sanitize attributes t = .ok clean ↔
      (∀ a ∈ attributes, '\n' ∉ a.marker) ∧ replaceEach (pairsBy id attributes) t = clean :=
  checked_eq_ok_iff

theorem sanitizeItems_eq_ok_iff :
    sanitizeItems attributes items = .ok cleanItems ↔
      (∀ a ∈ attributes, '\n' ∉ a.marker) ∧ replaceEach (pairsBy Utf8.ofText attributes) items = cleanItems :=
  checked_eq_ok_iff

/-! ## Lines -/

/-- **The lines of a sanitized text are the lines of the text, each of them sanitized.** So there are as many of them, and
two texts with the same line in one place have the same sanitized line there. -/
theorem sanitize_lines (hpatterns : ∀ a ∈ attributes, '\n' ∉ a.pattern) (h : sanitize attributes t = .ok clean) :
    (t.splitOn '\n').mapM (sanitize attributes) = .ok (clean.splitOn '\n') ∧
      (clean.splitOn '\n').length = (t.splitOn '\n').length ∧
      ∀ (i : Nat) (t' clean' : Text), sanitize attributes t' = .ok clean' →
        (t'.splitOn '\n')[i]? = (t.splitOn '\n')[i]? → (clean'.splitOn '\n')[i]? = (clean.splitOn '\n')[i]? := by
  refine splitOn_of_replaceEach sanitize_eq_ok_iff (fun hmarkers pair hpair => ?_) h
  obtain ⟨a, ha, rfl⟩ := List.mem_map.mp hpair
  exact ⟨hpatterns a ha, hmarkers a ha⟩

/-- Occurrences overlap here, and the second pattern is empty: its marker is put before every character, and at the end of
every line. -/
theorem sanitize_lines_overlapping :
    (∀ a ∈ [(⟨"aa", "b"⟩ : ElidedAttribute), ⟨"", "-"⟩], '\n' ∉ a.pattern) ∧
      sanitize [⟨"aa", "b"⟩, ⟨"", "-"⟩] "aaa\n\naa" = .ok "-b-a-\n-\n-b-" ∧
      ([("aaa" : Text), "", "aa"]).mapM (sanitize [⟨"aa", "b"⟩, ⟨"", "-"⟩]) =
        .ok [("-b-a-" : Text), "-", "-b-"] := by
  have hpatterns : ∀ a ∈ [(⟨"aa", "b"⟩ : ElidedAttribute), ⟨"", "-"⟩], '\n' ∉ a.pattern := by decide
  have hclean : sanitize [⟨"aa", "b"⟩, ⟨"", "-"⟩] "aaa\n\naa" = .ok "-b-a-\n-\n-b-" := rfl
  exact ⟨hpatterns, hclean, (sanitize_lines hpatterns hclean).1⟩

/-- **It is the same with stray bytes among the characters.** -/
theorem sanitizeItems_lines (hpatterns : ∀ a ∈ attributes, '\n' ∉ a.pattern)
    (h : sanitizeItems attributes items = .ok cleanItems) :
    (items.splitOn (.char '\n')).mapM (sanitizeItems attributes) = .ok (cleanItems.splitOn (.char '\n')) ∧
      (cleanItems.splitOn (.char '\n')).length = (items.splitOn (.char '\n')).length ∧
      ∀ (i : Nat) (items' cleanItems' : List Utf8.Item), sanitizeItems attributes items' = .ok cleanItems' →
        (items'.splitOn (.char '\n'))[i]? = (items.splitOn (.char '\n'))[i]? →
          (cleanItems'.splitOn (.char '\n'))[i]? = (cleanItems.splitOn (.char '\n'))[i]? := by
  have hfeed : ∀ {t : Text}, '\n' ∉ t → Utf8.Item.char '\n' ∉ Utf8.ofText t := by
    intro t ht hm
    obtain ⟨c, hc, hfeed⟩ := List.mem_map.mp hm
    exact ht (Utf8.Item.char.inj hfeed ▸ hc)
  refine splitOn_of_replaceEach sanitizeItems_eq_ok_iff (fun hmarkers pair hpair => ?_) h
  obtain ⟨a, ha, rfl⟩ := List.mem_map.mp hpair
  exact ⟨hfeed (hpatterns a ha), hfeed (hmarkers a ha)⟩

end

/-! ## The attributes of the bindings -/

theorem independent_texts : Independent (pairsBy id elidedAttributes) where
  ne_nil := by decide
  unbordered := by decide
  replacements := by decide
  words := by decide

theorem independent_items : Independent (pairsBy Utf8.ofText elidedAttributes) where
  ne_nil := by decide
  unbordered := by decide
  replacements := by decide
  words := by decide

/-- Where the words of the bindings are independent, none of them is left, and neither another time nor the other order
makes a difference. -/
theorem elided_of_independent {α : Type} [DecidableEq α] {word : Text → List α}
    (h : Independent (pairsBy word elidedAttributes))
    {run : List ElidedAttribute → List α → Except MarkerFault (List α)}
    (hrun : ∀ {attributes x y}, run attributes x = .ok y ↔
      (∀ a ∈ attributes, '\n' ∉ a.marker) ∧ replaceEach (pairsBy word attributes) x = y) (whole : List α) :
    ∃ clean, run elidedAttributes whole = .ok clean ∧ (∀ a ∈ elidedAttributes, ¬ word a.pattern <:+: clean) ∧
      (clean = whole ↔ ∀ a ∈ elidedAttributes, ¬ word a.pattern <:+: whole) ∧
      run elidedAttributes clean = .ok clean ∧ run elidedAttributes.reverse whole = .ok clean := by
  have hmarkers : ∀ a ∈ elidedAttributes, '\n' ∉ a.marker := by decide
  have hpairs : ∀ {x : List α}, (∀ pair ∈ pairsBy word elidedAttributes, ¬ pair.1 <:+: x) ↔
      ∀ a ∈ elidedAttributes, ¬ word a.pattern <:+: x := List.forall_mem_map
  refine ⟨_, hrun.mpr ⟨hmarkers, rfl⟩, ?_, ?_, ?_, ?_⟩
  · exact hpairs.mp fun _ hpair => h.not_infix hpair whole
  · exact h.replaceEach_eq_self_iff.trans hpairs
  · exact hrun.mpr ⟨hmarkers, h.replaceEach_again whole⟩
  · refine hrun.mpr ⟨fun a ha => hmarkers a (List.mem_reverse.mp ha), ?_⟩
    exact (h.replaceEach_perm ((List.reverse_perm elidedAttributes).map _).symm whole).symm

/-- **The attributes of the bindings are elided for good**: every text is sanitized, none of the patterns is left, and
neither another time nor the other order makes a difference. A text without them is left as it is, and no other. -/
theorem sanitize_elidedAttributes (t : Text) :
    ∃ clean, sanitize elidedAttributes t = .ok clean ∧ (∀ a ∈ elidedAttributes, ¬ a.pattern <:+: clean) ∧
      (clean = t ↔ ∀ a ∈ elidedAttributes, ¬ a.pattern <:+: t) ∧
      sanitize elidedAttributes clean = .ok clean ∧ sanitize elidedAttributes.reverse t = .ok clean :=
  elided_of_independent independent_texts sanitize_eq_ok_iff t

/-- The marker parts what stood around the pattern inside, so these never come together. -/
example : sanitize elidedAttributes "[Prefix=\"gd[Prefix=\"gdjs::\"]js::\"]" =
    .ok "[Prefix=\"gd/* Removed gdjs prefix */js::\"]" := rfl

/-- **Stray bytes bring no attribute back**, either. -/
theorem sanitizeItems_elidedAttributes (items : List Utf8.Item) :
    ∃ clean, sanitizeItems elidedAttributes items = .ok clean ∧
      (∀ a ∈ elidedAttributes, ¬ Utf8.ofText a.pattern <:+: clean) ∧
      (clean = items ↔ ∀ a ∈ elidedAttributes, ¬ Utf8.ofText a.pattern <:+: items) ∧
      sanitizeItems elidedAttributes clean = .ok clean ∧
      sanitizeItems elidedAttributes.reverse items = .ok clean :=
  elided_of_independent independent_items sanitizeItems_eq_ok_iff items

end FlowTypes.Idl
