import FlowTypes.Anchor
import FlowTypes.Proofs.Text.Apart

/-!
# Anchors that look for one text

Most anchors look for one text: a literal does, and so does a pattern that is a row of characters, maybe
behind the boundary of a word. `Needle` is such a text with that condition, `Anchor.needle?` reads it off an
anchor, and `finds_of_needle?` says that the anchor finds it and nothing else.
-/

namespace FlowTypes

/-! ## Needles -/

/-- The last character of a text, or the one before it if the text is empty. -/
def lastOr (previous : Option Char) (t : Text) : Option Char := t.getLast?.or previous

theorem lastOr_append (previous : Option Char) (s t : Text) :
    lastOr previous (s ++ t) = lastOr (lastOr previous s) t := by
  simp [lastOr, List.getLast?_append, Option.or_assoc]

theorem lastOr_of_ne_nil (previous : Option Char) {t : Text} (h : t ≠ []) :
    lastOr previous t = t.getLast? :=
  Option.or_of_isSome (List.getLast?_isSome.mpr h)

/-- What a text ends with is what it ends with after anything. -/
theorem lastOr_eq_of_ne_nil (previous previous' : Option Char) {t : Text} (h : t ≠ []) :
    lastOr previous t = lastOr previous' t := by
  rw [lastOr_of_ne_nil _ h, lastOr_of_ne_nil _ h]

/-- A text to be found, anywhere or only where a word starts. -/
structure Needle where
  text : Text
  wordStart : Bool
  deriving DecidableEq, Repr

namespace Needle

/-- The needle may stand after this character. -/
def admits (n : Needle) (previous : Option Char) : Bool :=
  !(n.wordStart && (previous.map Text.Class.isWord).getD false)

theorem admits_of_not_wordStart {n : Needle} (h : n.wordStart = false) (previous : Option Char) :
    n.admits previous = true := by
  simp [admits, h]

/-- The needle stands nowhere in a text that follows `previous`. -/
def Free (n : Needle) (previous : Option Char) (t : Text) : Prop :=
  ∀ u v, t = u ++ n.text ++ v → n.admits (lastOr previous u) = false

/-- Without the condition on words, the needle just does not occur. -/
theorem free_iff_of_not_wordStart {n : Needle} (h : n.wordStart = false) {previous : Option Char}
    {t : Text} : n.Free previous t ↔ ¬ n.text <:+: t := by
  constructor
  · rintro hf ⟨u, v, rfl⟩
    exact Bool.false_ne_true ((hf u v rfl).symm.trans (admits_of_not_wordStart h _))
  · exact fun hf u v e => absurd ⟨u, v, e.symm⟩ hf

/-- A part of a text without the needle is without it. -/
theorem Free.left {n : Needle} {previous : Option Char} {s t : Text} (h : n.Free previous (s ++ t)) :
    n.Free previous s :=
  fun u v e => h u (v ++ t) (by simp [e])

end Needle

/-! ## Reading needles off anchors -/

/-- The characters of a pattern that is a row of characters. -/
def Regex.letters? : Regex → Option Text
  | .empty => some []
  | .char c => some [c]
  | .seq first second => do return (← first.letters?) ++ (← second.letters?)
  | _ => none

/-- The needle of an anchor that looks for one text. -/
def Anchor.needle? : Anchor → Option Needle
  | literal [] => none
  | literal t => some ⟨t, false⟩
  | pattern _ (.seq .wordBoundary r) =>
    match r.letters? with
    | some (c :: t) => if Text.Class.isWord c then some ⟨c :: t, true⟩ else none
    | _ => none
  | pattern _ r =>
    match r.letters? with
    | some (c :: t) => some ⟨c :: t, false⟩
    | _ => none

/-- The place after a text that stands there. -/
def Pattern.Place.past (p : Pattern.Place) (t : Text) : Pattern.Place :=
  ⟨p.position + t.length, lastOr p.previous t, p.rest.drop t.length⟩

theorem Pattern.Place.past_append (p : Pattern.Place) (s t : Text) :
    p.past (s ++ t) = (p.past s).past t := by
  simp [past, lastOr_append, Nat.add_assoc]

theorem isPrefixOf_append (s t rest : Text) :
    (s ++ t).isPrefixOf rest = (s.isPrefixOf rest && t.isPrefixOf (rest.drop s.length)) := by
  induction s generalizing rest with
  | nil => simp
  | cons c s ih =>
    cases rest with
    | nil => simp [List.isPrefixOf]
    | cons d rest => simp [List.isPrefixOf, ih, Bool.and_assoc]

/-- **A row of characters runs past them and nothing else.** -/
theorem Regex.run_of_letters? (bound : Nat) :
    ∀ {r : Regex} {t : Text}, r.letters? = some t → ∀ (p : Pattern.Place) k,
      r.run bound p k = if t.isPrefixOf p.rest then k (p.past t) else none
  | .empty, t, h, p, k => by
    cases h
    simp [Regex.run, Pattern.Place.past, lastOr]
  | .char d, t, h, p, k => by
    cases h
    rcases p with ⟨position, previous, _ | ⟨c, rest⟩⟩
    · rfl
    · by_cases hc : c = d
      · subst hc; simp [Regex.run, Pattern.Place.past, Pattern.Place.after, lastOr, List.isPrefixOf]
      · simp [Regex.run, List.isPrefixOf, hc, Ne.symm hc]
  | .seq first second, t, h, p, k => by
    simp only [letters?, Option.bind_eq_bind, Option.bind_eq_some_iff, Option.pure_def,
      Option.some.injEq] at h
    obtain ⟨s, hs, u, hu, rfl⟩ := h
    show first.run bound p (fun q => second.run bound q k) = _
    rw [run_of_letters? bound hs, isPrefixOf_append]
    by_cases hp : s.isPrefixOf p.rest = true
    · rw [if_pos hp, run_of_letters? bound hu, hp, Bool.true_and, Pattern.Place.past_append]
      rfl
    · rw [if_neg hp, Bool.eq_false_iff.mpr hp]
      rfl

/-- An anchor that finds the needle and nothing else. -/
structure Anchor.Finds (a : Anchor) (n : Needle) : Prop where
  text_ne_nil : n.text ≠ []
  probe_eq : ∀ bound moving p, a.probe bound moving p =
    if n.text.isPrefixOf p.rest && n.admits p.previous then some n.text.length else none

/-- The match of a row of characters that is not empty. -/
theorem Regex.matchLength?_of_letters? {r : Regex} {c : Char} {t : Text}
    (h : r.letters? = some (c :: t)) (bound : Nat) (moving : Bool) (p : Pattern.Place) :
    r.matchLength? bound moving p =
      if (c :: t).isPrefixOf p.rest then some (c :: t).length else none := by
  rw [matchLength?, run_of_letters? bound h]
  split
  · simp [Pattern.Place.past]
  · rfl

theorem Regex.matchLength?_wordBoundary {r : Regex} {c : Char} {t : Text}
    (h : r.letters? = some (c :: t)) (hc : Text.Class.isWord c = true) (bound : Nat) (moving : Bool)
    (p : Pattern.Place) :
    (Regex.seq .wordBoundary r).matchLength? bound moving p =
      if (c :: t).isPrefixOf p.rest && Needle.admits ⟨c :: t, true⟩ p.previous then
        some (c :: t).length else none := by
  have hrun := matchLength?_of_letters? h bound moving p
  unfold matchLength? at hrun ⊢
  simp only [Regex.run]
  rcases p with ⟨position, previous, _ | ⟨d, rest⟩⟩
  · rw [apply_ite (Option.map _), hrun]
    simp [List.isPrefixOf]
  · rw [apply_ite (Option.map _), hrun]
    by_cases hd : c = d
    · -- the needle starts a word here exactly if no word character stands before it
      subst hd
      cases hp : (previous.map Text.Class.isWord).getD false <;>
        simp [Pattern.Place.atBoundary, Needle.admits, hp, hc]
    · simp [List.isPrefixOf, hd]

/-- **The needle of an anchor is what it finds.** -/
theorem Anchor.finds_of_needle? {a : Anchor} {n : Needle} (h : a.needle? = some n) : a.Finds n := by
  unfold needle? at h
  split at h
  · cases h
  · rename_i t ht
    cases h
    refine ⟨ht, fun bound moving p => ?_⟩
    have he : t.isEmpty = false := by simpa using ht
    simp [probe, he, Needle.admits]
  · split at h
    · rename_i c t hr
      split at h
      · rename_i hc
        cases h
        exact ⟨List.cons_ne_nil _ _, fun bound moving p => Regex.matchLength?_wordBoundary hr hc bound moving p⟩
      · cases h
    · cases h
  · split at h
    · rename_i c t hr
      cases h
      refine ⟨List.cons_ne_nil _ _, fun bound moving p => ?_⟩
      simp [probe, Regex.matchLength?_of_letters? hr, Needle.admits]
    · cases h

end FlowTypes
