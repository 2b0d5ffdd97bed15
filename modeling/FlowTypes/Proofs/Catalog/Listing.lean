import FlowTypes.Catalog.Listing
import FlowTypes.Proofs.Text.Lower

/-!
# Rules that a filter finds

A filter finds rules by what is in their names and targets, whatever the letter case. It should find at least the rules that
hold its text as it is written. It does so for every text that stands alone, and whatever the text is, where no letter is
next to it (`filterByText_finds`). A text that does not stand alone begins or ends with a capital sigma, marks aside,
whose lower case hangs on the letters beside the text. There is always a rule that holds such a text and is not found;
`filterByText_sigma_missed` shows one.
-/

namespace FlowTypes

/-- The text is in the name of the rule or in its target. -/
def Rule.mentions (r : Rule) (t : Text) : Bool := Occurrence.occursIn t r.name || Occurrence.occursIn t r.target

/-- The same with all letters in lower case. -/
def Rule.mentionsLower (r : Rule) (t : Text) : Bool :=
  Occurrence.occursIn t.lower r.name.lower || Occurrence.occursIn t.lower r.target.lower

namespace Catalog

open Text (meetsCased)

variable {t whole : Text} {r : Rule}

/-- **A filter keeps the rules that mention the text in lower case**; the empty text is mentioned by all. -/
theorem filterByText_some (rules : List Rule) (t : Text) :
    filterByText rules (some t) = rules.filter (·.mentionsLower t) := by
  cases t with
  | cons c t => rfl
  | nil =>
    have hall : ∀ r ∈ rules, r.mentionsLower [] = true := by
      intro r _
      rw [Rule.mentionsLower, Bool.or_eq_true]
      exact .inl (Occurrence.occursIn_iff.mpr ⟨[], r.name.lower, rfl⟩)
    exact (List.filter_eq_self.mpr hall).symm

theorem occursIn_lower (h : t.StandsAlone) (hin : Occurrence.occursIn t whole = true) :
    Occurrence.occursIn t.lower whole.lower = true := by
  obtain ⟨s, u, rfl⟩ := Occurrence.occursIn_iff.mp hin
  exact Occurrence.occursIn_iff.mpr (Text.standsAlone_iff.mp h s u)

theorem mentionsLower_of_mentions (h : t.StandsAlone) (hr : r.mentions t = true) : r.mentionsLower t = true := by
  rw [Rule.mentions, Bool.or_eq_true] at hr
  rw [Rule.mentionsLower, Bool.or_eq_true]
  exact hr.imp (occursIn_lower h) (occursIn_lower h)

/-- A text that does not stand alone is in the name of a rule that is not found. -/
theorem exists_missed (h : ¬ t.StandsAlone) : ∃ r : Rule, r.mentions t = true ∧ filterByText [r] (some t) = [] := by
  obtain ⟨s, u, hnot⟩ : ∃ s u, ¬ t.lower <:+: Text.lower (s ++ t ++ u) := by
    simpa only [Text.standsAlone_iff, Classical.not_forall] using h
  let r : Rule := ⟨s ++ t ++ u, 10, [], [], .create, rfl⟩
  have hname : Occurrence.occursIn t.lower r.name.lower = false :=
    Bool.eq_false_iff.mpr fun hin => hnot (Occurrence.occursIn_iff.mp hin)
  have htarget : Occurrence.occursIn t.lower r.target.lower = false := by
    rw [Bool.eq_false_iff]
    intro hin
    -- only a text without characters is in no characters, and it is in all texts
    have hempty : t.lower = [] := List.infix_nil.mp (Occurrence.occursIn_iff.mp hin)
    exact hnot (hempty ▸ List.nil_infix)
  refine ⟨r, ?_, ?_⟩
  · rw [Rule.mentions, Bool.or_eq_true]
    exact .inl (Occurrence.occursIn_iff.mpr ⟨s, u, rfl⟩)
  · have hlower : r.mentionsLower t = false := by rw [Rule.mentionsLower, hname, htarget]; rfl
    rw [filterByText_some, List.filter_cons_of_neg (by rw [hlower]; exact Bool.false_ne_true), List.filter_nil]

/-- **What a filter finds**: rules in their order, of which each mentions the text in lower case. Exactly the texts that
stand alone find all rules that hold them, and any text finds the rules in which no letter is next to it. -/
theorem filterByText_finds (rules : List Rule) (t : Text) :
    (filterByText rules (some t)).Sublist rules ∧
      (∀ r ∈ filterByText rules (some t), r.mentionsLower t = true) ∧
      (t.StandsAlone → (rules.filter (·.mentions t)).Sublist (filterByText rules (some t))) ∧
      (¬ t.StandsAlone → ∃ r : Rule, r.mentions t = true ∧ filterByText [r] (some t) = []) ∧
      ∀ r ∈ rules, ∀ s u, (r.name = s ++ t ++ u ∨ r.target = s ++ t ++ u) →
        meetsCased s.reverse = false → meetsCased u = false → r ∈ filterByText rules (some t) := by
  refine ⟨filterByText_sublist rules (some t), ?_, ?_, exists_missed, ?_⟩
  all_goals rw [filterByText_some]
  · exact fun r hr => (List.mem_filter.mp hr).2
  · intro h
    have hboth : rules.filter (·.mentions t) = (rules.filter (·.mentionsLower t)).filter (·.mentions t) := by
      rw [List.filter_filter]
      refine List.filter_congr fun r _ => ?_
      cases hr : r.mentions t with
      | false => rfl
      | true => rw [mentionsLower_of_mentions h hr]; rfl
    rw [hboth]
    exact List.filter_sublist
  · intro r hr s u hheld hs hu
    have hkept := Occurrence.occursIn_iff.mpr (Text.infix_lower_of_not_meetsCased hs hu t)
    refine List.mem_filter.mpr ⟨hr, ?_⟩
    rw [Rule.mentionsLower, Bool.or_eq_true]
    rcases hheld with h | h
    · exact .inl (h ▸ hkept)
    · exact .inr (h ▸ hkept)

/-- A rule with a word of three capital Greek letters for its name, the sigma in the middle. -/
def sigmaRule : Rule := ⟨"\u0391\u03a3\u0391", 10, "gdthing.js", "x", .create, rfl⟩

/-- **The first two letters of a name do not find it.** In the text alone the sigma is the last letter, and so another one
in lower case. -/
theorem filterByText_sigma_missed :
    ¬ ∀ (rules : List Rule) (t : Text), t ≠ [] →
      ∀ r ∈ rules, r.mentions t = true → r ∈ filterByText rules (some t) := by
  intro h
  have hmissed : filterByText [sigmaRule] (some "\u0391\u03a3") = [] := by decide +kernel
  have hfound := h [sigmaRule] "\u0391\u03a3" (by decide) sigmaRule List.mem_cons_self (by decide)
  rw [hmissed] at hfound
  cases hfound

end Catalog

end FlowTypes
