/-!
# Occurrences of one list in another

Where a list of symbols occurs in another: as a part (`occursIn`), at the end (`endsWith`), and from
left to right without overlap (`replaceAll`, `countOf`). The functions work on any symbols, so that a
text and its bytes are searched by the same rule.

An empty pattern occurs before every symbol and at the end.

## Termination

The scans go symbol by symbol and carry how many symbols of a found occurrence are still to be passed
over, so they are structural; a found occurrence never makes them jump.
-/

namespace FlowTypes.Occurrence

variable {α : Type} [DecidableEq α]

/-- The pattern is a contiguous part of the list. -/
def occursIn (pattern : List α) : List α → Bool
  | [] => pattern.isPrefixOf []
  | c :: rest => pattern.isPrefixOf (c :: rest) || occursIn pattern rest

/-- The list ends with the pattern. -/
def endsWith (whole pattern : List α) : Bool := pattern.isSuffixOf whole

/-- The list after `skip` symbols, each leftmost occurrence of a pattern that is not empty replaced. -/
def replaceFrom (pattern replacement : List α) (skip : Nat) : List α → List α
  | [] => []
  | c :: rest =>
    match skip with
    | k + 1 => replaceFrom pattern replacement k rest
    | 0 =>
      if pattern.isPrefixOf (c :: rest) then
        replacement ++ replaceFrom pattern replacement (pattern.length - 1) rest
      else c :: replaceFrom pattern replacement 0 rest

/-- Every occurrence of the pattern, taken from the left without overlap, becomes the replacement. -/
def replaceAll (pattern replacement whole : List α) : List α :=
  if pattern.isEmpty then whole.flatMap (fun c => replacement ++ [c]) ++ replacement
  else replaceFrom pattern replacement 0 whole

/-- The number of occurrences after `skip` symbols of a pattern that is not empty. -/
def countFrom (pattern : List α) (skip : Nat) : List α → Nat
  | [] => 0
  | c :: rest =>
    match skip with
    | k + 1 => countFrom pattern k rest
    | 0 =>
      if pattern.isPrefixOf (c :: rest) then countFrom pattern (pattern.length - 1) rest + 1
      else countFrom pattern 0 rest

/-- The number of occurrences of the pattern, taken from the left without overlap. -/
def countOf (pattern whole : List α) : Nat :=
  if pattern.isEmpty then whole.length + 1 else countFrom pattern 0 whole

/-- A part is what stands between two others. -/
theorem occursIn_iff {pattern : List α} :
    ∀ {whole : List α}, occursIn pattern whole = true ↔ ∃ s t, s ++ pattern ++ t = whole
  | [] => by simp [occursIn, List.isPrefixOf_iff_prefix]
  | c :: rest => by
    rw [occursIn, Bool.or_eq_true, List.isPrefixOf_iff_prefix, occursIn_iff]
    constructor
    · rintro (⟨t, h⟩ | ⟨s, t, h⟩)
      · exact ⟨[], t, by simpa using h⟩
      · exact ⟨c :: s, t, by simpa using h⟩
    · rintro ⟨s, t, h⟩
      cases s with
      | nil => exact .inl ⟨t, by simpa using h⟩
      | cons d s =>
        simp only [List.cons_append, List.cons.injEq] at h
        exact .inr ⟨s, t, h.2⟩

end FlowTypes.Occurrence
