import FlowTypes.Pattern.Reader
import FlowTypes.Proofs.Anchor.Needle

/-!
# Reading escaped texts

`escape` puts a backslash before every character that means something in a pattern, and before some others. The reader takes
each escaped character for itself (`tokensFrom_escape`). So **an escaped text is read as the row of its characters**
(`read?_escape`), and this row looks for nothing but the text (`letters?_sequence`).
-/

namespace FlowTypes

namespace Pattern

/-! ## Tokens -/

/-- The characters that do not stand for themselves outside brackets. -/
def meaningful : Text := ['\\', '[', '(', ')', '|', '*', '+', '?', '.', '^', '$', '\x7b']

/-- The tokens of a row of characters. -/
def atoms (t : Text) : List Token := t.map fun c => .atom (.char c)

/-- All characters stand for themselves. -/
def isPlain (t : Text) : Bool := t.all fun c => !meaningful.contains c

theorem special_of_meaningful {c : Char} (h : c ∈ meaningful) : c ∈ special := by
  have hall : (meaningful.all fun c => special.contains c) = true := by decide
  exact List.contains_iff_mem.mp (List.all_eq_true.mp hall c h)

theorem escaped?_of_special {c : Char} (h : c ∈ special) : escaped? c = some (.char c) := by
  have hall : (special.all fun c => decide (escaped? c = some (.char c))) = true := by decide
  exact of_decide_eq_true (List.all_eq_true.mp hall c h)

theorem tokensFrom_cons {c : Char} (h : c ∉ meaningful) (rest : Text) :
    tokensFrom 0 (c :: rest) = (tokensFrom 0 rest).map (.atom (.char c) :: ·) := by
  have hne : ∀ d ∈ meaningful, (c == d) = false := fun d hd => beq_eq_false_iff_ne.mpr fun e => h (e ▸ hd)
  simp only [meaningful, List.forall_mem_cons] at hne
  simp [tokensFrom, hne]

/-- After a backslash every character that needs one stands for itself. -/
theorem tokensFrom_backslash {c : Char} (h : c ∈ special) (rest : Text) :
    tokensFrom 0 ('\\' :: c :: rest) = (tokensFrom 0 rest).map (.atom (.char c) :: ·) := by
  simp [tokensFrom, escaped?_of_special h]

/-- Characters without a meaning are read as they are. -/
theorem tokensFrom_append {t : Text} (h : isPlain t = true) (rest : Text) :
    tokensFrom 0 (t ++ rest) = (tokensFrom 0 rest).map (atoms t ++ ·) := by
  induction t with
  | nil => simp [atoms]
  | cons c t ih =>
    rw [isPlain, List.all_cons, Bool.and_eq_true, Bool.not_eq_true', ← Bool.not_eq_true, List.contains_iff_mem] at h
    rw [List.cons_append, tokensFrom_cons h.1, ih h.2, Option.map_map]
    rfl

/-- **Escaped characters are read as characters.** -/
theorem tokensFrom_escape (t rest : Text) :
    tokensFrom 0 (escape t ++ rest) = (tokensFrom 0 rest).map (atoms t ++ ·) := by
  induction t with
  | nil => simp [atoms, escape]
  | cons c t ih =>
    have hone : tokensFrom 0 ((if special.contains c then ['\\', c] else [c]) ++ (escape t ++ rest)) =
        (tokensFrom 0 (escape t ++ rest)).map (.atom (.char c) :: ·) := by
      by_cases hc : c ∈ special
      · rw [if_pos (List.contains_iff_mem.mpr hc)]
        exact tokensFrom_backslash hc _
      · rw [if_neg (mt List.contains_iff_mem.mp hc)]
        exact tokensFrom_cons (fun h => hc (special_of_meaningful h)) _
    rw [escape, List.flatMap_cons, List.append_assoc]
    refine hone.trans ?_
    rw [ih, Option.map_map]
    rfl

/-! ## Rows of characters -/

/-- Atoms are put together in sequence. -/
theorem assemble_atoms (rs : List Regex) (g : Group) :
    assemble g [] (rs.map .atom) = some { g with items := rs.reverse ++ g.items }.close := by
  induction rs generalizing g with
  | nil => rfl
  | cons r rs ih =>
    rw [List.map_cons, assemble, ih]
    simp

theorem sequence_cons {rs : List Regex} (h : rs ≠ []) (r : Regex) : sequence (r :: rs) = .seq r (sequence rs) := by
  obtain ⟨s, rs, rfl⟩ := List.exists_cons_of_ne_nil h
  rfl

theorem assemble_start (rs : List Regex) : assemble .start [] (rs.map .atom) = some (sequence rs) := by
  rw [assemble_atoms]
  simp [Group.start, Group.close]

/-- Nothing is repeated in a row of atoms. -/
theorem repeatWell_atoms (rs : List Regex) : repeatWell (rs.map .atom) = true := by
  induction rs with
  | nil => rfl
  | cons r rs ih =>
    cases rs with
    | nil => rfl
    | cons s rs => exact ih

/-- **A row of characters looks for the text of these characters.** -/
theorem letters?_sequence (t : Text) : (sequence (t.map .char)).letters? = some t := by
  induction t with
  | nil => rfl
  | cons c t ih =>
    by_cases ht : t = []
    · subst ht
      rfl
    · rw [List.map_cons, sequence_cons (by simpa using ht), Regex.letters?, ih]
      rfl

/-- **An escaped text stands for itself.** -/
theorem read?_escape (t : Text) : read? (escape t) = some (sequence (t.map .char)) := by
  have htokens := tokensFrom_escape t []
  rw [List.append_nil] at htokens
  have hatoms : tokensFrom 0 (escape t) = some ((t.map Regex.char).map .atom) := by
    rw [htokens, List.map_map]
    simp [tokensFrom, atoms, Function.comp_def]
  rw [read?, hatoms, ← assemble_start]
  exact if_pos (repeatWell_atoms _)

end Pattern

end FlowTypes
