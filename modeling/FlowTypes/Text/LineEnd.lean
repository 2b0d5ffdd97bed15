import FlowTypes.Text

/-!
# Line ends

Texts are read with one kind of line end: a carriage return, alone or before a line feed, becomes a line
feed. Nothing else changes, and a text without carriage returns stays as it is.
-/

namespace FlowTypes.Text

/-- Both `\r\n` and a lone `\r` become `\n`. -/
def unifyLineEnds : Text → Text
  | [] => []
  | '\r' :: '\n' :: rest => '\n' :: unifyLineEnds rest
  | c :: rest => (if c = '\r' then '\n' else c) :: unifyLineEnds rest

/-- No carriage return is left. -/
theorem not_mem_unifyLineEnds (t : Text) : '\r' ∉ unifyLineEnds t := by
  fun_induction unifyLineEnds t with
  | case1 => simp
  | case2 rest ih => simp [ih]
  | case3 c rest _ ih =>
    by_cases h : c = '\r'
    · simp [h, ih]
    · simp [h, ih, Ne.symm h]

/-- A text without carriage returns is unchanged. -/
theorem unifyLineEnds_of_not_mem : ∀ t : Text, '\r' ∉ t → unifyLineEnds t = t
  | [], _ => rfl
  | c :: rest, h => by
    have hc : c ≠ '\r' := fun e => h (e ▸ List.mem_cons_self)
    have ih := unifyLineEnds_of_not_mem rest (fun m => h (List.mem_cons_of_mem _ m))
    rw [unifyLineEnds.eq_3 c rest (fun _ e => absurd e hc), ih, if_neg hc]

end FlowTypes.Text
