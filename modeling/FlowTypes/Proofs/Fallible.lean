/-!
# Computations that can fail

Steps in a row end with an answer if all of them do (`bind_eq_ok`), and else with the fault of the first one that fails
(`bind_eq_error`). The same goes for a step that is taken for every member of a list: there is one answer for each
member, in their order (`mapM_eq_ok_iff`), or one of them fails (`exists_of_mapM_error`).
-/

namespace FlowTypes

variable {α β ε ε' : Type}

/-! ## Steps in a row -/

theorem bind_eq_ok {x : Except ε α} {f : α → Except ε β} {b : β} :
    (x >>= f) = .ok b ↔ ∃ a, x = .ok a ∧ f a = .ok b := by
  cases x <;> simp [bind, Except.bind]

theorem bind_eq_error {x : Except ε α} {f : α → Except ε β} {e : ε} :
    (x >>= f) = .error e ↔ x = .error e ∨ ∃ a, x = .ok a ∧ f a = .error e := by
  cases x <;> simp [bind, Except.bind]

theorem mapError_eq_ok {x : Except ε α} {g : ε → ε'} {a : α} : x.mapError g = .ok a ↔ x = .ok a := by
  cases x with
  | error e =>
    show Except.error (g e) = .ok a ↔ Except.error e = .ok a
    simp
  | ok a' =>
    show Except.ok a' = .ok a ↔ Except.ok a' = .ok a
    simp

/-! ## A step for every member -/

section
variable {f : α → Except ε β} {as : List α} {a : α} {bs : List β} {b : β}

theorem mapM_cons_eq_ok :
    (a :: as).mapM f = .ok bs ↔ ∃ b, f a = .ok b ∧ ∃ more, as.mapM f = .ok more ∧ b :: more = bs := by
  rw [List.mapM_cons]
  simp only [bind_eq_ok, pure, Except.pure, Except.ok.injEq]

/-- Steps that do not fail give what they give one by one. -/
theorem mapM_ok (g : α → β) (as : List α) : as.mapM (fun a => (.ok (g a) : Except ε β)) = .ok (as.map g) :=
  List.mapM_pure

/-- **There is one answer for each member**, in their order. -/
theorem mapM_eq_ok_iff : ∀ {as : List α} {bs : List β}, as.mapM f = .ok bs ↔ as.map f = bs.map .ok
  | [], bs => by cases bs <;> simp [pure, Except.pure]
  | a :: as, bs => by
    rw [mapM_cons_eq_ok, List.map_cons, eq_comm, List.map_eq_cons_iff]
    simp only [mapM_eq_ok_iff]
    constructor
    · rintro ⟨b, hb, more, hmore, rfl⟩
      exact ⟨b, more, rfl, hb.symm, hmore.symm⟩
    · rintro ⟨b, more, rfl, hb, hmore⟩
      exact ⟨b, hb.symm, more, hmore.symm, rfl⟩

theorem exists_mem_of_mapM (h : as.mapM f = .ok bs) (ha : a ∈ as) : ∃ b ∈ bs, f a = .ok b := by
  have hmem := List.mem_map_of_mem (f := f) ha
  rw [mapM_eq_ok_iff.mp h] at hmem
  obtain ⟨b, hb, hfa⟩ := List.mem_map.mp hmem
  exact ⟨b, hb, hfa.symm⟩

theorem exists_of_mem_mapM (h : as.mapM f = .ok bs) (hb : b ∈ bs) : ∃ a ∈ as, f a = .ok b := by
  have hmem := List.mem_map_of_mem (f := Except.ok (ε := ε)) hb
  rw [← mapM_eq_ok_iff.mp h] at hmem
  exact List.mem_map.mp hmem

/-- What fails for many fails for one of them. -/
theorem exists_of_mapM_error {e : ε} : ∀ {as : List α}, as.mapM f = .error e → ∃ a ∈ as, f a = .error e
  | [], h => by cases h
  | a :: as, h => by
    rw [List.mapM_cons, bind_eq_error] at h
    rcases h with hfirst | ⟨b, -, h⟩
    · exact ⟨a, List.mem_cons_self, hfirst⟩
    · rcases bind_eq_error.mp h with hrest | ⟨bs, -, h⟩
      · obtain ⟨a', ha', hfails⟩ := exists_of_mapM_error hrest
        exact ⟨a', List.mem_cons_of_mem _ ha', hfails⟩
      · cases h

end

end FlowTypes
