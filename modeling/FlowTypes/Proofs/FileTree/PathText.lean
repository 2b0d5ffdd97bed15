import FlowTypes.FileTree

/-!
# The text of a path

The system knows a path by its text. The text holds a null byte if one of the components does
(`Path.null_mem_text_iff`), and it grows with every component (`Path.text_child`, `Path.length_text_le_child`).
-/

namespace FlowTypes

/-! ## Null bytes in paths -/

theorem Text.mem_join {c : Char} {separator : Text} :
    ∀ {parts : List Text}, c ∈ join separator parts → c ∈ separator ∨ ∃ part ∈ parts, c ∈ part
  | [part], h => .inr ⟨part, List.mem_singleton_self part, h⟩
  | part :: next :: rest, h => by
    rw [join, List.append_assoc, List.mem_append, List.mem_append] at h
    rcases h with h | h | h
    · exact .inr ⟨part, List.mem_cons_self, h⟩
    · exact .inl h
    · rcases mem_join h with h | ⟨part', hm, h⟩
      · exact .inl h
      · exact .inr ⟨part', List.mem_cons_of_mem _ hm, h⟩

theorem Text.mem_join_of_mem {c : Char} {separator part : Text} (hc : c ∈ part) :
    ∀ {parts : List Text}, part ∈ parts → c ∈ join separator parts
  | [first], h => by
    rw [List.mem_singleton.mp h] at hc
    exact hc
  | first :: next :: rest, h => by
    rw [join, List.append_assoc, List.mem_append, List.mem_append]
    rcases List.mem_cons.mp h with rfl | h
    · exact .inl hc
    · exact .inr (.inr (mem_join_of_mem hc h))

/-- The text of a path holds a null byte if one of its components does. -/
theorem Path.null_mem_text_iff {p : Path} : '\x00' ∈ p.text ↔ ∃ part ∈ p.parts, '\x00' ∈ part := by
  unfold text
  split
  · rename_i h
    simp only [Bool.and_eq_true, List.isEmpty_iff] at h
    simp [h.2]
  · rw [List.mem_append]
    constructor
    · rintro (h | h)
      · exact absurd (List.eq_of_mem_replicate h) (by decide)
      · rcases Text.mem_join h with h | h
        · exact absurd (List.mem_singleton.mp h) (by decide)
        · exact h
    · rintro ⟨part, hm, hc⟩
      exact .inr (Text.mem_join_of_mem hc hm)

theorem Path.null_text_child {out : Path} {name : Text} (h : (out.child name).text.contains '\x00' = false) :
    out.text.contains '\x00' = false := by
  refine Bool.eq_false_iff.mpr fun hc => Bool.eq_false_iff.mp h ?_
  obtain ⟨part, hm, hpart⟩ := Path.null_mem_text_iff.mp (by simpa using hc)
  simpa using Path.null_mem_text_iff.mpr ⟨part, List.mem_append_left _ hm, hpart⟩

/-! ## Lengths of paths -/

theorem Text.join_concat (separator part : Text) :
    ∀ {parts : List Text}, parts ≠ [] →
      join separator (parts ++ [part]) = join separator parts ++ separator ++ part
  | [first], _ => by simp [join]
  | first :: second :: rest, _ => by
    have ih := join_concat separator part (List.cons_ne_nil second rest)
    rw [List.cons_append] at ih
    simp only [List.cons_append, join, ih, List.append_assoc]

theorem Utf8.length_encode_append (s t : Text) :
    (encode (s ++ t)).length = (encode s).length + (encode t).length := by
  simp [encode]

theorem Utf8.length_encode_le : ∀ t : Text, (encode t).length ≤ 4 * t.length
  | [] => Nat.le_refl _
  | c :: t => by
    have ih := length_encode_le t
    have hc := c.utf8Size_le_four
    simp only [encode, List.flatMap_cons, List.length_append, String.length_utf8EncodeChar,
      List.length_cons] at ih ⊢
    omega

theorem Utf8.length_encode_le_of_prefix {s t : Text} (h : s <+: t) :
    (encode s).length ≤ (encode t).length := by
  obtain ⟨rest, rfl⟩ := h
  rw [length_encode_append]
  exact Nat.le_add_right _ _

/-- A path further down is longer by the name and at most a slash. -/
theorem Path.text_child (out : Path) (name : Text) :
    ∃ front, (out.child name).text = front ++ name ∧ (front = out.text ++ ['/'] ∨ front <+: out.text) := by
  by_cases hparts : out.parts = []
  · refine ⟨List.replicate out.slashes '/', by simp [text, child, hparts, Text.join], .inr ?_⟩
    by_cases hslashes : out.slashes = 0
    · simp [hslashes]
    · simp [text, hparts, hslashes, Text.join]
  · have hempty : out.parts.isEmpty = false := by simpa using hparts
    exact ⟨out.text ++ ['/'], by simp [text, child, hempty, Text.join_concat ['/'] name hparts], .inl rfl⟩

/-- A path is no longer than the paths below it. -/
theorem Path.length_text_le_child (out : Path) {name : Text} (hname : name ≠ []) :
    (Utf8.encode out.text).length ≤ (Utf8.encode (out.child name).text).length := by
  by_cases hparts : out.parts = []
  · by_cases hslashes : out.slashes = 0
    · -- a dot is as long as any name
      have hchild : (out.child name).text = name := by simp [text, child, hparts, hslashes, Text.join]
      have hdot : out.text = ['.'] := by simp [text, hparts, hslashes]
      obtain ⟨c, rest, rfl⟩ := List.exists_cons_of_ne_nil hname
      rw [hchild, hdot]
      have hc : 0 < (Utf8.encode [c]).length := by
        simpa [Utf8.encode, String.length_utf8EncodeChar] using c.utf8Size_pos
      have hone : (Utf8.encode ['.']).length = 1 := by decide
      have hle := Utf8.length_encode_le_of_prefix (List.prefix_append [c] rest)
      rw [List.singleton_append] at hle
      omega
    · refine Utf8.length_encode_le_of_prefix ⟨name, ?_⟩
      simp [text, child, hparts, hslashes, Text.join]
  · have hempty : out.parts.isEmpty = false := by simpa using hparts
    refine Utf8.length_encode_le_of_prefix ⟨'/' :: name, ?_⟩
    simp [text, child, hempty, Text.join_concat ['/'] name hparts]

end FlowTypes
