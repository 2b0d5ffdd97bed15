import FlowTypes.Proofs.Text.Gaps
import FlowTypes.Proofs.Text.Units

/-!
# ASCII words in bytes

A word of ASCII characters that is looked for among characters and stray bytes is found at the same places as its bytes
among their bytes (`exists_of_encodeUnits_eq`). For every byte of an ASCII character is a character on its own, and no
other byte is in the range of ASCII: neither a part of a longer character nor a stray one. So the occurrence begins
and ends where items do.

Replacing the word may therefore be done before or after writing (`encodeUnits_replaceAll`).
-/

namespace FlowTypes.Utf8

/-- All characters are ASCII. -/
def IsAscii (t : Text) : Prop := ∀ c ∈ t, c.toNat < 0x80

instance (t : Text) : Decidable (IsAscii t) :=
  decidable_of_iff (t.all (·.toNat < 0x80) = true) (by simp [IsAscii])

/-- No stray byte is in the range of ASCII. -/
def StraysHigh (items : List Item) : Prop := ∀ b, .stray b ∈ items → 0x80 ≤ b.toNat

/-! ## Bytes of one item -/

/-- The bytes of an item. -/
def Item.bytes : Item → List UInt8
  | .char c => String.utf8EncodeChar c
  | .stray b => [b]

@[simp] theorem encodeUnits_nil : encodeUnits [] = [] := rfl

theorem encodeUnits_cons (item : Item) (items : List Item) :
    encodeUnits (item :: items) = item.bytes ++ encodeUnits items := by
  cases item <;> rfl

theorem encodeUnits_append (items more : List Item) :
    encodeUnits (items ++ more) = encodeUnits items ++ encodeUnits more := List.flatMap_append

theorem encode_cons (c : Char) (t : Text) : encode (c :: t) = String.utf8EncodeChar c ++ encode t := rfl

theorem encode_ne_nil {t : Text} (h : t ≠ []) : encode t ≠ [] := by
  obtain ⟨c, rest, rfl⟩ := List.exists_cons_of_ne_nil h
  rw [encode_cons]
  simp

theorem utf8EncodeChar_of_lt {c : Char} (h : c.toNat < 0x80) :
    String.utf8EncodeChar c = [UInt8.ofNat c.toNat] := by
  have hv : c.val.toNat ≤ 0x7f := Nat.le_of_lt_succ h
  simp only [String.utf8EncodeChar, if_pos hv]
  rfl

theorem toNat_ofNat_of_lt {c : Char} (h : c.toNat < 0x80) : (UInt8.ofNat c.toNat).toNat = c.toNat :=
  toNat_ofNat (by omega)

/-- A character past ASCII has no byte in the range of ASCII. -/
theorem le_of_mem_utf8EncodeChar {c : Char} (h : 0x80 ≤ c.toNat) {b : UInt8}
    (hb : b ∈ String.utf8EncodeChar c) : 0x80 ≤ b.toNat := by
  have hv : ¬ c.val.toNat ≤ 0x7f := Nat.not_le.mpr h
  have hbounds := toNat_bounds c
  simp only [String.utf8EncodeChar, if_neg hv] at hb
  split at hb
  · simp only [List.mem_cons, List.not_mem_nil, or_false] at hb
    rcases hb with rfl | rfl <;> rw [toNat_ofNat (by omega)] <;> omega
  split at hb
  · simp only [List.mem_cons, List.not_mem_nil, or_false] at hb
    rcases hb with rfl | rfl | rfl <;> rw [toNat_ofNat (by omega)] <;> omega
  · simp only [List.mem_cons, List.not_mem_nil, or_false] at hb
    rcases hb with rfl | rfl | rfl | rfl <;> rw [toNat_ofNat (by omega)] <;> omega

/-- **An item is an ASCII character, or none of its bytes is in the range of ASCII.** -/
theorem Item.bytes_cases {item : Item} (h : ∀ b, item = .stray b → 0x80 ≤ b.toNat) :
    (∃ c : Char, c.toNat < 0x80 ∧ item = .char c ∧ item.bytes = [UInt8.ofNat c.toNat]) ∨
      item.bytes ≠ [] ∧ ∀ b ∈ item.bytes, 0x80 ≤ b.toNat := by
  cases item with
  | stray b =>
    refine .inr ⟨List.cons_ne_nil b [], fun b' hb' => ?_⟩
    rw [List.mem_singleton.mp hb']
    exact h b rfl
  | char c =>
    by_cases hc : c.toNat < 0x80
    · exact .inl ⟨c, hc, rfl, utf8EncodeChar_of_lt hc⟩
    · exact .inr ⟨String.utf8EncodeChar_ne_nil, fun b => le_of_mem_utf8EncodeChar (Nat.le_of_not_lt hc)⟩

/-! ## Words -/

theorem StraysHigh.head {item : Item} {items : List Item} (h : StraysHigh (item :: items)) (b : UInt8)
    (hitem : item = .stray b) : 0x80 ≤ b.toNat :=
  h b (hitem ▸ List.mem_cons_self)

theorem StraysHigh.tail {item : Item} {items : List Item} (h : StraysHigh (item :: items)) : StraysHigh items :=
  fun b hb => h b (List.mem_cons_of_mem item hb)

/-- Bytes that begin with an ASCII word are those of items that begin with the word. -/
theorem exists_of_encode_prefix {word : Text} (hword : IsAscii word) {items : List Item} {v : List UInt8}
    (hitems : StraysHigh items) (h : encodeUnits items = encode word ++ v) :
    ∃ after, items = ofText word ++ after ∧ encodeUnits after = v := by
  induction word generalizing items with
  | nil => exact ⟨items, rfl, h⟩
  | cons c word ih =>
    have hc : c.toNat < 0x80 := hword c List.mem_cons_self
    rw [encode_cons, utf8EncodeChar_of_lt hc] at h
    cases items with
    | nil => cases h
    | cons item items =>
      rw [encodeUnits_cons] at h
      rcases Item.bytes_cases hitems.head with ⟨d, hd, rfl, hbytes⟩ | ⟨hne, hhigh⟩
      · rw [hbytes] at h
        simp only [List.cons_append, List.nil_append, List.cons.injEq] at h
        have hdc : d = c := by
          have hvalue := congrArg UInt8.toNat h.1
          rw [toNat_ofNat_of_lt hd, toNat_ofNat_of_lt hc] at hvalue
          rw [← Char.ofNat_toNat d, hvalue, Char.ofNat_toNat]
        obtain ⟨after, rfl, hafter⟩ := ih (fun e he => hword e (List.mem_cons_of_mem c he)) hitems.tail h.2
        exact ⟨after, by rw [hdc]; rfl, hafter⟩
      · -- the first byte is in the range of ASCII
        obtain ⟨b, rest, hrest⟩ := List.exists_cons_of_ne_nil hne
        rw [hrest] at h hhigh
        simp only [List.cons_append, List.nil_append, List.cons.injEq] at h
        have hb := hhigh b List.mem_cons_self
        rw [h.1, toNat_ofNat_of_lt hc] at hb
        omega

/-- **Where the bytes of an ASCII word stand, the word stands among the items.** -/
theorem exists_of_encodeUnits_eq {word : Text} (hword : IsAscii word) (hne : word ≠ []) {items : List Item}
    {u v : List UInt8} (hitems : StraysHigh items) (h : encodeUnits items = u ++ encode word ++ v) :
    ∃ before after, items = before ++ ofText word ++ after ∧ encodeUnits before = u ∧ encodeUnits after = v := by
  induction items generalizing u with
  | nil =>
    exfalso
    obtain ⟨c, rest, rfl⟩ := List.exists_cons_of_ne_nil hne
    rw [encode_cons, utf8EncodeChar_of_lt (hword c List.mem_cons_self)] at h
    simp at h
  | cons item items ih =>
    by_cases hu : u = []
    · subst hu
      obtain ⟨after, hafter, hv⟩ := exists_of_encode_prefix hword hitems (v := v) (by simpa using h)
      exact ⟨[], after, hafter, rfl, hv⟩
    rw [encodeUnits_cons, List.append_assoc] at h
    rcases List.append_eq_append_iff.mp h with ⟨w, rfl, hw⟩ | ⟨w, hbytes, hw⟩
    · -- the item lies before the word
      obtain ⟨before, after, rfl, rfl, rfl⟩ := ih hitems.tail (by rw [hw, List.append_assoc])
      exact ⟨item :: before, after, rfl, encodeUnits_cons item before, rfl⟩
    · by_cases hwnil : w = []
      · subst hwnil
        obtain ⟨before, after, rfl, hbefore, rfl⟩ := ih (u := []) hitems.tail (by simpa using hw.symm)
        refine ⟨item :: before, after, rfl, ?_, rfl⟩
        rw [encodeUnits_cons, hbefore, hbytes, List.append_nil, List.append_nil]
      · -- the word would begin inside of the item
        exfalso
        obtain ⟨c, rest, rfl⟩ := List.exists_cons_of_ne_nil hne
        obtain ⟨b, tail, rfl⟩ := List.exists_cons_of_ne_nil hwnil
        have hc := hword c List.mem_cons_self
        rw [encode_cons, utf8EncodeChar_of_lt hc] at hw
        simp only [List.cons_append, List.nil_append, List.cons.injEq] at hw
        rcases Item.bytes_cases hitems.head with ⟨d, -, -, hsingle⟩ | ⟨-, hhigh⟩
        · have hlength := congrArg List.length (hbytes.symm.trans hsingle)
          have hpos := List.length_pos_iff.mpr hu
          simp only [List.length_append, List.length_cons, List.length_nil] at hlength
          omega
        · have hb := hhigh b (by rw [hbytes]; simp)
          rw [← hw.1, toNat_ofNat_of_lt hc] at hb
          omega

/-! ## Replacing -/

section
variable {word : Text}

/-- The parts between the occurrences are the same among items and among bytes. -/
theorem gaps_encodeUnits (hword : IsAscii word) (hne : word ≠ []) {items : List Item} {gaps : List (List Item)}
    (hitems : StraysHigh items) (h : Occurrence.Gaps (ofText word) items gaps) :
    Occurrence.Gaps (encode word) (encodeUnits items) (gaps.map encodeUnits) := by
  induction h with
  | @last gap hfree =>
    refine .last ?_
    rintro ⟨u, v, e⟩
    obtain ⟨before, after, rfl, -, -⟩ := exists_of_encodeUnits_eq hword hne hitems e.symm
    exact hfree (List.infix_append before (ofText word) after)
  | @next gap rest gaps hfirst hrest ih =>
    have hgap : StraysHigh (gap ++ ofText word) := fun b hb => hitems b (List.mem_append_left rest hb)
    have hrest' := ih fun b hb => hitems b (List.mem_append_right _ hb)
    rw [encodeUnits_append, encodeUnits_append, encodeUnits_ofText]
    refine .next ?_ hrest'
    intro u v e
    rw [← encodeUnits_ofText word, ← encodeUnits_append, encodeUnits_ofText word] at e
    obtain ⟨before, after, hsplit, -, rfl⟩ := exists_of_encodeUnits_eq hword hne hgap e
    rw [hfirst before after hsplit, encodeUnits_nil]

theorem encodeUnits_intercalate (separator : List Item) (parts : List (List Item)) :
    encodeUnits (separator.intercalate parts) = (encodeUnits separator).intercalate (parts.map encodeUnits) := by
  induction parts with
  | nil => rfl
  | cons part parts ih =>
    by_cases hparts : parts = []
    · subst hparts
      simp [List.intercalate_singleton]
    · rw [List.intercalate_cons_of_ne_nil hparts, List.map_cons,
        List.intercalate_cons_of_ne_nil (by simpa using hparts), encodeUnits_append, encodeUnits_append, ih]

/-- **Replacing an ASCII word and writing** may be done in either order, and leaves stray bytes as they are. -/
theorem encodeUnits_replaceAll (hword : IsAscii word) (hne : word ≠ []) (replacement : Text) {items : List Item}
    (hitems : StraysHigh items) :
    encodeUnits (Occurrence.replaceAll (ofText word) (ofText replacement) items) =
        Occurrence.replaceAll (encode word) (encode replacement) (encodeUnits items) ∧
      StraysHigh (Occurrence.replaceAll (ofText word) (ofText replacement) items) := by
  have hitemWord : ofText word ≠ [] := by simpa [ofText] using hne
  obtain ⟨gaps, hgaps⟩ := Occurrence.exists_gaps hitemWord items
  rw [Occurrence.replaceAll_of_gaps hitemWord _ hgaps,
    Occurrence.replaceAll_of_gaps (encode_ne_nil hne) _ (gaps_encodeUnits hword hne hitems hgaps)]
  refine ⟨by rw [encodeUnits_intercalate, encodeUnits_ofText], fun b hb => ?_⟩
  rcases Occurrence.mem_intercalate hb with hb | ⟨gap, hgap, hb⟩
  · simp [ofText] at hb
  · exact hitems b ((hgaps.infix_whole hgap).mem hb)

end

end FlowTypes.Utf8
