import FlowTypes.FileTree

/-!
# What is written as UTF-8 is read back

Writing a text and reading the bytes gives the text again (`decode_encode`). The machine of
`FlowTypes.Utf8` takes the bytes of one character at a time, so everything follows from one step: after
the bytes of a character it has yielded that character and owes nothing.

Files are read with unified line ends. So a file that was written from a text is read as that text exactly
if the text holds no carriage return (`textOf_encode`), and every text that was read is of that kind
(`not_mem_of_textOf`).
-/

namespace FlowTypes.Utf8

/-! ## One character -/

/-- The value of a character is none of the surrogates and is below the last plane's end. -/
theorem toNat_bounds (c : Char) : c.val.toNat < 0xd800 ∨ 0xdfff < c.val.toNat ∧ c.val.toNat < 0x110000 :=
  c.valid

theorem toNat_ofNat {n : Nat} (h : n < 256) : (UInt8.ofNat n).toNat = n := UInt8.toNat_ofNat_of_lt' h

theorem piecesFrom_open {b : UInt8} {p : Pending} (h : openSequence b = .pending p)
    (rest : List UInt8) : piecesFrom none (b :: rest) = piecesFrom (some p) rest := by
  rw [piecesFrom, h]

/-- A byte in the range goes into the value, and the next one is owed. -/
theorem piecesFrom_more (owed : Nat) {value low high : Nat} {bytes : List UInt8} {b : UInt8}
    (hlow : low ≤ b.toNat) (hhigh : b.toNat ≤ high) (rest : List UInt8) :
    piecesFrom (some ⟨value, bytes, owed + 2, low, high⟩) (b :: rest) =
      piecesFrom (some ⟨value * 64 + (b.toNat - 0x80), bytes ++ [b], owed + 1, 0x80, 0xbf⟩) rest := by
  rw [piecesFrom]
  dsimp only
  rw [if_pos ⟨hlow, hhigh⟩, if_neg (by omega)]
  rfl

/-- The last byte that is owed ends the character. -/
theorem piecesFrom_last {value low high : Nat} {bytes : List UInt8} {b : UInt8}
    (hlow : low ≤ b.toNat) (hhigh : b.toNat ≤ high) (rest : List UInt8) :
    piecesFrom (some ⟨value, bytes, 1, low, high⟩) (b :: rest) =
      .char (Char.ofNat (value * 64 + (b.toNat - 0x80))) :: piecesFrom none rest := by
  rw [piecesFrom]
  dsimp only
  rw [if_pos ⟨hlow, hhigh⟩, if_pos (by omega)]

/-- A byte that goes on with a sequence. -/
theorem toNat_tail (n : Nat) : (UInt8.ofNat (n % 0x40 + 0x80)).toNat = n % 0x40 + 0x80 :=
  toNat_ofNat (by omega)

/-- **The bytes of a character are read as that character.** -/
theorem piecesFrom_encodeChar (c : Char) (rest : List UInt8) :
    piecesFrom none (String.utf8EncodeChar c ++ rest) = .char c :: piecesFrom none rest := by
  have hv := toNat_bounds c
  have hc : Char.ofNat c.val.toNat = c := Char.ofNat_toNat c
  unfold String.utf8EncodeChar
  generalize c.val.toNat = v at hv hc
  dsimp only
  subst hc
  split
  · -- one byte
    have hn : (UInt8.ofNat v).toNat = v := toNat_ofNat (by omega)
    rw [List.singleton_append, piecesFrom, openSequence]
    simp only [hn]
    rw [if_pos (by omega)]
  split
  · -- two bytes
    have hn : (UInt8.ofNat (v / 64 % 0x20 + 0xc0)).toNat = v / 64 % 0x20 + 0xc0 :=
      toNat_ofNat (by omega)
    have hopen : openSequence (UInt8.ofNat (v / 64 % 0x20 + 0xc0)) = .pending
        ⟨v / 64 % 0x20, [UInt8.ofNat (v / 64 % 0x20 + 0xc0)], 1, 0x80, 0xbf⟩ := by
      simp only [openSequence, hn, Nat.add_sub_cancel]
      rw [if_neg (by omega), if_neg (by omega), if_pos (by omega)]
    rw [List.cons_append, List.singleton_append, piecesFrom_open hopen,
      piecesFrom_last (by rw [toNat_tail]; omega) (by rw [toNat_tail]; omega), toNat_tail]
    rw [show v / 64 % 0x20 * 64 + (v % 0x40 + 0x80 - 0x80) = v by omega]
  split
  · -- three bytes
    have hn : (UInt8.ofNat (v / 4096 % 0x10 + 0xe0)).toNat = v / 4096 % 0x10 + 0xe0 :=
      toNat_ofNat (by omega)
    have hopen : openSequence (UInt8.ofNat (v / 4096 % 0x10 + 0xe0)) = .pending
        ⟨v / 4096 % 0x10, [UInt8.ofNat (v / 4096 % 0x10 + 0xe0)], 2,
          if v / 4096 % 0x10 + 0xe0 = 0xe0 then 0xa0 else 0x80,
          if v / 4096 % 0x10 + 0xe0 = 0xed then 0x9f else 0xbf⟩ := by
      simp only [openSequence, hn, Nat.add_sub_cancel]
      rw [if_neg (by omega), if_neg (by omega), if_neg (by omega), if_pos (by omega)]
    rw [List.cons_append, List.cons_append, List.singleton_append, piecesFrom_open hopen,
      piecesFrom_more 0 (by rw [toNat_tail]; split <;> omega)
        (by rw [toNat_tail]; split <;> omega),
      piecesFrom_last (by rw [toNat_tail]; omega) (by rw [toNat_tail]; omega), toNat_tail, toNat_tail]
    rw [show (v / 4096 % 0x10 * 64 + (v / 64 % 0x40 + 0x80 - 0x80)) * 64
        + (v % 0x40 + 0x80 - 0x80) = v by omega]
  · -- four bytes
    have hn : (UInt8.ofNat (v / 262144 % 0x08 + 0xf0)).toNat = v / 262144 % 0x08 + 0xf0 :=
      toNat_ofNat (by omega)
    have hopen : openSequence (UInt8.ofNat (v / 262144 % 0x08 + 0xf0)) = .pending
        ⟨v / 262144 % 0x08, [UInt8.ofNat (v / 262144 % 0x08 + 0xf0)], 3,
          if v / 262144 % 0x08 + 0xf0 = 0xf0 then 0x90 else 0x80,
          if v / 262144 % 0x08 + 0xf0 = 0xf4 then 0x8f else 0xbf⟩ := by
      simp only [openSequence, hn, Nat.add_sub_cancel]
      rw [if_neg (by omega), if_neg (by omega), if_neg (by omega), if_neg (by omega), if_pos (by omega)]
    rw [List.cons_append, List.cons_append, List.cons_append, List.singleton_append,
      piecesFrom_open hopen,
      piecesFrom_more 1 (by rw [toNat_tail]; split <;> omega)
        (by rw [toNat_tail]; split <;> omega),
      piecesFrom_more 0 (by rw [toNat_tail]; omega) (by rw [toNat_tail]; omega),
      piecesFrom_last (by rw [toNat_tail]; omega) (by rw [toNat_tail]; omega), toNat_tail, toNat_tail,
      toNat_tail]
    rw [show ((v / 262144 % 0x08 * 64 + (v / 4096 % 0x40 + 0x80 - 0x80)) * 64
        + (v / 64 % 0x40 + 0x80 - 0x80)) * 64 + (v % 0x40 + 0x80 - 0x80) = v by omega]

/-! ## Texts -/

/-- The pieces of a written text are its characters. -/
theorem pieces_encode : ∀ t : Text, pieces (encode t) = t.map .char
  | [] => rfl
  | c :: t => by
    show piecesFrom none (String.utf8EncodeChar c ++ encode t) = _
    rw [piecesFrom_encodeChar, List.map_cons]
    exact congrArg _ (pieces_encode t)

theorem charsFrom_map_char : ∀ (t : Text) (offset : Nat), charsFrom offset (t.map .char) = .ok t
  | [], _ => rfl
  | c :: t, offset => by
    rw [List.map_cons, charsFrom, charsFrom_map_char t]
    rfl

/-- **What is written is read back.** -/
theorem decode_encode (t : Text) : decode (encode t) = .ok t := by
  rw [decode, pieces_encode, charsFrom_map_char]

end FlowTypes.Utf8

namespace FlowTypes.FileTree

/-- A text without carriage returns is read from the file that it was written to. -/
theorem textOf_encode {t : Text} (h : '\r' ∉ t) : textOf (Utf8.encode t) = .ok t := by
  simp [textOf, Utf8.decode_encode, Text.unifyLineEnds_of_not_mem t h]

theorem textOf_error {bytes : List UInt8} {fault : FileFault} (h : textOf bytes = .error fault) :
    ∃ cause, fault = .notText cause := by
  unfold textOf at h
  split at h
  · cases h
  · cases h
    exact ⟨_, rfl⟩

/-- No carriage return is left in a text that was read. -/
theorem not_mem_of_textOf {bytes : List UInt8} {t : Text} (h : textOf bytes = .ok t) : '\r' ∉ t := by
  unfold textOf at h
  split at h
  · rw [← Except.ok.inj h]
    exact Text.not_mem_unifyLineEnds _
  · cases h

end FlowTypes.FileTree
