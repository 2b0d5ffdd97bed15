import FlowTypes.Proofs.Text.Encoding
import Mathlib.Algebra.Group.Nat.Defs

/-!
# Reading bytes and losing none

Bytes that need not be a text are read as characters and, in their places, bytes that belong to none. Writing
these gives the same bytes again, whatever they are (`encodeUnits_units`).

The machine of `FlowTypes.Utf8` takes apart what it later puts together, so the other direction from
`FlowTypes.Proofs.Text.Encoding` is needed here: the bytes of a sequence under way are the first ones of whatever
character it may still become (`Pending.Sound`). Every step keeps this, and at the last byte that is owed there is
only one such character.

A byte that belongs to no character is never in the range of ASCII (`Faithful.high`): such a byte is a character on its
own wherever it stands, and it breaks off every sequence.
-/

namespace FlowTypes.Utf8

/-! ## Sequences under way -/

/-- The last bytes of a character with a value, as many as are owed: the lowest digits to base 64. -/
def tails : Nat → Nat → List UInt8
  | 0, _ => []
  | owed + 1, v => UInt8.ofNat (v / 64 ^ owed % 64 + 0x80) :: tails owed v

/-- Some byte is owed, and the bytes so far are the first ones of every character that the sequence may become. -/
structure Pending.Sound (p : Pending) : Prop where
  owed : 0 < p.owed
  low : 0x80 ≤ p.low
  high : p.high ≤ 0xbf
  bytes : ∀ b ∈ p.bytes, 0x80 ≤ b.toNat
  completes : ∀ v, v / 64 ^ p.owed = p.value →
    p.low ≤ v / 64 ^ (p.owed - 1) % 64 + 0x80 → v / 64 ^ (p.owed - 1) % 64 + 0x80 ≤ p.high →
      String.utf8EncodeChar (Char.ofNat v) = p.bytes ++ tails p.owed v

/-- The bytes of a character, by its value. -/
theorem utf8EncodeChar_ofNat {v : Nat} (h : v.isValidChar) :
    String.utf8EncodeChar (Char.ofNat v) =
      if v ≤ 0x7f then [UInt8.ofNat v]
      else if v ≤ 0x7ff then [UInt8.ofNat (v / 64 % 0x20 + 0xc0), UInt8.ofNat (v % 64 + 0x80)]
      else if v ≤ 0xffff then [UInt8.ofNat (v / 4096 % 0x10 + 0xe0), UInt8.ofNat (v / 64 % 64 + 0x80),
        UInt8.ofNat (v % 64 + 0x80)]
      else [UInt8.ofNat (v / 262144 % 8 + 0xf0), UInt8.ofNat (v / 4096 % 64 + 0x80),
        UInt8.ofNat (v / 64 % 64 + 0x80), UInt8.ofNat (v % 64 + 0x80)] := by
  have hv : (Char.ofNat v).val.toNat = v := by
    rw [Char.ofNat, dif_pos h]
    rfl
  simp only [String.utf8EncodeChar, hv]

/-- What begins a sequence begins every character that the sequence may become. -/
theorem sound_of_openSequence {b : UInt8} {p : Pending} (h : openSequence b = .pending p) : p.Sound := by
  have hb : UInt8.ofNat b.toNat = b := UInt8.ofNat_toNat
  unfold openSequence at h
  simp only at h
  split at h
  · cases h
  split at h
  · cases h
  split at h
  · -- one byte is owed
    obtain rfl := Opening.pending.inj h
    refine ⟨by simp, Nat.le_refl _, Nat.le_refl _, by simp; omega, ?_⟩
    intro v hvalue hlow hhigh
    simp only [Nat.pow_one, Nat.sub_self, Nat.pow_zero, Nat.div_one] at hvalue hlow hhigh
    rw [utf8EncodeChar_ofNat (by unfold Nat.isValidChar; omega), if_neg (by omega), if_pos (by omega)]
    rw [show v / 64 % 0x20 + 0xc0 = b.toNat by omega, hb]
    simp [tails]
  split at h
  · -- two bytes are owed
    obtain rfl := Opening.pending.inj h
    refine ⟨by simp, by simp only; split <;> omega, by simp only; split <;> omega, by simp; omega, ?_⟩
    intro v hvalue hlow hhigh
    simp only [Nat.reducePow, Nat.reduceSub] at hvalue hlow hhigh
    have hrange : 0x800 ≤ v ∧ v ≤ 0xffff ∧ (v < 0xd800 ∨ 0xdfff < v) := by
      split at hlow <;> split at hhigh <;> omega
    rw [utf8EncodeChar_ofNat (by unfold Nat.isValidChar; omega), if_neg (by omega), if_neg (by omega),
      if_pos (by omega)]
    rw [show v / 4096 % 0x10 + 0xe0 = b.toNat by omega, hb]
    simp [tails]
  split at h
  · -- three bytes are owed
    obtain rfl := Opening.pending.inj h
    refine ⟨by simp, by simp only; split <;> omega, by simp only; split <;> omega, by simp; omega, ?_⟩
    intro v hvalue hlow hhigh
    simp only [Nat.reducePow, Nat.reduceSub] at hvalue hlow hhigh
    have hrange : 0x10000 ≤ v ∧ v < 0x110000 := by
      split at hlow <;> split at hhigh <;> omega
    rw [utf8EncodeChar_ofNat (by unfold Nat.isValidChar; omega), if_neg (by omega), if_neg (by omega),
      if_neg (by omega)]
    rw [show v / 262144 % 8 + 0xf0 = b.toNat by omega, hb]
    simp [tails]
  · cases h

namespace Pending.Sound

variable {p : Pending} {b : UInt8}

/-- A byte in the range is the next one of every character that the sequence may become then. -/
theorem step (h : p.Sound) (hlow : p.low ≤ b.toNat) (hhigh : b.toNat ≤ p.high) {v : Nat}
    (hvalue : v / 64 ^ (p.owed - 1) = p.value * 64 + (b.toNat - 0x80)) :
    String.utf8EncodeChar (Char.ofNat v) = p.bytes ++ b :: tails (p.owed - 1) v := by
  obtain ⟨owed, howed⟩ := Nat.exists_eq_add_one.mpr h.owed
  have hcompletes := h.completes v
  have hrange := h.low
  have hrange' := h.high
  rw [howed, Nat.add_sub_cancel] at hvalue hcompletes ⊢
  have hdigit : v / 64 ^ owed % 64 + 0x80 = b.toNat := by omega
  have hvalue' : v / 64 ^ (owed + 1) = p.value := by
    rw [Nat.pow_succ, ← Nat.div_div_eq_div_mul, hvalue]
    omega
  rw [hdigit] at hcompletes
  rw [hcompletes hvalue' hlow hhigh, tails, hdigit, UInt8.ofNat_toNat]

/-- One byte further, and still under way. -/
theorem further (h : p.Sound) (hlow : p.low ≤ b.toNat) (hhigh : b.toNat ≤ p.high) (howed : 1 < p.owed) :
    Sound ⟨p.value * 64 + (b.toNat - 0x80), p.bytes ++ [b], p.owed - 1, 0x80, 0xbf⟩ := by
  constructor
  case owed => exact Nat.sub_pos_of_lt howed
  case low => exact Nat.le_refl _
  case high => exact Nat.le_refl _
  case bytes =>
    intro b' hb'
    rcases List.mem_append.mp hb' with hb' | hb'
    · exact h.bytes b' hb'
    · rw [List.mem_singleton.mp hb']
      exact Nat.le_trans h.low hlow
  case completes =>
    intro v hvalue _ _
    rw [h.step hlow hhigh hvalue, List.append_assoc]
    rfl

/-- The last byte makes it the character with the value. -/
theorem last (h : p.Sound) (hlow : p.low ≤ b.toNat) (hhigh : b.toNat ≤ p.high) (howed : p.owed ≤ 1) :
    String.utf8EncodeChar (Char.ofNat (p.value * 64 + (b.toNat - 0x80))) = p.bytes ++ [b] := by
  have hone : p.owed - 1 = 0 := by omega
  have hstep := h.step hlow hhigh (v := p.value * 64 + (b.toNat - 0x80)) (by rw [hone, Nat.pow_zero, Nat.div_one])
  rwa [hone] at hstep

end Pending.Sound

/-! ## Pieces -/

/-- The bytes of a piece. -/
def Piece.bytes : Piece → List UInt8
  | .char c => String.utf8EncodeChar c
  | .broken _ bytes => bytes

/-- The pieces are made of the bytes, and those that belong to no character are out of the range of ASCII. -/
structure Faithful (pieces : List Piece) (bytes : List UInt8) : Prop where
  bytes : pieces.flatMap Piece.bytes = bytes
  high : ∀ reason broken, .broken reason broken ∈ pieces → ∀ b ∈ broken, 0x80 ≤ b.toNat

namespace Faithful

variable {pieces : List Piece} {rest : List UInt8}

theorem nil : Faithful [] [] := ⟨rfl, nofun⟩

/-- One more character in front. -/
theorem char (h : Faithful pieces rest) {c : Char} {front : List UInt8}
    (hc : String.utf8EncodeChar c = front) : Faithful (.char c :: pieces) (front ++ rest) := by
  constructor
  case bytes => rw [List.flatMap_cons, h.bytes, Piece.bytes, hc]
  case high =>
    intro reason broken hm
    rcases List.mem_cons.mp hm with hm | hm
    · cases hm
    · exact h.high reason broken hm

/-- Broken bytes in front. -/
theorem broken (h : Faithful pieces rest) (reason : Reason) {front : List UInt8}
    (hfront : ∀ b ∈ front, 0x80 ≤ b.toNat) : Faithful (.broken reason front :: pieces) (front ++ rest) := by
  constructor
  case bytes => rw [List.flatMap_cons, h.bytes, Piece.bytes]
  case high =>
    intro reason broken hm
    rcases List.mem_cons.mp hm with hm | hm
    · cases hm
      exact hfront
    · exact h.high reason broken hm

end Faithful

/-- What begins nothing is out of the range of ASCII. -/
theorem le_of_openSequence_invalid {b : UInt8} (h : openSequence b = .invalid) : 0x80 ≤ b.toNat := by
  unfold openSequence at h
  simp only at h
  split at h
  · cases h
  · omega

theorem bytes_of_openSequence {b : UInt8} {p : Pending} (h : openSequence b = .pending p) : p.bytes = [b] := by
  unfold openSequence at h
  simp only at h
  repeat' split at h
  all_goals first
    | obtain rfl := Opening.pending.inj h
      rfl
    | cases h

/-- A byte in the range of ASCII is a character on its own. -/
theorem utf8EncodeChar_of_openSequence {b : UInt8} {c : Char} (h : openSequence b = .ascii c) :
    String.utf8EncodeChar c = [b] := by
  unfold openSequence at h
  simp only at h
  split at h
  · obtain rfl := Opening.ascii.inj h
    rw [utf8EncodeChar_ofNat (by unfold Nat.isValidChar; omega), if_pos (by omega), UInt8.ofNat_toNat]
  · repeat' split at h
    all_goals cases h

/-- A byte out of the range breaks the sequence off and is read afresh. -/
theorem piecesFrom_breaks {p : Pending} {b : UInt8} (h : ¬ (p.low ≤ b.toNat ∧ b.toNat ≤ p.high))
    (rest : List UInt8) :
    piecesFrom (some p) (b :: rest) = .broken .invalidContinuation p.bytes :: piecesFrom none (b :: rest) := by
  rw [piecesFrom, piecesFrom, if_neg h]

/-- **No byte is lost**, whether a sequence is under way or not. -/
theorem faithful_piecesFrom (bytes : List UInt8) :
    Faithful (piecesFrom none bytes) bytes ∧
      ∀ p : Pending, p.Sound → Faithful (piecesFrom (some p) bytes) (p.bytes ++ bytes) := by
  induction bytes with
  | nil =>
    refine ⟨.nil, fun p hp => ?_⟩
    show Faithful [.broken .unexpectedEnd p.bytes] (p.bytes ++ [])
    exact .broken .nil _ hp.bytes
  | cons b rest ih =>
    obtain ⟨ihnone, ihsome⟩ := ih
    have hopen : Faithful (piecesFrom none (b :: rest)) (b :: rest) := by
      rw [piecesFrom]
      cases hb : openSequence b with
      | ascii c => exact ihnone.char (utf8EncodeChar_of_openSequence hb)
      | pending p =>
        have hunder := ihsome p (sound_of_openSequence hb)
        rwa [bytes_of_openSequence hb] at hunder
      | invalid => exact ihnone.broken _ (by simpa using le_of_openSequence_invalid hb)
    refine ⟨hopen, fun p hp => ?_⟩
    by_cases hrange : p.low ≤ b.toNat ∧ b.toNat ≤ p.high
    · obtain ⟨hlow, hhigh⟩ := hrange
      rw [piecesFrom]
      dsimp only
      rw [if_pos ⟨hlow, hhigh⟩]
      split
      · rename_i howed
        have hlast := ihnone.char (hp.last hlow hhigh howed)
        rwa [List.append_assoc] at hlast
      · rename_i howed
        have hfurther := ihsome _ (hp.further hlow hhigh (Nat.lt_of_not_le howed))
        dsimp only at hfurther
        rwa [List.append_assoc] at hfurther
    · rw [piecesFrom_breaks hrange]
      exact hopen.broken _ hp.bytes

/-! ## Items -/

/-- **What is read is written back**, whatever the bytes are. -/
theorem encodeUnits_units (bytes : List UInt8) : encodeUnits (units bytes) = bytes := by
  have hitems : ∀ piece ∈ pieces bytes, encodeUnits (match piece with
      | .char c => [.char c]
      | .broken _ bs => bs.map .stray) = piece.bytes := by
    intro piece _
    cases piece with
    | char c => simp [encodeUnits, Piece.bytes]
    | broken reason broken => simp [encodeUnits, Piece.bytes, List.flatMap_map]
  calc encodeUnits (units bytes) = (pieces bytes).flatMap Piece.bytes := by
        rw [units, encodeUnits, List.flatMap_assoc, List.flatMap_def, List.flatMap_def]
        exact congrArg List.flatten (List.map_congr_left hitems)
    _ = bytes := (faithful_piecesFrom bytes).1.bytes

/-- A byte that belongs to no character is out of the range of ASCII. -/
theorem le_of_stray_mem_units {bytes : List UInt8} {b : UInt8} (h : .stray b ∈ units bytes) :
    0x80 ≤ b.toNat := by
  obtain ⟨piece, hpiece, hb⟩ := List.mem_flatMap.mp h
  cases piece with
  | char c => simp at hb
  | broken reason broken =>
    simp only [List.mem_map, Item.stray.injEq, exists_eq_right] at hb
    exact (faithful_piecesFrom bytes).1.high reason broken hpiece b hb

end FlowTypes.Utf8
