import FlowTypes.Text

/-!
# UTF-8

Bytes are read by a machine with one state for each owed continuation byte. It yields pieces: a
character, or the bytes of a sequence that breaks off. The broken bytes are as many as still could have
begun a character (a *maximal prefix*), and the byte that broke them off is read afresh.

Three readers share the pieces:

* `decode` refuses at the first broken piece and says where it is and why;
* `decodeLossy` shows every broken piece as one replacement character;
* `units` keeps the bytes of broken pieces as they are, so that `encodeUnits` gives back the input.

## Termination

Each byte is passed once: a byte that breaks off a sequence opens the next one in the same step.
-/

namespace FlowTypes.Utf8

/-! ## Writing -/

/-- The bytes of a text. -/
def encode (t : Text) : List UInt8 := t.flatMap String.utf8EncodeChar

/-! ## Pieces -/

/-- Why a sequence of bytes is not a character. -/
inductive Reason where
  | invalidStart
  | invalidContinuation
  | unexpectedEnd
  deriving DecidableEq, Repr

/-- A character, or the bytes of a sequence that breaks off. -/
inductive Piece where
  | char (c : Char)
  | broken (reason : Reason) (bytes : List UInt8)
  deriving DecidableEq, Repr

/-- A sequence under way: its value so far, its bytes, how many more are owed, and the range of the
next one. -/
structure Pending where
  value : Nat
  bytes : List UInt8
  owed : Nat
  low : Nat
  high : Nat

/-- What a byte at the start of a sequence begins. -/
inductive Opening where
  | ascii (c : Char)
  | pending (p : Pending)
  | invalid

/-- The range of the second byte shuts out overlong forms, surrogates and values past the last one. -/
def openSequence (b : UInt8) : Opening :=
  let n := b.toNat
  if n < 0x80 then .ascii (Char.ofNat n)
  else if n < 0xc2 then .invalid
  else if n < 0xe0 then .pending ⟨n - 0xc0, [b], 1, 0x80, 0xbf⟩
  else if n < 0xf0 then
    .pending ⟨n - 0xe0, [b], 2, if n = 0xe0 then 0xa0 else 0x80, if n = 0xed then 0x9f else 0xbf⟩
  else if n < 0xf5 then
    .pending ⟨n - 0xf0, [b], 3, if n = 0xf0 then 0x90 else 0x80, if n = 0xf4 then 0x8f else 0xbf⟩
  else .invalid

/-- The pieces of the bytes, after those of a sequence that may be under way. -/
def piecesFrom : Option Pending → List UInt8 → List Piece
  | none, [] => []
  | some p, [] => [.broken .unexpectedEnd p.bytes]
  | none, b :: rest =>
    match openSequence b with
    | .ascii c => .char c :: piecesFrom none rest
    | .pending p => piecesFrom (some p) rest
    | .invalid => .broken .invalidStart [b] :: piecesFrom none rest
  | some p, b :: rest =>
    let n := b.toNat
    if p.low ≤ n ∧ n ≤ p.high then
      let value := p.value * 64 + (n - 0x80)
      if p.owed ≤ 1 then .char (Char.ofNat value) :: piecesFrom none rest
      else piecesFrom (some ⟨value, p.bytes ++ [b], p.owed - 1, 0x80, 0xbf⟩) rest
    else
      .broken .invalidContinuation p.bytes ::
        match openSequence b with
        | .ascii c => .char c :: piecesFrom none rest
        | .pending q => piecesFrom (some q) rest
        | .invalid => .broken .invalidStart [b] :: piecesFrom none rest

/-- The pieces of the bytes. -/
def pieces (bytes : List UInt8) : List Piece := piecesFrom none bytes

/-! ## Strict reading -/

/-- The first broken piece of some bytes and its offset. -/
structure Fault where
  reason : Reason
  offset : Nat
  bytes : List UInt8
  deriving DecidableEq, Repr

/-- The characters of the pieces, the first of which lies at an offset. -/
def charsFrom (offset : Nat) : List Piece → Except Fault Text
  | [] => .ok []
  | .char c :: rest => do
    let t ← charsFrom (offset + c.utf8Size) rest
    pure (c :: t)
  | .broken reason bytes :: _ => .error ⟨reason, offset, bytes⟩

/-- The text of the bytes, or where they first break off. -/
def decode (bytes : List UInt8) : Except Fault Text := charsFrom 0 (pieces bytes)

/-- The reason in words. -/
def Reason.message : Reason → Text
  | .invalidStart => "invalid start byte"
  | .invalidContinuation => "invalid continuation byte"
  | .unexpectedEnd => "unexpected end of data"

/-- The two lowest hexadecimal digits of a byte. -/
def hexByte (b : UInt8) : Text := [Nat.digitChar (b.toNat / 16), Nat.digitChar (b.toNat % 16)]

/-- The fault in words: a single byte is shown, several are counted by their positions. -/
def Fault.message (f : Fault) : Text :=
  match f.bytes with
  | [b] =>
    "'utf-8' codec can't decode byte 0x" ++ hexByte b ++ " in position " ++ Text.ofNat f.offset ++ ": "
      ++ f.reason.message
  | bs =>
    "'utf-8' codec can't decode bytes in position " ++ Text.ofNat f.offset ++ "-"
      ++ Text.ofNat (f.offset + bs.length - 1) ++ ": " ++ f.reason.message

/-! ## Lossy reading -/

/-- The text of the bytes, with a replacement character for each broken piece. -/
def decodeLossy (bytes : List UInt8) : Text :=
  (pieces bytes).map fun
    | .char c => c
    | .broken _ _ => Char.ofNat 0xfffd

/-! ## Lossless reading -/

/-- A character, or a byte that belongs to none. -/
inductive Item where
  | char (c : Char)
  | stray (b : UInt8)
  deriving DecidableEq, Repr

/-- The characters of the bytes and, in their places, the bytes that belong to none. -/
def units (bytes : List UInt8) : List Item :=
  (pieces bytes).flatMap fun
    | .char c => [.char c]
    | .broken _ bs => bs.map .stray

/-- The bytes of the items. -/
def encodeUnits (items : List Item) : List UInt8 :=
  items.flatMap fun
    | .char c => String.utf8EncodeChar c
    | .stray b => [b]

/-- A text as items. -/
def ofText (t : Text) : List Item := t.map .char

/-- A text without stray bytes is written as a text. -/
theorem encodeUnits_ofText (t : Text) : encodeUnits (ofText t) = encode t := by
  simp [encodeUnits, ofText, encode, List.flatMap_map]

end FlowTypes.Utf8
