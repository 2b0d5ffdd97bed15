import FlowTypes.Text

/-!
# Tables

A table holds a value for each of its keys, in rows. The row of a key follows from its bytes (`spread`), so that
keys are found fast; within a row, the keys that were used last come first. With many keys there are more rows, and
each row is split in two.

The keys are told row by row. That order is no order of meaning, but it is always the same for the same use.
-/

namespace FlowTypes.Script.Records

/-- Values by keys. -/
structure Table (α : Type) where
  rows : Array (List (Text × α))
  size : Nat

namespace Table

variable {α : Type}

/-- A number below `2 ^ 32` that the bytes of a key are spread to. -/
def spread (key : Text) : Nat :=
  key.foldl (fun n c => (n ^^^ c.toNat) * 16777619 % Nat.pow 2 32) 2166136261

/-- The rows of a new table. -/
def startRows : Nat := 64

/-- The keys for each row, on the average, before there are more rows. -/
def crowd : Nat := 12

/-- A table without keys. -/
def empty : Table α := ⟨Array.replicate startRows [], 0⟩

instance : Inhabited (Table α) := ⟨empty⟩

/-- The number of the row of a key. -/
def rowOf (t : Table α) (key : Text) : Nat := spread key % t.rows.size

/-- The value of a key. -/
def get? (t : Table α) (key : Text) : Option α := ((t.rows[t.rowOf key]?).getD []).lookup key

/-- Twice as many rows: each row leaves some of its keys to a new one. -/
def grown (t : Table α) : Table α :=
  let size := t.rows.size
  let stays (entry : Text × α) (i : Nat) : Bool := spread entry.1 % (2 * size) = i
  let lower := t.rows.mapIdx fun i row => row.filter (stays · i)
  let upper := t.rows.mapIdx fun i row => row.filter (stays · (i + size))
  ⟨lower ++ upper, t.size⟩

/-- A value for a key that is there; it stays in its place. -/
def replace (t : Table α) (key : Text) (value : α) : Table α :=
  ⟨t.rows.modify (t.rowOf key) fun row => row.map fun e => if e.1 = key then (key, value) else e, t.size⟩

/-- A value for a key, which comes first in its row. -/
def put (t : Table α) (key : Text) (value : α) : Table α :=
  if (t.get? key).isSome then
    ⟨t.rows.modify (t.rowOf key) fun row => (key, value) :: row.filter (·.1 != key), t.size⟩
  else
    let t := if crowd * t.rows.size ≤ t.size then t.grown else t
    ⟨t.rows.modify (t.rowOf key) ((key, value) :: ·), t.size + 1⟩

/-- The table without a key. -/
def erase (t : Table α) (key : Text) : Table α :=
  if (t.get? key).isSome then
    ⟨t.rows.modify (t.rowOf key) (·.filter (·.1 != key)), t.size - 1⟩
  else t

/-- The keys, row by row. -/
def keys (t : Table α) : List Text := t.rows.toList.flatMap (·.map (·.1))

end Table

end FlowTypes.Script.Records
