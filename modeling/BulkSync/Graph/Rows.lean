import BulkSync.Paged.Cursor

/-!
# Packed rows

Rows of varying length, one behind the other in a single paged array; `offsets` says where each row
starts, with one more entry for the end of the last row. Rows are made from lists (`ofLists`), or from
items that each carry the number of their row (`group`): a counting sort that keeps the items of a row
in the order in which they came.
-/

namespace BulkSync

/-- Rows packed into one array. -/
structure Rows (α : Type) where
  offsets : Paged Nat
  values : Paged α

namespace Rows

variable {α : Type}

/-! ## Reading -/

/-- The number of rows. -/
def rowCount (r : Rows α) : Nat := r.offsets.size - 1

/-- Where a row starts and where it ends. -/
def bounds (r : Rows α) (row : Nat) : Nat × Nat := (r.offsets.peek row, r.offsets.peek (row + 1))

/-- The length of a row. -/
def rowLength (r : Rows α) (row : Nat) : Nat :=
  let (start, stop) := r.bounds row
  stop - start

/-- The slices of pages that a row lies in. -/
def slices (r : Rows α) (row : Nat) : List (Array α) :=
  let (start, stop) := r.bounds row
  (r.values.cursor start stop).items.map (·.2)

/-- The items of a row. -/
def row (r : Rows α) (row : Nat) : List α := (r.slices row).flatMap (·.toList)

/-! ## Making rows -/

/-- `count` empty rows. -/
def empty [Inhabited α] (count : Nat) : Rows α := ⟨Paged.new (count + 1), Paged.new 0⟩

/-- Adds one to a counter. -/
def bump (counters : Paged Nat) (index : Nat) : Paged Nat :=
  let old := counters.peek index
  counters.poke index (old + 1)

/-- The starts of `count` rows: each item is counted behind its row, and the counts are summed up. -/
def startsOf (count : Nat) (items : List (Nat × α)) : Paged Nat :=
  let counts := items.foldl (fun counts item => bump counts (item.1 + 1)) (Paged.new (count + 1))
  (List.range' 1 count).foldl (fun offsets i =>
    let before := offsets.peek (i - 1)
    let here := offsets.peek i
    offsets.poke i (here + before)) counts

/-- Puts an item into the next free slot of its row. -/
def place (offsets : Paged Nat) (state : Paged Nat × Paged α) (item : Nat × α) :
    Paged Nat × Paged α :=
  let (filled, values) := state
  let slot := offsets.peek item.1 + filled.peek item.1
  (bump filled item.1, values.poke slot item.2)

/-- The items by the number of their row. -/
def group [Inhabited α] (count : Nat) (items : List (Nat × α)) : Rows α :=
  let offsets := startsOf count items
  let (_, values) := items.foldl (place offsets) (Paged.new count, Paged.new items.length)
  ⟨offsets, values⟩

/-- Writes a row behind the rows before it. -/
def append (state : Nat × Nat × Rows α) (row : List α) : Nat × Nat × Rows α :=
  let (index, cursor, rows) := state
  let (cursor', values) := row.foldl (fun (cursor, values) item =>
    (cursor + 1, Paged.poke values cursor item)) (cursor, rows.values)
  (index + 1, cursor', ⟨rows.offsets.poke index cursor, values⟩)

/-- The rows of a list. -/
def ofLists [Inhabited α] (rows : List (List α)) : Rows α :=
  let total := rows.flatten.length
  let (count, cursor, packed) :=
    rows.foldl append (0, 0, ⟨Paged.new (rows.length + 1), Paged.new total⟩)
  ⟨packed.offsets.poke count cursor, packed.values⟩

end Rows
end BulkSync
