import BulkSync.Paged.Cells
import BulkSync.Property.Schema

/-!
# Stores of node properties

A store holds a column per declaration of its schema, and in each column a number per node. A key
stands for the column of its last declaration. What is asked of a column must fit its kind; then the
node must be one.
-/

namespace BulkSync

/-- The numbers of one property. -/
inductive Column where
  | long (cells : Cells Int64)
  | double (cells : Cells Binary64)

namespace Column

/-- A column of zeros. -/
def new (kind : PropertyKind) (nodes : Nat) : Column :=
  match kind with
  | .long => .long (Cells.new nodes)
  | .double => .double (Cells.new nodes)

/-- The kind of a column. -/
def kind : Column → PropertyKind
  | .long _ => .long
  | .double _ => .double

end Column

/-- The properties of all nodes. -/
structure PropertyStore where
  nodes : Nat
  schema : Schema
  columns : Array Column

namespace PropertyStore

/-- A store of zeros. -/
def new (schema : Schema) (nodes : Nat) : PropertyStore where
  nodes := nodes
  schema := schema
  columns := (schema.properties.map fun p => Column.new p.kind nodes).toArray

/-! ## Columns -/

/-- The place of the last declaration of a key among declarations numbered from `index` on. -/
def lastPlace (key : String) : Nat → List Property → Option Nat
  | _, [] => none
  | index, p :: ps => (lastPlace key (index + 1) ps).or (if p.key = key then some index else none)

/-- The place of the column that a key stands for. -/
def place (s : PropertyStore) (key : String) : Except PropertyError Nat :=
  match lastPlace key 0 s.schema.properties with
  | some index => .ok index
  | none => .error (.unknown key)

/-- The column that a key stands for. -/
def column (s : PropertyStore) (key : String) : Except PropertyError Column := do
  let index ← s.place key
  match s.columns[index]? with
  | some column => return column
  | none => throw (.unknown key)

/-- The integers under a key. -/
def longs (s : PropertyStore) (key : String) : Except PropertyError (Cells Int64) := do
  match ← s.column key with
  | .long cells => return cells
  | .double _ => throw (.mismatch key .long .double)

/-- The doubles under a key. -/
def doubles (s : PropertyStore) (key : String) : Except PropertyError (Cells Binary64) := do
  match ← s.column key with
  | .double cells => return cells
  | .long _ => throw (.mismatch key .double .long)

/-- The store with another column under a key. -/
def setColumn (s : PropertyStore) (key : String) (column : Column) : PropertyStore :=
  match lastPlace key 0 s.schema.properties with
  | some index => { s with columns := s.columns.setIfInBounds index column }
  | none => s

/-! ## Single numbers -/

/-- The integer of a node. -/
def readLong (s : PropertyStore) (key : String) (node : Nat) : Except Fault Int64 := do
  let cells ← (s.longs key).mapError .property
  (cells.read node).mapError .access

/-- The double of a node. -/
def readDouble (s : PropertyStore) (key : String) (node : Nat) : Except Fault Binary64 := do
  let cells ← (s.doubles key).mapError .property
  (cells.read node).mapError .access

/-- Sets the integer of a node. -/
def writeLong (s : PropertyStore) (key : String) (node : Nat) (value : Int64) :
    Except Fault PropertyStore := do
  let cells ← (s.longs key).mapError .property
  let cells ← (cells.write node value).mapError .access
  return s.setColumn key (.long cells)

/-- Sets the double of a node. -/
def writeDouble (s : PropertyStore) (key : String) (node : Nat) (value : Binary64) :
    Except Fault PropertyStore := do
  let cells ← (s.doubles key).mapError .property
  let cells ← (cells.write node value).mapError .access
  return s.setColumn key (.double cells)

/-- Adds to the integer of a node and answers what it was. -/
def addLong (s : PropertyStore) (key : String) (node : Nat) (delta : Int64) :
    Except Fault (Int64 × PropertyStore) := do
  let cells ← (s.longs key).mapError .property
  let (result, cells) := (Cells.addAt node delta).outcome cells
  return ((← result).before, s.setColumn key (.long cells))

/-! ## The result -/

/-- The store of the properties that are part of the result, in the order of their declaration. It
fails if two of them have one key. -/
def exposed (s : PropertyStore) : Except Fault PropertyStore := do
  let kept := (s.schema.properties.zip s.columns.toList).filter fun (p, _) =>
    p.visibility == .exposed
  let schema ← Schema.ofList (kept.map fun (p, _) => { p with visibility := .exposed })
  return ⟨s.nodes, schema, (kept.map (·.2)).toArray⟩

end PropertyStore
end BulkSync
