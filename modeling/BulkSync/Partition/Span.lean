import BulkSync.Word

/-!
# Runs of node ids

A task works on a run of consecutive node ids. A run that is made for its degrees carries their sum.
-/

namespace BulkSync

/-- The ids from `start` on, `count` of them. -/
structure Span where
  start : Nat
  count : Nat
  deriving DecidableEq, Repr

namespace Span

/-- The first id behind the run; fails if that needs more than 64 bits. -/
def stop (s : Span) : Except Fault Nat := Word.add? s.start s.count

/-- The ids as a half-open range. -/
def range (s : Span) : Except Fault (Nat × Nat) := do
  return (s.start, ← s.stop)

/-- Whether a node is in the run. The end is computed only for a node that is not before it. -/
def contains (s : Span) (node : Nat) : Except Fault Bool := do
  if node < s.start then return false
  else return decide (node < (← s.stop))

/-- The ids of the run. -/
def toList (s : Span) : List Nat := List.range' s.start s.count

/-- The outline of a run. -/
def describe (s : Span) : String :=
  s!"Partition \x7b start_node: {s.start}, node_count: {s.count} \x7d"

/-- The bytes that one entry of a list of runs takes. -/
def entryBytes : Nat := 16

end Span

/-- A run of node ids and the sum of their degrees. -/
structure WeighedSpan where
  span : Span
  weight : Nat
  deriving DecidableEq, Repr

namespace WeighedSpan

/-- The outline of a run with its weight. -/
def describe (s : WeighedSpan) : String :=
  "DegreePartition \x7b partition: " ++ s.span.describe ++ s!", degree_sum: {s.weight} \x7d"

/-- The bytes that one entry of a list of weighed runs takes. -/
def entryBytes : Nat := 24

end WeighedSpan
end BulkSync
