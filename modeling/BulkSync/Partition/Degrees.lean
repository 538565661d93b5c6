import BulkSync.Graph.View
import BulkSync.Partition.Cut

/-!
# Cutting the nodes of a graph by degree

The greedy cut with the degrees that a graph view reports.
-/

namespace BulkSync.Partition

/-- Runs of nodes of about equal degree. -/
def byDegrees {γ : Type} [GraphView γ] (g : γ) (concurrency : Nat) (least : Option Nat) :
    Except Fault (List WeighedSpan) :=
  byDegreeM (GraphView.nodeCount g) (GraphView.edgeCount g) (GraphView.degree g) concurrency least

end BulkSync.Partition
