import BulkSync.Binary.Arithmetic
import BulkSync.Word

/-!
# Families of graphs

Edge lists of graphs of a regular shape on `k` nodes. Numbers on the way to a node are counts of 64
bits, so an edge whose numbers are not faults; a shape without edges does not.
-/

namespace BulkSync

/-- A regular shape. -/
inductive Shape where
  /-- Edges from node 0 to every other node. -/
  | starOut (k : Nat)
  /-- Edges from every other node to node 0. -/
  | starIn (k : Nat)
  /-- Edges from each node to the next. -/
  | path (k : Nat)
  /-- Edges from each node to the next, and from the last to the first. -/
  | cycle (k : Nat)
  /-- Edges between any two nodes, in both directions. -/
  | complete (k : Nat)
  /-- The edges `(a * i + b, c * i + d)` modulo `k`, for `i` below `m`. -/
  | modular (k a b c d m : Nat)

namespace Shape

/-- The node `a * i + b` modulo `k`. -/
def nodeAt (k a b i : Nat) : Except Fault Nat := do
  Word.mod? (← Word.add? (← Word.mul? a i) b) k

/-- The edges of a shape, in order. -/
def edges : Shape → Except Fault (List (Nat × Nat))
  | .starOut k => return (List.range' 1 (k - 1)).map fun i => (0, i)
  | .starIn k => return (List.range' 1 (k - 1)).map fun i => (i, 0)
  | .path k => return (List.range' 1 (k - 1)).map fun i => (i - 1, i)
  | .cycle k => return (List.range k).map fun i => (i, (i + 1) % k)
  | .complete k =>
      return (List.range k).flatMap fun i => ((List.range k).filter (· != i)).map fun j => (i, j)
  | .modular k a b c d m =>
      (List.range m).mapM fun i => return (← nodeAt k a b i, ← nodeAt k c d i)

/-- Edges with the weights 1, 2, … up to `period`, over and over. -/
def weigh (period : Nat) (edges : List (Nat × Nat)) : Except Fault (List (Nat × Nat × Binary64)) :=
  edges.zipIdx.mapM fun ((source, target), i) =>
    return (source, target, Binary.ofInt ((← Word.mod? i period) + 1 : Nat))

end Shape
end BulkSync
