import BulkSync.Graph.Rows
import BulkSync.Graph.View

/-!
# Row graphs

A directed multigraph as packed rows: row `u` holds the targets of the edges that leave `u`, in the
order in which the edges were given. Weights, if there are any, lie in a second array beside the
targets.
-/

namespace BulkSync

/-- A graph as packed rows of targets. -/
structure RowGraph where
  targets : Rows Nat
  weights : Option (Paged Binary64)

namespace RowGraph

/-! ## Making graphs -/

/-- Fails at the first edge with an end that is no node. -/
def checkEdges (nodes : Nat) : List (Nat × Nat) → Except Fault Unit
  | [] => .ok ()
  | (source, target) :: edges =>
      if source < nodes ∧ target < nodes then checkEdges nodes edges
      else .error (.edgeOutOfBounds source target nodes)

/-- The edges of rows of targets, row by row. -/
def edgesOf (adjacency : List (List Nat)) : List (Nat × Nat) :=
  adjacency.zipIdx.flatMap fun (targets, source) => targets.map fun target => (source, target)

/-- The graph with these rows. -/
def ofAdjacency (adjacency : List (List Nat)) : Except Fault RowGraph := do
  let _ ← Word.add? adjacency.length 1
  checkEdges adjacency.length (edgesOf adjacency)
  return ⟨Rows.ofLists adjacency, none⟩

/-- The graph with these edges. -/
def ofEdges (nodes : Nat) (edges : List (Nat × Nat)) : Except Fault RowGraph := do
  let _ ← Word.add? nodes 1
  checkEdges nodes edges
  return ⟨Rows.group nodes edges, none⟩

/-- The graph with these edges, each with a weight. -/
def ofWeighted (nodes : Nat) (edges : List (Nat × Nat × Binary64)) : Except Fault RowGraph := do
  let _ ← Word.add? nodes 1
  checkEdges nodes (edges.map fun (source, target, _) => (source, target))
  let targets := Rows.group nodes (edges.map fun (source, target, _) => (source, target))
  let weights := Rows.group nodes (edges.map fun (source, _, weight) => (source, weight))
  return ⟨targets, some weights.values⟩

/-- The graph with these edges in both directions. -/
def undirected (nodes : Nat) (edges : List (Nat × Nat)) : Except Fault RowGraph :=
  ofEdges nodes (edges.flatMap fun (source, target) => [(source, target), (target, source)])

/-! ## Reading -/

/-- The number of nodes. -/
def nodeCount (g : RowGraph) : Nat := g.targets.rowCount

/-- The number of edges. -/
def edgeCount (g : RowGraph) : Nat := g.targets.values.size

/-- Whether the edges have weights of their own. -/
def isWeighted (g : RowGraph) : Bool := g.weights.isSome

/-- Fails for something that is no node. -/
def checkNode (g : RowGraph) (node : Nat) : Except Fault Unit :=
  if node < g.nodeCount then .ok () else .error (.nodeOutOfBounds node)

/-- The targets of the edges that leave a node. -/
def neighbors (g : RowGraph) (node : Nat) : Except Fault (List Nat) := do
  g.checkNode node
  return g.targets.row node

/-- Whether an edge leads from one node to another. -/
def hasEdge (g : RowGraph) (source target : Nat) : Except Fault Bool := do
  let targets ← g.neighbors source
  return targets.any (· == target)

/-- Walks over slices one after the other. -/
def foldSlices {σ : Type} (visit : Visitor σ Nat) : List (Array Nat) → σ → σ
  | [], s => s
  | slice :: slices, s =>
      match foldWhile visit slice.toList s with
      | (s, true) => foldSlices visit slices s
      | (s, false) => s

/-- Walks over the targets of a node, slice by slice. -/
def foldTargets {σ : Type} (g : RowGraph) (node : Nat) (visit : Visitor σ Nat) (s : σ) :
    Except Fault σ := do
  g.checkNode node
  return foldSlices visit (g.targets.slices node) s

instance : GraphView RowGraph where
  nodeCount := nodeCount
  edgeCount := edgeCount
  degree g node := do
    g.checkNode node
    return g.targets.rowLength node
  foldNeighbors := foldTargets
  foldWeighted g node visit s :=
    match g.weights with
    | none => g.foldTargets node (fun s target => visit s (target, Element.one)) s
    | some weights => do
        g.checkNode node
        let (start, stop) := g.targets.bounds node
        let step (s : _) (i : Nat) := visit s (g.targets.values.peek i, weights.peek i)
        return (foldWhile step (List.range' start (stop - start)) s).1

end RowGraph
end BulkSync
