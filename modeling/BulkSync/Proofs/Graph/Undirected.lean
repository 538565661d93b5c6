import BulkSync.Engine.Handler
import BulkSync.Proofs.Fault
import BulkSync.Proofs.Graph.Reading

/-! # Graphs of grouped edges

A graph of packed rows that were made by grouping edges shows every node the targets of its edges, in the
order in which they were given (`targets_group`). An undirected graph holds each edge twice, so that two
nodes are neighbors of each other or not at all (`mem_neighborsOf_iff`). -/

namespace BulkSync

open Rows (itemsOf)

namespace RowGraph

variable {nodes node : Nat} {items : List (Nat × Nat)}

/-! ## Rows -/

/-- A walk that goes on to the end sees everything. -/
theorem foldWhile_seeing (items : List Nat) (seen : Array Nat) :
    foldWhile (Handler.seeing fun _ => true) items seen = (seen ++ items.toArray, true) := by
  induction items generalizing seen with
  | nil => simp [foldWhile]
  | cons item items inductionHypothesis =>
    refine (inductionHypothesis (seen.push item)).trans ?_
    rw [Prod.mk.injEq, ← Array.toList_inj]
    simp

theorem targets_group (inside : ∀ item ∈ items, item.1 < nodes) (bound : node < nodes) :
    Handler.targets (⟨Rows.group nodes items, none⟩ : RowGraph) node =
      .ok (itemsOf items node).toArray := by
  refine (foldTargets_eq rfl inside bound _ _).trans ?_
  rw [foldWhile_seeing, Array.empty_append]

theorem degree_group (inside : ∀ item ∈ items, item.1 < nodes) (bound : node < nodes) :
    GraphView.degree (⟨Rows.group nodes items, none⟩ : RowGraph) node =
      .ok (itemsOf items node).length := degree_eq rfl inside bound

/-! ## Undirected graphs -/

/-- The edges in both directions. -/
def bothWays (edges : List (Nat × Nat)) : List (Nat × Nat) :=
  edges.flatMap fun (source, target) => [(source, target), (target, source)]

/-- The neighbors of a node, once for each edge between them. -/
def neighborsOf (edges : List (Nat × Nat)) (node : Nat) : List Nat := itemsOf (bothWays edges) node

variable {edges : List (Nat × Nat)}

theorem mem_bothWays_iff {source target : Nat} : (source, target) ∈ bothWays edges ↔
    (source, target) ∈ edges ∨ (target, source) ∈ edges := by
  simp only [bothWays, List.mem_flatMap, Prod.exists]
  constructor
  · rintro ⟨a, b, member, here⟩
    simp only [List.mem_cons, Prod.mk.injEq, List.not_mem_nil, or_false] at here
    rcases here with ⟨rfl, rfl⟩ | ⟨rfl, rfl⟩
    · exact .inl member
    · exact .inr member
  · rintro (member | member)
    · exact ⟨source, target, member, by simp⟩
    · exact ⟨target, source, member, by simp⟩

theorem mem_neighborsOf_iff {node other : Nat} : other ∈ neighborsOf edges node ↔
    (node, other) ∈ edges ∨ (other, node) ∈ edges := by
  rw [← mem_bothWays_iff, neighborsOf, Rows.mem_itemsOf]

theorem mem_neighborsOf_comm {node other : Nat} :
    other ∈ neighborsOf edges node ↔ node ∈ neighborsOf edges other := by
  rw [mem_neighborsOf_iff, mem_neighborsOf_iff, Or.comm]

theorem bothWays_inside (inside : ∀ edge ∈ edges, edge.1 < nodes ∧ edge.2 < nodes) :
    ∀ item ∈ bothWays edges, item.1 < nodes ∧ item.2 < nodes := by
  rintro ⟨source, target⟩ member
  rcases mem_bothWays_iff.mp member with here | there
  · exact inside _ here
  · exact (inside _ there).symm

theorem checkEdges_of_inside {items : List (Nat × Nat)}
    (inside : ∀ item ∈ items, item.1 < nodes ∧ item.2 < nodes) : checkEdges nodes items = .ok () := by
  induction items with
  | nil => rfl
  | cons item items inductionHypothesis =>
    rw [checkEdges, if_pos (inside item (List.mem_cons_self ..))]
    exact inductionHypothesis fun other member => inside other (List.mem_cons_of_mem _ member)

/-- The graph of edges in both directions. -/
def symmetric (nodes : Nat) (edges : List (Nat × Nat)) : RowGraph := ⟨Rows.group nodes (bothWays edges), none⟩

/-- Edges between nodes make a graph. -/
theorem undirected_eq (inside : ∀ edge ∈ edges, edge.1 < nodes ∧ edge.2 < nodes)
    (bounded : nodes + 1 < Word.limit) : undirected nodes edges = .ok (symmetric nodes edges) := by
  have counted : Word.add? nodes 1 = .ok (nodes + 1) := if_pos bounded
  rw [undirected, ofEdges, counted]
  change (checkEdges nodes (bothWays edges) >>= fun _ => _) = _
  rw [checkEdges_of_inside (bothWays_inside inside)]
  rfl

theorem nodeCount_symmetric (inside : ∀ edge ∈ edges, edge.1 < nodes ∧ edge.2 < nodes) :
    GraphView.nodeCount (symmetric nodes edges) = nodes :=
  rowCount_group fun item member => (bothWays_inside inside item member).1

theorem targets_symmetric (inside : ∀ edge ∈ edges, edge.1 < nodes ∧ edge.2 < nodes)
    (bound : node < nodes) :
    Handler.targets (symmetric nodes edges) node = .ok (neighborsOf edges node).toArray :=
  targets_group (fun item member => (bothWays_inside inside item member).1) bound

theorem degree_symmetric (inside : ∀ edge ∈ edges, edge.1 < nodes ∧ edge.2 < nodes)
    (bound : node < nodes) :
    GraphView.degree (symmetric nodes edges) node = .ok (neighborsOf edges node).length :=
  degree_group (fun item member => (bothWays_inside inside item member).1) bound

end RowGraph
end BulkSync
