import BulkSync.Proofs.Graph.Listing
import BulkSync.Proofs.Graph.Undirected

/-! # Graphs made of rows and of edges in both directions

A graph that is made of rows of targets is the graph of their edges, row by row (`ofAdjacency_eq`). In a graph of
edges in both directions a node is among the neighbors of another one as often as that one is among its own, since
either is so once for each edge between the two (`count_neighborsOf`). -/

namespace BulkSync

theorem Rows.count_itemsOf (items : List (Nat × Nat)) (row item : Nat) :
    (itemsOf items row).count item = items.count (row, item) := by
  induction items with
  | nil => rfl
  | cons head tail inductionHypothesis =>
    obtain ⟨other, value⟩ := head
    rw [← List.singleton_append, itemsOf_append, List.count_append, List.count_append, inductionHypothesis,
      itemsOf_singleton]
    by_cases here : other = row
    · simp [here, List.count_singleton]
    · simp [here]

namespace RowGraph

open Rows (itemsOf)

/-! ## Graphs of rows -/

theorem ofAdjacency_eq (adjacency : List (List Nat)) :
    ofAdjacency adjacency = ofEdges adjacency.length (edgesOf adjacency) := by
  rw [ofAdjacency, ofEdges, ofLists_eq]

theorem mem_edgesOf {adjacency : List (List Nat)} {source target : Nat} (inside : source < adjacency.length) :
    (source, target) ∈ edgesOf adjacency ↔ target ∈ adjacency[source] := by
  rw [← Rows.mem_itemsOf, itemsOf_edgesOf_of_lt inside]

/-- Some row has a target that is no row. -/
def Overhangs (adjacency : List (List Nat)) : Prop :=
  ∃ targets ∈ adjacency, ∃ target ∈ targets, adjacency.length ≤ target

theorem overhangs_iff {adjacency : List (List Nat)} :
    Overhangs adjacency ↔ ∃ edge ∈ edgesOf adjacency, adjacency.length ≤ edge.2 := by
  constructor
  · rintro ⟨targets, row, target, member, beyond⟩
    obtain ⟨source, bound, rfl⟩ := List.getElem_of_mem row
    exact ⟨(source, target), (mem_edgesOf bound).mpr member, beyond⟩
  · rintro ⟨⟨source, target⟩, member, beyond⟩
    have bound := edgesOf_inside adjacency _ member
    exact ⟨adjacency[source], List.getElem_mem bound, target, (mem_edgesOf bound).mp member, beyond⟩

/-- What a graph of rows shows of them. -/
structure ShowsRows (adjacency : List (List Nat)) (g : RowGraph) : Prop where
  nodeCount : GraphView.nodeCount g = adjacency.length
  edgeCount : GraphView.edgeCount g = adjacency.flatten.length
  degree : ∀ node (inside : node < adjacency.length), GraphView.degree g node = .ok adjacency[node].length
  neighbors : ∀ node (inside : node < adjacency.length), g.neighbors node = .ok adjacency[node]

theorem showsRows (adjacency : List (List Nat)) :
    ShowsRows adjacency ⟨Rows.group adjacency.length (edgesOf adjacency), none⟩ := by
  have inside := edgesOf_inside adjacency
  constructor
  · exact rowCount_group inside
  · exact (values_group inside).trans (edgesOf_length adjacency)
  · intro node bound
    rw [degree_eq rfl inside bound, itemsOf_edgesOf_of_lt bound]
  · intro node bound
    rw [neighbors_eq rfl inside bound, itemsOf_edgesOf_of_lt bound]

theorem ofEdges_cases {nodes : Nat} (edges : List (Nat × Nat)) (bounded : nodes + 1 < Word.limit) :
    ((∃ edge ∈ edges, nodes ≤ edge.1 ∨ nodes ≤ edge.2) ∧ ∃ source target,
        ofEdges nodes edges = .error (.edgeOutOfBounds source target nodes)) ∨
      (∀ edge ∈ edges, edge.1 < nodes ∧ edge.2 < nodes) ∧
        ofEdges nodes edges = .ok ⟨Rows.group nodes edges, none⟩ := by
  have counted : Word.add? nodes 1 = .ok (nodes + 1) := if_pos bounded
  rw [ofEdges, counted, checkEdges_eq]
  cases found : edges.find? (dangling nodes) with
  | some edge =>
    left
    have dangles := List.find?_some found
    rw [dangling, decide_eq_true_eq] at dangles
    exact ⟨⟨edge, List.mem_of_find?_eq_some found, dangles⟩, edge.1, edge.2, rfl⟩
  | none =>
    right
    refine ⟨fun edge member => ?_, rfl⟩
    have stays := List.find?_eq_none.mp found edge member
    rw [dangling, decide_eq_true_eq] at stays
    omega

theorem ofEdges_fails {nodes : Nat} (edges : List (Nat × Nat)) (large : Word.limit ≤ nodes + 1) :
    ofEdges nodes edges = .error .additionOverflow := by
  have counted : Word.add? nodes 1 = .error .additionOverflow := if_neg (Nat.not_lt.mpr large)
  rw [ofEdges, counted]
  rfl

theorem ofAdjacency_fails_iff {adjacency : List (List Nat)} :
    (∃ fault, ofAdjacency adjacency = .error fault) ↔
      Overhangs adjacency ∨ Word.limit ≤ adjacency.length + 1 := by
  rw [ofAdjacency_eq, overhangs_iff]
  rcases Nat.lt_or_ge (adjacency.length + 1) Word.limit with bounded | large
  · rw [or_iff_left (Nat.not_le.mpr bounded)]
    rcases ofEdges_cases (edgesOf adjacency) bounded with ⟨⟨edge, member, outside⟩, _, _, refused⟩ | ⟨inside, made⟩
    · have source := edgesOf_inside adjacency edge member
      have target : adjacency.length ≤ edge.2 := by omega
      exact iff_of_true ⟨_, refused⟩ ⟨edge, member, target⟩
    · apply iff_of_false
      · rintro ⟨fault, failed⟩
        rw [made] at failed
        cases failed
      · rintro ⟨edge, member, beyond⟩
        exact Nat.not_le_of_lt (inside edge member).2 beyond
  · exact iff_of_true ⟨_, ofEdges_fails _ large⟩ (.inr large)

theorem showsRows_of_ofAdjacency {adjacency : List (List Nat)} {g : RowGraph}
    (made : ofAdjacency adjacency = .ok g) : g.ShowsRows adjacency := by
  obtain rfl := ofAdjacency_ok made
  rw [ofLists_eq]
  exact showsRows adjacency

/-! ## Edges in both directions -/

theorem bothWays_cons (source target : Nat) (edges : List (Nat × Nat)) :
    bothWays ((source, target) :: edges) = (source, target) :: (target, source) :: bothWays edges := rfl

theorem length_bothWays (edges : List (Nat × Nat)) : (bothWays edges).length = 2 * edges.length := by
  induction edges with
  | nil => rfl
  | cons edge edges inductionHypothesis =>
    rw [bothWays_cons, List.length_cons, List.length_cons, List.length_cons, inductionHypothesis]
    omega

theorem count_bothWays (edges : List (Nat × Nat)) (source target : Nat) :
    (bothWays edges).count (source, target) = edges.count (source, target) + edges.count (target, source) := by
  induction edges with
  | nil => rfl
  | cons edge edges inductionHypothesis =>
    obtain ⟨first, second⟩ := edge
    have turned : ((second, first) == (source, target)) = ((first, second) == (target, source)) := by
      rw [Bool.eq_iff_iff, beq_iff_eq, beq_iff_eq, Prod.mk.injEq, Prod.mk.injEq, And.comm]
    rw [bothWays_cons, List.count_cons, List.count_cons, List.count_cons, List.count_cons, inductionHypothesis, turned]
    omega

theorem count_neighborsOf (edges : List (Nat × Nat)) (node other : Nat) :
    (neighborsOf edges node).count other = edges.count (node, other) + edges.count (other, node) := by
  rw [neighborsOf, Rows.count_itemsOf, count_bothWays]

/-- As often as an edge joins two nodes, each of them is a neighbor of the other; so a node that is joined to itself
is its own neighbor twice. -/
def Joined (edges : List (Nat × Nat)) (g : RowGraph) (node other : Nat) : Prop :=
  ∃ neighbors neighborsToo, g.neighbors node = .ok neighbors ∧ g.neighbors other = .ok neighborsToo ∧
    neighbors.count other = neighborsToo.count node ∧
    neighbors.count other = edges.count (node, other) + edges.count (other, node)

section Symmetric

variable {nodes node other : Nat} {edges : List (Nat × Nat)} (inside : ∀ edge ∈ edges, edge.1 < nodes ∧ edge.2 < nodes)

include inside

theorem edgeCount_symmetric : GraphView.edgeCount (symmetric nodes edges) = 2 * edges.length := by
  have stored := values_group fun item member => (bothWays_inside inside item member).1
  exact stored.trans (length_bothWays edges)

theorem joined_symmetric (bound : node < nodes) (boundToo : other < nodes) :
    (symmetric nodes edges).Joined edges node other := by
  have sources : ∀ item ∈ bothWays edges, item.1 < nodes := fun item member => (bothWays_inside inside item member).1
  refine ⟨neighborsOf edges node, neighborsOf edges other, neighbors_eq rfl sources bound,
    neighbors_eq rfl sources boundToo, ?_, count_neighborsOf edges node other⟩
  rw [count_neighborsOf, count_neighborsOf, Nat.add_comm]

end Symmetric

theorem undirected_ok {nodes : Nat} {edges : List (Nat × Nat)} {g : RowGraph} (made : undirected nodes edges = .ok g) :
    nodes + 1 < Word.limit ∧ (∀ edge ∈ edges, edge.1 < nodes ∧ edge.2 < nodes) ∧ g = symmetric nodes edges := by
  have both : ofEdges nodes (bothWays edges) = .ok g := made
  rcases Nat.lt_or_ge (nodes + 1) Word.limit with bounded | large
  · rcases ofEdges_cases (bothWays edges) bounded with ⟨_, _, _, refused⟩ | ⟨inside, grouped⟩
    · rw [refused] at both
      cases both
    · rw [grouped] at both
      cases both
      exact ⟨bounded, fun edge member => inside edge (mem_bothWays_iff.mpr (.inl member)), rfl⟩
  · rw [ofEdges_fails _ large] at both
    cases both

/-! ## Both -/

/-- Rows of targets and their edges, row by row, make the same graph, or fail alike: where a target is no row, or where
the offsets, one more than rows, cannot be counted. Edges between nodes, taken in both directions, make a graph if its
offsets can be counted, and every graph that is made so is symmetric. -/
theorem constructors_agree :
    (∀ adjacency : List (List Nat),
      ofAdjacency adjacency = ofEdges adjacency.length (edgesOf adjacency) ∧
      ((∃ fault, ofAdjacency adjacency = .error fault) ↔
        Overhangs adjacency ∨ Word.limit ≤ adjacency.length + 1) ∧
      ∀ g, ofAdjacency adjacency = .ok g → g.ShowsRows adjacency) ∧
    ∀ nodes, ∀ edges : List (Nat × Nat),
      ((∃ g, undirected nodes edges = .ok g) ↔
        nodes + 1 < Word.limit ∧ ∀ edge ∈ edges, edge.1 < nodes ∧ edge.2 < nodes) ∧
      ∀ g, undirected nodes edges = .ok g → GraphView.nodeCount g = nodes ∧
        GraphView.edgeCount g = 2 * edges.length ∧
        ∀ node < nodes, ∀ other < nodes, g.Joined edges node other := by
  constructor
  · intro adjacency
    exact ⟨ofAdjacency_eq adjacency, ofAdjacency_fails_iff, fun g made => showsRows_of_ofAdjacency made⟩
  · intro nodes edges
    refine ⟨⟨?_, ?_⟩, ?_⟩
    · rintro ⟨g, made⟩
      obtain ⟨bounded, inside, -⟩ := undirected_ok made
      exact ⟨bounded, inside⟩
    · rintro ⟨bounded, inside⟩
      exact ⟨symmetric nodes edges, undirected_eq inside bounded⟩
    · intro g made
      obtain ⟨-, inside, rfl⟩ := undirected_ok made
      exact ⟨nodeCount_symmetric inside, edgeCount_symmetric inside,
        fun node bound other boundToo => joined_symmetric inside bound boundToo⟩

/-- Parallel edges and self-loops in rows, a row with a target that is none, and edges that come in both directions
already. -/
theorem constructors_agree_parallel :
    (∃ g, ofAdjacency [[1, 1, 2], [], [2, 0]] = .ok g ∧ GraphView.edgeCount g = 5 ∧ g.neighbors 2 = .ok [2, 0]) ∧
      (∃ fault, ofAdjacency [[0], [2]] = .error fault) ∧
      3 + 1 < Word.limit ∧ (∀ edge ∈ [(0, 1), (1, 0), (2, 2)], edge.1 < 3 ∧ edge.2 < 3) ∧
      ∃ g, undirected 3 [(0, 1), (1, 0), (2, 2)] = .ok g ∧ GraphView.edgeCount g = 6 ∧
        g.Joined [(0, 1), (1, 0), (2, 2)] 0 1 ∧ g.Joined [(0, 1), (1, 0), (2, 2)] 2 2 := by
  have bounded : 3 + 1 < Word.limit := by decide
  have inside : ∀ edge ∈ [(0, 1), (1, 0), (2, 2)], edge.1 < 3 ∧ edge.2 < 3 := by decide
  obtain ⟨rows, edges⟩ := constructors_agree
  obtain ⟨-, -, shows⟩ := rows [[1, 1, 2], [], [2, 0]]
  have made : ofAdjacency [[1, 1, 2], [], [2, 0]] = .ok ⟨Rows.ofLists [[1, 1, 2], [], [2, 0]], none⟩ := by rfl
  have overhangs : Overhangs [[0], [2]] := ⟨[2], by decide, 2, by decide, by decide⟩
  obtain ⟨makes, symmetry⟩ := edges 3 [(0, 1), (1, 0), (2, 2)]
  obtain ⟨g, joined⟩ := makes.mpr ⟨bounded, inside⟩
  obtain ⟨_, count, each⟩ := symmetry g joined
  refine ⟨⟨_, made, (shows _ made).edgeCount, (shows _ made).neighbors 2 (by decide)⟩, ?_, bounded, inside, g, joined,
    count, each 0 (by decide) 1 (by decide), each 2 (by decide) 2 (by decide)⟩
  exact (rows [[0], [2]]).2.1.mpr (.inl overhangs)

end RowGraph
end BulkSync
