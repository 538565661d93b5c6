import Mathlib.Algebra.GroupWithZero.Nat
import BulkSync.Proofs.Fault
import BulkSync.Proofs.Graph.Reading

/-! # Graphs show the edges they are made of

A graph that is made of edges has, at each node, the edges that leave the node in the order in which they were
given (`construction`). Rows are sorted by `Rows.group`, once for the targets and once for the weights, and
the two agree because sorting does not look at what it sorts (`itemsOf_map`, `before_map`). -/

namespace BulkSync

/-! ## Sorting what is sorted beside -/

namespace Rows

variable {α β : Type}

theorem itemsOf_map (f : α → β) (items : List (Nat × α)) (row : Nat) :
    itemsOf (items.map fun item => (item.1, f item.2)) row = (itemsOf items row).map f := by
  rw [itemsOf, itemsOf, List.filterMap_map, List.map_filterMap]
  congr 1
  funext item
  by_cases here : item.1 = row <;> simp [here]

theorem before_map (f : α → β) (items : List (Nat × α)) (row : Nat) :
    before (items.map fun item => (item.1, f item.2)) row = before items row := by
  simp [before, List.countP_map, Function.comp_def]

theorem inside_map (f : α → β) {items : List (Nat × α)} {count : Nat}
    (inside : ∀ item ∈ items, item.1 < count) :
    ∀ item ∈ items.map fun item => (item.1, f item.2), item.1 < count := List.forall_mem_map.mpr inside

/-- What is made of the items of a row lies at the places of the row. -/
theorem peek_group_map [Inhabited β] (f : α → β) {items : List (Nat × α)} {count row : Nat}
    (inside : ∀ item ∈ items, item.1 < count) (bound : row < count) :
    (List.range' (before items row) (itemsOf items row).length).map
      (group count (items.map fun item => (item.1, f item.2))).values.peek = (itemsOf items row).map f := by
  have peek := peek_group (inside_map f inside) bound
  rwa [before_map, itemsOf_map, List.length_map] at peek

/-- All items are in the rows together. -/
theorem sum_itemsOf (items : List (Nat × α)) (count : Nat) :
    ((List.range count).map fun row => (itemsOf items row).length).sum = before items count := by
  induction count with
  | zero => simp
  | succ count inductionHypothesis =>
    rw [List.range_succ, List.map_append, List.sum_append, inductionHypothesis, before_succ]
    simp

theorem before_all {items : List (Nat × α)} {count : Nat} (inside : ∀ item ∈ items, item.1 < count) :
    before items count = items.length :=
  List.countP_eq_length.mpr fun item member => decide_eq_true (inside item member)

end Rows

namespace RowGraph

open Rows (itemsOf)

/-! ## Graphs of edges -/

/-- The source and the target of an edge with a weight. -/
def ends (edge : Nat × Nat × Binary64) : Nat × Nat := (edge.1, edge.2.1)

/-- The edges that leave a node: their targets and weights, in the order in which they were given. -/
abbrev edgesFrom (edges : List (Nat × Nat × Binary64)) (node : Nat) : List (Nat × Binary64) :=
  itemsOf edges node

/-- Everything that can be asked about a node fails. -/
structure Refuses (g : RowGraph) (node : Nat) : Prop where
  neighbors : g.neighbors node = .error (.nodeOutOfBounds node)
  degree : GraphView.degree g node = .error (.nodeOutOfBounds node)
  hasEdge : ∀ target, g.hasEdge node target = .error (.nodeOutOfBounds node)
  foldNeighbors : ∀ {σ : Type} (visit : Visitor σ Nat) (s : σ),
    GraphView.foldNeighbors g node visit s = .error (.nodeOutOfBounds node)
  foldWeighted : ∀ {σ : Type} (visit : Visitor σ (Nat × Binary64)) (s : σ),
    GraphView.foldWeighted g node visit s = .error (.nodeOutOfBounds node)

/-- What a graph of some edges shows. -/
structure Shows (nodes : Nat) (edges : List (Nat × Nat × Binary64)) (g : RowGraph) : Prop where
  nodeCount : GraphView.nodeCount g = nodes
  edgeCount : GraphView.edgeCount g = edges.length
  neighbors : ∀ node < nodes, g.neighbors node = .ok ((edgesFrom edges node).map Prod.fst)
  foldNeighbors : ∀ node < nodes, ∀ {σ : Type} (visit : Visitor σ Nat) (s : σ),
    GraphView.foldNeighbors g node visit s =
      .ok (foldWhile visit ((edgesFrom edges node).map Prod.fst) s).1
  foldWeighted : ∀ node < nodes, ∀ {σ : Type} (visit : Visitor σ (Nat × Binary64)) (s : σ),
    GraphView.foldWeighted g node visit s = .ok (foldWhile visit (edgesFrom edges node) s).1
  degree : ∀ node < nodes, GraphView.degree g node = .ok (edgesFrom edges node).length
  degrees : ((List.range nodes).mapM (GraphView.degree g)).map List.sum = .ok edges.length
  hasEdge : ∀ source < nodes, ∀ target,
    g.hasEdge source target = .ok (decide ((source, target) ∈ edges.map ends))
  outside : ∀ node ≥ nodes, g.Refuses node

theorem refuses_of_check {g : RowGraph} {node : Nat} (refused : g.checkNode node = .error (.nodeOutOfBounds node)) :
    g.Refuses node where
  neighbors := by
    rw [neighbors, refused]
    rfl
  degree := by
    change (g.checkNode node >>= fun _ => _) = _
    rw [refused]
    rfl
  hasEdge target := by
    rw [hasEdge, neighbors, refused]
    rfl
  foldNeighbors visit s := by
    change g.foldTargets node visit s = _
    rw [foldTargets, refused]
    rfl
  foldWeighted visit s := by
    simp only [GraphView.foldWeighted]
    cases g.weights <;> simp [foldTargets, refused, bind, Except.bind]

/-- The array of weights, if there is one, holds the weights of the edges where their targets lie. -/
def Weighs (nodes : Nat) (edges : List (Nat × Nat × Binary64)) (g : RowGraph) : Prop :=
  match g.weights with
  | none => ∀ edge ∈ edges, edge.2.2 = Element.one
  | some weights => weights = (Rows.group nodes (edges.map fun edge => (edge.1, edge.2.2))).values

section Shows

variable {nodes node : Nat} {edges : List (Nat × Nat × Binary64)} {g : RowGraph}

theorem itemsOf_ends (edges : List (Nat × Nat × Binary64)) (node : Nat) :
    itemsOf (edges.map ends) node = (edgesFrom edges node).map Prod.fst := Rows.itemsOf_map Prod.fst edges node

theorem ends_inside (inside : ∀ edge ∈ edges, edge.1 < nodes) : ∀ item ∈ edges.map ends, item.1 < nodes :=
  Rows.inside_map Prod.fst inside

theorem foldWeighted_eq {σ : Type} (grouped : g.targets = Rows.group nodes (edges.map ends))
    (weighs : g.Weighs nodes edges) (inside : ∀ edge ∈ edges, edge.1 < nodes) (bound : node < nodes)
    (visit : Visitor σ (Nat × Binary64)) (s : σ) :
    GraphView.foldWeighted g node visit s = .ok (foldWhile visit (edgesFrom edges node) s).1 := by
  have sources := ends_inside inside
  rw [Weighs] at weighs
  simp only [GraphView.foldWeighted]
  cases held : g.weights with
  | none =>
    rw [held] at weighs
    have ones : ((edgesFrom edges node).map Prod.fst).map (fun target => (target, Element.one)) =
        edgesFrom edges node := by
      rw [List.map_map]
      refine (List.map_congr_left fun edge member => ?_).trans (List.map_id _)
      exact Prod.ext rfl (weighs (node, edge) (Rows.mem_itemsOf.mp member)).symm
    exact (foldTargets_eq grouped sources bound _ s).trans (by rw [itemsOf_ends, ← foldWhile_map, ones])
  | some weights =>
    rw [held] at weighs
    -- both arrays were sorted by the same sources, so a target and its weight lie at the same place
    have pairs : (List.range' (Rows.before edges node) (edgesFrom edges node).length).map (fun place =>
        (g.targets.values.peek place, weights.peek place)) = edgesFrom edges node := by
      rw [← List.zip_map', weighs, grouped, Rows.peek_group_map Prod.snd inside bound]
      exact (congrArg (List.zip · _) (Rows.peek_group_map Prod.fst inside bound)).trans
        (List.zip_of_prod rfl rfl).symm
    have bounds : g.targets.bounds node = (Rows.before edges node,
        Rows.before edges node + (edgesFrom edges node).length) := by
      rw [grouped, Rows.bounds_group sources bound, itemsOf_ends, List.length_map]
      exact congrArg₂ Prod.mk (Rows.before_map ..) (congrArg (· + _) (Rows.before_map ..))
    rw [checkNode_eq grouped sources, if_pos bound, bounds]
    simp only [bind, Except.bind, pure, Except.pure, Nat.add_sub_cancel_left]
    rw [← foldWhile_map, pairs]

theorem shows_of_grouped (grouped : g.targets = Rows.group nodes (edges.map ends))
    (weighs : g.Weighs nodes edges) (inside : ∀ edge ∈ edges, edge.1 < nodes) : g.Shows nodes edges := by
  have sources := ends_inside inside
  have degree : ∀ node < nodes, GraphView.degree g node = .ok (edgesFrom edges node).length := by
    intro node bound
    rw [degree_eq grouped sources bound, itemsOf_ends, List.length_map]
  have total : ((List.range nodes).map fun node => (edgesFrom edges node).length).sum = edges.length := by
    rw [Rows.sum_itemsOf, Rows.before_all inside]
  refine ⟨?_, ?_, ?_, ?_, fun node bound _ visit s => foldWeighted_eq grouped weighs inside bound visit s,
    degree, ?_, ?_, ?_⟩
  · change g.targets.rowCount = nodes
    rw [grouped, rowCount_group sources]
  · change g.targets.values.size = edges.length
    rw [grouped, values_group sources, List.length_map]
  · intro node bound
    rw [neighbors_eq grouped sources bound, itemsOf_ends]
  · intro node bound σ visit s
    exact (foldTargets_eq grouped sources bound visit s).trans (by rw [itemsOf_ends])
  · rw [mapM_eq_ok fun node member => degree node (List.mem_range.mp member)]
    exact congrArg Except.ok total
  · exact fun source bound target => hasEdge_eq grouped sources bound target
  · intro node beyond
    refine refuses_of_check ?_
    rw [checkNode_eq grouped sources, if_neg (Nat.not_lt.mpr beyond)]

end Shows

/-! ## Making graphs -/

/-- Whether an edge has an end that is no node. -/
def dangling (nodes : Nat) (edge : Nat × Nat) : Bool := decide (nodes ≤ edge.1 ∨ nodes ≤ edge.2)

theorem checkEdges_eq (nodes : Nat) (edges : List (Nat × Nat)) :
    checkEdges nodes edges = match edges.find? (dangling nodes) with
      | none => .ok ()
      | some (source, target) => .error (.edgeOutOfBounds source target nodes) := by
  induction edges with
  | nil => rfl
  | cons edge edges inductionHypothesis =>
    obtain ⟨source, target⟩ := edge
    rw [checkEdges, inductionHypothesis]
    by_cases inside : source < nodes ∧ target < nodes
    · have stays : dangling nodes (source, target) = false := by
        simp only [dangling, decide_eq_false_iff_not]
        omega
      rw [if_pos inside, List.find?_cons_of_neg (by simp [stays])]
    · have dangles : dangling nodes (source, target) = true := by
        simp only [dangling, decide_eq_true_eq]
        omega
      rw [if_neg inside, List.find?_cons_of_pos dangles]

theorem inside_of_stays {nodes : Nat} {edges : List (Nat × Nat × Binary64)}
    (stays : (edges.map ends).find? (dangling nodes) = none) : ∀ edge ∈ edges, edge.1 < nodes := by
  intro edge member
  have inside := List.find?_eq_none.mp stays (ends edge) (List.mem_map_of_mem member)
  rw [dangling, decide_eq_true_eq, not_or] at inside
  exact Nat.not_le.mp inside.1

/-- What is made of some edges: a graph that shows them, unless an edge has an end that is no node, and
then the first of these is refused. -/
def Faithful (nodes : Nat) (edges : List (Nat × Nat × Binary64)) (made : Except Fault RowGraph) : Prop :=
  match (edges.map ends).find? (dangling nodes) with
  | none => ∃ g, made = .ok g ∧ g.Shows nodes edges
  | some (source, target) => made = .error (.edgeOutOfBounds source target nodes)

theorem ofWeighted_eq (nodes : Nat) (edges : List (Nat × Nat × Binary64)) :
    ofWeighted nodes edges = (Word.add? nodes 1 >>= fun _ => checkEdges nodes (edges.map ends) >>= fun _ =>
      pure ⟨Rows.group nodes (edges.map ends),
        some (Rows.group nodes (edges.map fun edge => (edge.1, edge.2.2))).values⟩) := rfl

/-- Graphs are made faithfully of edges that weigh one and of edges with weights. -/
theorem construction {nodes : Nat} (bounded : nodes + 1 < Word.limit) :
    (∀ edges : List (Nat × Nat), Faithful nodes
      (edges.map fun edge => (edge.1, edge.2, Element.one)) (ofEdges nodes edges)) ∧
    ∀ edges, Faithful nodes edges (ofWeighted nodes edges) := by
  have counted : Word.add? nodes 1 = .ok (nodes + 1) := if_pos bounded
  refine ⟨fun edges => ?_, fun edges => ?_⟩
  · have same : (edges.map fun edge => (edge.1, edge.2, Element.one)).map ends = edges := by
      rw [List.map_map]
      exact List.map_id edges
    rw [Faithful, same, ofEdges, counted, checkEdges_eq]
    cases stays : edges.find? (dangling nodes) with
    | some edge => rfl
    | none =>
      rw [← same] at stays
      refine ⟨_, rfl, shows_of_grouped ?_ ?_ (inside_of_stays stays)⟩
      · rw [same]
      · exact List.forall_mem_map.mpr fun _ _ => rfl
  · rw [Faithful, ofWeighted_eq, counted, checkEdges_eq]
    cases stays : (edges.map ends).find? (dangling nodes) with
    | some edge => rfl
    | none => exact ⟨_, rfl, shows_of_grouped rfl rfl (inside_of_stays stays)⟩

/-- Three edges leave the last node, two of them for the same node and one for itself. -/
def bundle : List (Nat × Nat × Binary64) :=
  [(2, 0, Element.one), (0, 1, default), (2, 2, default), (2, 0, default)]

theorem construction_bundle :
    3 + 1 < Word.limit ∧ (∃ g, ofWeighted 3 bundle = .ok g ∧ g.neighbors 2 = .ok [0, 2, 0] ∧
      GraphView.foldWeighted g 2 (fun seen edge => (seen ++ [edge], true)) [] =
        .ok [(0, Element.one), (2, default), (0, default)] ∧
      GraphView.degree g 1 = .ok 0 ∧ g.hasEdge 1 0 = .ok false ∧ g.neighbors 3 = .error (.nodeOutOfBounds 3)) ∧
    ofWeighted 2 bundle = .error (.edgeOutOfBounds 2 0 2) := by
  have bounded : 3 + 1 < Word.limit := by decide
  obtain ⟨g, made, shows⟩ : ∃ g, ofWeighted 3 bundle = .ok g ∧ g.Shows 3 bundle :=
    (construction bounded).2 bundle
  refine ⟨bounded, ⟨g, made, shows.neighbors 2 (by decide), shows.foldWeighted 2 (by decide) _ _,
    shows.degree 1 (by decide), shows.hasEdge 1 (by decide) 0, (shows.outside 3 (by decide)).neighbors⟩, ?_⟩
  exact (construction (show 2 + 1 < Word.limit by decide)).2 bundle

end RowGraph
end BulkSync
