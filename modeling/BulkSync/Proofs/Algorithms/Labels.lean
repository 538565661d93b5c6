import BulkSync.Proofs.Graph.Undirected
import Mathlib.Data.Finset.Card
import Mathlib.Data.Finset.Range
import Mathlib.Logic.Relation
import Mathlib.Order.Lattice.Nat

/-! # Least labels

Every node starts with its own number as its label. In each round it takes the least of its label and the
labels of its neighbors (`labelAfter`). A label is always a node of the same component, so that it cannot
change any more when it is the least of them. One round in which no label changes shows that all of them
are (`least_of_still`), and that comes about in time: as long as there is a label that is not the least of
its component, there is an edge across which the next round brings one that is, so that one round less than
there are nodes is enough (`least_in_time`). -/

namespace BulkSync

open RowGraph (neighborsOf mem_neighborsOf_iff)

/-- Nodes of one component: edges lead from one to the other, whatever their directions. -/
def Connected (edges : List (Nat × Nat)) : Nat → Nat → Prop :=
  Relation.EqvGen fun source target => (source, target) ∈ edges

/-- The label of a node after so many rounds. -/
def labelAfter (edges : List (Nat × Nat)) : Nat → Nat → Nat
  | 0, node => node
  | round + 1, node =>
      ((neighborsOf edges node).map (labelAfter edges round)).foldl min (labelAfter edges round node)

/-- The label of a node is the least node of its component. -/
def Least (edges : List (Nat × Nat)) (round node : Nat) : Prop :=
  ∀ other, Connected edges node other → labelAfter edges round node ≤ other

theorem le_foldl_min {α : Type} [Min α] [LE α] [Std.LawfulOrderInf α] {bound start : α} {values : List α} :
    bound ≤ values.foldl min start ↔ bound ≤ start ∧ ∀ value ∈ values, bound ≤ value := by
  induction values generalizing start with
  | nil => simp
  | cons value values inductionHypothesis => simp [inductionHypothesis, Std.le_min_iff, and_assoc]

theorem foldl_min_mem {α : Type} [LinearOrder α] (start : α) (values : List α) :
    values.foldl min start ∈ start :: values := by
  induction values generalizing start with
  | nil => simp
  | cons value values inductionHypothesis =>
    rcases List.mem_cons.mp (inductionHypothesis (min start value)) with here | there
    · rw [List.foldl_cons, here]
      rcases min_choice start value with left | right
      · simp [left]
      · simp [right]
    · exact List.mem_cons_of_mem _ (List.mem_cons_of_mem _ there)

variable {edges : List (Nat × Nat)} {nodes round node other : Nat}

/-! ## Components -/

theorem Connected.of_neighbor (neighbor : other ∈ neighborsOf edges node) : Connected edges node other := by
  rcases mem_neighborsOf_iff.mp neighbor with there | back
  · exact .rel _ _ there
  · exact .symm _ _ (.rel _ _ back)

/-- What holds of both ends of an edge or of none holds of whole components or not at all. -/
theorem Connected.iff_of_edges (holds : Nat → Prop)
    (agree : ∀ source target, (source, target) ∈ edges → (holds source ↔ holds target))
    (connected : Connected edges node other) : holds node ↔ holds other := by
  induction connected with
  | rel source target edge => exact agree source target edge
  | refl node => exact Iff.rfl
  | symm _ _ _ inductionHypothesis => exact inductionHypothesis.symm
  | trans _ _ _ _ _ first second => exact first.trans second

theorem Connected.inside (edgesInside : ∀ edge ∈ edges, edge.1 < nodes ∧ edge.2 < nodes)
    (connected : Connected edges node other) : node < nodes ↔ other < nodes :=
  connected.iff_of_edges (· < nodes) fun _ _ edge => iff_of_true (edgesInside _ edge).1 (edgesInside _ edge).2

/-! ## Rounds -/

theorem le_labelAfter_succ {bound : Nat} : bound ≤ labelAfter edges (round + 1) node ↔
    bound ≤ labelAfter edges round node ∧
      ∀ other ∈ neighborsOf edges node, bound ≤ labelAfter edges round other := by
  rw [labelAfter, le_foldl_min]
  simp

theorem labelAfter_succ_le (edges : List (Nat × Nat)) (round node : Nat) :
    labelAfter edges (round + 1) node ≤ labelAfter edges round node :=
  (le_labelAfter_succ.mp le_rfl).1

theorem labelAfter_succ_le_neighbor (neighbor : other ∈ neighborsOf edges node) :
    labelAfter edges (round + 1) node ≤ labelAfter edges round other :=
  (le_labelAfter_succ.mp le_rfl).2 other neighbor

theorem labelAfter_le (edges : List (Nat × Nat)) (round node : Nat) : labelAfter edges round node ≤ node := by
  induction round with
  | zero => exact le_rfl
  | succ round inductionHypothesis => exact (labelAfter_succ_le edges round node).trans inductionHypothesis

/-- Labels come from the component. -/
theorem connected_labelAfter (edges : List (Nat × Nat)) (round node : Nat) :
    Connected edges node (labelAfter edges round node) := by
  induction round generalizing node with
  | zero => exact .refl node
  | succ round inductionHypothesis =>
    rcases List.mem_cons.mp (foldl_min_mem (labelAfter edges round node)
      ((neighborsOf edges node).map (labelAfter edges round))) with own | taken
    · rw [labelAfter, own]
      exact inductionHypothesis node
    · obtain ⟨neighbor, member, same⟩ := List.mem_map.mp taken
      rw [labelAfter, ← same]
      exact .trans _ _ _ (Connected.of_neighbor member) (inductionHypothesis neighbor)

/-! ## Least labels stay -/

theorem Least.isLeast (least : Least edges round node) :
    IsLeast {other | Connected edges node other} (labelAfter edges round node) :=
  ⟨connected_labelAfter edges round node, fun other connected => least other connected⟩

theorem Least.still (least : Least edges round node) :
    labelAfter edges (round + 1) node = labelAfter edges round node :=
  le_antisymm (labelAfter_succ_le edges round node) (least _ (connected_labelAfter edges (round + 1) node))

theorem Least.succ (least : Least edges round node) : Least edges (round + 1) node := fun other connected =>
  (labelAfter_succ_le edges round node).trans (least other connected)

/-- A least label comes to all neighbors in one round. -/
theorem Least.neighbor (least : Least edges round other) (neighbor : other ∈ neighborsOf edges node) :
    Least edges (round + 1) node := fun third connected =>
  (labelAfter_succ_le_neighbor neighbor).trans
    (least third (.trans _ _ _ (.symm _ _ (Connected.of_neighbor neighbor)) connected))

/-- A node that is the least of its component has the right label from the start. -/
theorem exists_least (edges : List (Nat × Nat)) (round node : Nat) :
    ∃ other, Connected edges node other ∧ Least edges round other := by
  have some : {other | Connected edges node other}.Nonempty := ⟨node, .refl node⟩
  have member : Connected edges node (sInf {other | Connected edges node other}) := Nat.sInf_mem some
  refine ⟨_, member, fun third connected => ?_⟩
  induction round with
  | zero => exact Nat.sInf_le (Relation.EqvGen.trans _ _ _ member connected)
  | succ round inductionHypothesis => exact (labelAfter_succ_le edges round _).trans inductionHypothesis

/-! ## The end of the rounds -/

/-- If no label changes in a round, all labels are least ones. -/
theorem least_of_still (edgesInside : ∀ edge ∈ edges, edge.1 < nodes ∧ edge.2 < nodes)
    (still : ∀ node < nodes, labelAfter edges (round + 1) node = labelAfter edges round node) (node : Nat) :
    Least edges round node := by
  have le : ∀ node < nodes, ∀ other ∈ neighborsOf edges node,
      labelAfter edges round node ≤ labelAfter edges round other := fun node inside other neighbor =>
    (still node inside).symm.le.trans (labelAfter_succ_le_neighbor neighbor)
  intro other connected
  -- labels are the same on both ends of an edge, and so all over the component
  have same := connected.iff_of_edges (fun third => labelAfter edges round third =
      labelAfter edges round node) fun source target edge => by
    have forth := le source (edgesInside _ edge).1 target (mem_neighborsOf_iff.mpr (.inl edge))
    have back := le target (edgesInside _ edge).2 source (mem_neighborsOf_iff.mpr (.inr edge))
    rw [le_antisymm forth back]
  rw [← same.mp rfl]
  exact labelAfter_le edges round other

open Classical in
/-- The nodes whose labels are least ones. -/
noncomputable def leastNodes (edges : List (Nat × Nat)) (nodes round : Nat) : Finset Nat :=
  (Finset.range nodes).filter (Least edges round)

theorem mem_leastNodes : node ∈ leastNodes edges nodes round ↔ node < nodes ∧ Least edges round node := by
  simp [leastNodes]

/-- If a label is not a least one, the next round makes one more label a least one. -/
theorem card_leastNodes_lt (edgesInside : ∀ edge ∈ edges, edge.1 < nodes ∧ edge.2 < nodes)
    (pending : ¬ Least edges round node) :
    (leastNodes edges nodes round).card < (leastNodes edges nodes (round + 1)).card := by
  obtain ⟨least, connected, settled⟩ := exists_least edges round node
  -- somewhere between the least node of the component and this one there is an edge across
  obtain ⟨source, target, edge, differ⟩ : ∃ source target, (source, target) ∈ edges ∧
      ¬ (Least edges round source ↔ Least edges round target) := by
    by_contra none
    push Not at none
    exact pending ((connected.iff_of_edges (Least edges round) none).mpr settled)
  -- whichever end it is, the other one has its label from there
  obtain ⟨late, lateInside, before, after⟩ : ∃ late < nodes, ¬ Least edges round late ∧
      Least edges (round + 1) late := by
    by_cases first : Least edges round source
    · exact ⟨target, (edgesInside _ edge).2, fun second => differ (iff_of_true first second),
        first.neighbor (mem_neighborsOf_iff.mpr (.inr edge))⟩
    · have second : Least edges round target := by
        by_contra second
        exact differ (iff_of_false first second)
      exact ⟨source, (edgesInside _ edge).1, first, second.neighbor (mem_neighborsOf_iff.mpr (.inl edge))⟩
  apply Finset.card_lt_card
  refine ⟨fun node member => ?_, fun back => ?_⟩
  · obtain ⟨inside, least⟩ := mem_leastNodes.mp member
    exact mem_leastNodes.mpr ⟨inside, least.succ⟩
  · exact before (mem_leastNodes.mp (back (mem_leastNodes.mpr ⟨lateInside, after⟩))).2

theorem least_or_many (edgesInside : ∀ edge ∈ edges, edge.1 < nodes ∧ edge.2 < nodes) (round : Nat) :
    (∀ node < nodes, Least edges round node) ∨ round < (leastNodes edges nodes round).card := by
  -- on the rounds, each of which adds a node with a least label
  induction round with
  | zero =>
    rcases Nat.eq_zero_or_pos nodes with rfl | positive
    · exact .inl fun node inside => absurd inside (Nat.not_lt_zero node)
    · have first : 0 ∈ leastNodes edges nodes 0 :=
        mem_leastNodes.mpr ⟨positive, fun other _ => Nat.zero_le other⟩
      exact .inr (Finset.card_pos.mpr ⟨0, first⟩)
  | succ round inductionHypothesis =>
    by_cases all : ∀ node < nodes, Least edges round node
    · exact .inl fun node inside => (all node inside).succ
    · have many := inductionHypothesis.resolve_left all
      push Not at all
      obtain ⟨node, _, pending⟩ := all
      have more := card_leastNodes_lt edgesInside pending
      exact .inr (by omega)

/-- After one round less than there are nodes, all labels are least ones. -/
theorem least_in_time (edgesInside : ∀ edge ∈ edges, edge.1 < nodes ∧ edge.2 < nodes)
    (enough : nodes ≤ round + 1) (inside : node < nodes) : Least edges round node := by
  rcases least_or_many edgesInside round with all | many
  · exact all node inside
  · -- there are as many nodes with least labels as there are nodes
    have whole : leastNodes edges nodes round = Finset.range nodes := by
      apply Finset.eq_of_subset_of_card_le fun node member =>
        Finset.mem_range.mpr (mem_leastNodes.mp member).1
      rw [Finset.card_range]
      omega
    have member : node ∈ leastNodes edges nodes round := whole ▸ Finset.mem_range.mpr inside
    exact (mem_leastNodes.mp member).2

end BulkSync
