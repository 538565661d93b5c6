import BulkSync.Graph.RowGraph
import BulkSync.Proofs.Graph.Grouping
import BulkSync.Proofs.Paged.Cursor

/-! # Reading packed rows

A graph whose targets were grouped by the sources of its edges gives at each node the targets of that node
(`slices_group`), however they are read: as a list, one after the other, or by their number. -/

namespace BulkSync

/-! ## Walks -/

section Walks

variable {σ α β : Type}

theorem foldWhile_append (visit : Visitor σ α) (first second : List α) (s : σ) :
    foldWhile visit (first ++ second) s =
      match foldWhile visit first s with
      | (s, true) => foldWhile visit second s
      | (s, false) => (s, false) := by
  induction first generalizing s with
  | nil => rfl
  | cons head tail inductionHypothesis =>
    simp only [List.cons_append, foldWhile]
    cases visit s head with
    | mk s goesOn =>
      cases goesOn with
      | false => rfl
      | true => exact inductionHypothesis s

theorem foldWhile_map (visit : Visitor σ β) (f : α → β) (items : List α) (s : σ) :
    foldWhile visit (items.map f) s = foldWhile (fun s item => visit s (f item)) items s := by
  induction items generalizing s with
  | nil => rfl
  | cons head tail inductionHypothesis =>
    simp only [List.map_cons, foldWhile, inductionHypothesis]

theorem foldSlices_eq (visit : Visitor σ Nat) (slices : List (Array Nat)) (s : σ) :
    RowGraph.foldSlices visit slices s = (foldWhile visit (slices.flatMap (·.toList)) s).1 := by
  induction slices generalizing s with
  | nil => rfl
  | cons slice slices inductionHypothesis =>
    rw [RowGraph.foldSlices, List.flatMap_cons, foldWhile_append]
    cases foldWhile visit slice.toList s with
    | mk s goesOn =>
      cases goesOn with
      | false => rfl
      | true => exact inductionHypothesis s

end Walks

namespace RowGraph

open Rows (itemsOf)

/-! ## Rows -/

section Grouped

variable {nodes node : Nat} {items : List (Nat × Nat)} {g : RowGraph}

theorem rowCount_group (inside : ∀ item ∈ items, item.1 < nodes) :
    (Rows.group nodes items).rowCount = nodes := by
  have sized : (Rows.group nodes items).offsets.size = nodes + 1 :=
    (Rows.startsOf_spec nodes items inside).1.size_eq
  rw [Rows.rowCount, sized, Nat.add_sub_cancel]

theorem slices_group (inside : ∀ item ∈ items, item.1 < nodes) (bound : node < nodes) :
    ((Rows.group nodes items).slices node).flatMap (·.toList) = itemsOf items node := by
  obtain ⟨filled, placed⟩ := Rows.placed_group inside
  have covers : (Rows.group nodes items).values.layout.Covers (Rows.group nodes items).values.size
      (Rows.group nodes items).values.pages := by
    rw [placed.places.layout, placed.places.size_eq]
    exact placed.places.covers
  have fits := Rows.before_le_length items (node + 1)
  rw [Rows.before_succ, ← placed.places.size_eq] at fits
  simp only [Rows.slices, Rows.bounds_group inside bound, List.flatMap_map]
  rw [Paged.flatMap_cursor covers, Nat.min_eq_left fits, Nat.add_sub_cancel_left]
  exact Rows.peek_group inside bound

theorem values_group {α : Type} [Inhabited α] {items : List (Nat × α)}
    (inside : ∀ item ∈ items, item.1 < nodes) : (Rows.group nodes items).values.size = items.length := by
  obtain ⟨filled, placed⟩ := Rows.placed_group inside
  exact placed.places.size_eq

theorem checkNode_eq (grouped : g.targets = Rows.group nodes items) (inside : ∀ item ∈ items, item.1 < nodes)
    (node : Nat) : g.checkNode node = if node < nodes then .ok () else .error (.nodeOutOfBounds node) := by
  rw [checkNode, nodeCount, grouped, rowCount_group inside]

theorem neighbors_eq (grouped : g.targets = Rows.group nodes items)
    (inside : ∀ item ∈ items, item.1 < nodes) (bound : node < nodes) :
    g.neighbors node = .ok (itemsOf items node) := by
  rw [neighbors, checkNode_eq grouped inside, if_pos bound, grouped, Rows.row, slices_group inside bound]
  rfl

theorem degree_eq (grouped : g.targets = Rows.group nodes items)
    (inside : ∀ item ∈ items, item.1 < nodes) (bound : node < nodes) :
    GraphView.degree g node = .ok (itemsOf items node).length := by
  change (g.checkNode node >>= fun _ => pure (g.targets.rowLength node)) = _
  rw [checkNode_eq grouped inside, if_pos bound, grouped, Rows.rowLength, Rows.bounds_group inside bound]
  exact congrArg Except.ok (Nat.add_sub_cancel_left ..)

theorem hasEdge_eq (grouped : g.targets = Rows.group nodes items)
    (inside : ∀ item ∈ items, item.1 < nodes) (bound : node < nodes) (target : Nat) :
    g.hasEdge node target = .ok (decide ((node, target) ∈ items)) := by
  rw [hasEdge, neighbors_eq grouped inside bound]
  have found : (itemsOf items node).any (· == target) = decide ((node, target) ∈ items) := by
    rw [Bool.eq_iff_iff, decide_eq_true_eq, ← Rows.mem_itemsOf]
    simp
  exact congrArg Except.ok found

theorem foldTargets_eq {σ : Type} (grouped : g.targets = Rows.group nodes items)
    (inside : ∀ item ∈ items, item.1 < nodes) (bound : node < nodes) (visit : Visitor σ Nat) (s : σ) :
    g.foldTargets node visit s = .ok (foldWhile visit (itemsOf items node) s).1 := by
  rw [foldTargets, checkNode_eq grouped inside, if_pos bound, grouped, foldSlices_eq, slices_group inside bound]
  rfl

end Grouped

end RowGraph
end BulkSync
