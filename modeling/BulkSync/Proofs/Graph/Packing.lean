import BulkSync.Proofs.Graph.Construction
import BulkSync.Proofs.Paged.Sound

/-! # Rows fill their array

The rows of a graph lie one behind the other in the array of targets and leave nothing of it out (`Rows.Packs`),
whether they were sorted by their numbers (`packs_group`) or written from lists (`packs_ofLists`). The degrees of the
nodes of a graph therefore add up to the number of its edges, whatever the graph was made of (`Made.packs`). -/

namespace BulkSync

namespace Rows

variable {α : Type}

/-- Rows of these lengths, which fill the array together. -/
structure Packs (lengths : List Nat) (rows : Rows α) : Prop where
  rowCount : rows.rowCount = lengths.length
  rowLength : ∀ row (inside : row < lengths.length), rows.rowLength row = lengths[row]
  size : rows.values.size = lengths.sum

variable [Inhabited α]

theorem packs_group {count : Nat} {items : List (Nat × α)} (inside : ∀ item ∈ items, item.1 < count) :
    Packs ((List.range count).map fun row => (itemsOf items row).length) (group count items) where
  rowCount := by
    have sized : (group count items).offsets.size = count + 1 := (startsOf_spec count items inside).1.size_eq
    rw [Rows.rowCount, sized, List.length_map, List.length_range, Nat.add_sub_cancel]
  rowLength row bound := by
    rw [List.length_map, List.length_range] at bound
    rw [List.getElem_map, List.getElem_range, Rows.rowLength, bounds_group inside bound]
    exact Nat.add_sub_cancel_left ..
  size := by rw [RowGraph.values_group inside, sum_itemsOf, before_all inside]

/-! ## Rows from lists -/

/-- Some rows are written: the array has their starts and the cursor is behind them. -/
structure Packing (rows written : List (List α)) (state : Nat × Nat × Rows α) : Prop where
  index : state.1 = written.length
  cursor : state.2.1 = written.flatten.length
  offsets : state.2.2.offsets.Regular (rows.length + 1)
  starts : ∀ row < written.length, state.2.2.offsets.peek row = (rows.take row).flatten.length
  size : state.2.2.values.size = rows.flatten.length

omit [Inhabited α] in
theorem foldl_poke_eq_pour (row : List α) (cursor : Nat) (values : Paged α) :
    row.foldl (fun (state : Nat × Paged α) item => (state.1 + 1, state.2.poke state.1 item)) (cursor, values) =
      (cursor + row.length, values.pour cursor row) := by
  induction row generalizing cursor values with
  | nil => rfl
  | cons item row inductionHypothesis =>
    rw [List.foldl_cons, inductionHypothesis, List.length_cons, Nat.add_right_comm]
    rfl

omit [Inhabited α] in
theorem Packing.append {rows written rest : List (List α)} {row : List α} {state : Nat × Nat × Rows α}
    (split : rows = written ++ row :: rest) (packing : Packing rows written state) :
    Packing rows (written ++ [row]) (append state row) := by
  obtain ⟨index, cursor, packed⟩ := state
  obtain ⟨rfl, rfl, offsets, starts, size⟩ := packing
  have wrote := foldl_poke_eq_pour row written.flatten.length packed.values
  have moved := congrArg Prod.fst wrote
  have sized := congrArg (fun state => state.2.size) wrote
  have room : written.length < rows.length + 1 := by
    rw [split, List.length_append]
    omega
  refine ⟨?_, ?_, offsets.poke room _, fun other passed => ?_, ?_⟩
  · rw [List.length_append, List.length_singleton]
    rfl
  · rw [List.flatten_append, List.length_append, List.flatten_singleton]
    exact moved
  · rw [List.length_append, List.length_singleton] at passed
    -- the start of the row just written is where the cursor was
    by_cases here : other = written.length
    · rw [here, split, List.take_left]
      exact offsets.peek_poke room _
    · exact (Paged.peek_poke_ne _ _ (Ne.symm here)).trans (starts other (by omega))
  · exact (sized.trans (Paged.pour_shape _ _ _).2.1).trans size

omit [Inhabited α] in
theorem packing_foldl {rows : List (List α)} (written rest : List (List α)) (state : Nat × Nat × Rows α)
    (split : rows = written ++ rest) (packing : Packing rows written state) :
    Packing rows rows (rest.foldl append state) := by
  induction rest generalizing written state with
  | nil =>
    rw [List.append_nil] at split
    rwa [← split] at packing
  | cons row rest inductionHypothesis =>
    exact inductionHypothesis (written ++ [row]) _ (by simp [split]) (packing.append split)

theorem packing_ofLists (rows : List (List α)) : Packing rows rows
    (rows.foldl append (0, 0, ⟨Paged.new (rows.length + 1), Paged.new rows.flatten.length⟩)) :=
  packing_foldl [] rows _ rfl ⟨rfl, rfl, Paged.regular_new _, nofun, rfl⟩

/-- A row starts where the rows before it end. -/
theorem peek_ofLists (rows : List (List α)) {row : Nat} (bound : row ≤ rows.length) :
    (ofLists rows).offsets.peek row = (rows.take row).flatten.length := by
  obtain ⟨index, cursor, offsets, starts, _⟩ := packing_ofLists rows
  simp only [ofLists, index, cursor]
  by_cases last : row = rows.length
  · rw [last, offsets.peek_poke (Nat.lt_succ_self _), List.take_length]
  · rw [Paged.peek_poke_ne _ _ (Ne.symm last), starts row (by omega)]

theorem packs_ofLists (rows : List (List α)) : Packs (rows.map List.length) (ofLists rows) where
  rowCount := by
    have sized : (ofLists rows).offsets.size = rows.length + 1 := (packing_ofLists rows).offsets.size_eq
    rw [Rows.rowCount, sized, List.length_map, Nat.add_sub_cancel]
  rowLength row bound := by
    rw [List.length_map] at bound
    simp only [Rows.rowLength, bounds, peek_ofLists rows (Nat.le_of_lt bound),
      peek_ofLists rows (Nat.succ_le_of_lt bound)]
    rw [List.take_succ_eq_append_getElem bound, List.flatten_append, List.length_append, List.flatten_singleton,
      Nat.add_sub_cancel_left, List.getElem_map]
  size := (packing_ofLists rows).size.trans List.length_flatten

end Rows

namespace RowGraph

/-- A graph that some constructor has made. -/
inductive Made (g : RowGraph) : Prop
  | adjacency (rows : List (List Nat)) (made : ofAdjacency rows = .ok g)
  | edges (nodes : Nat) (edges : List (Nat × Nat)) (made : ofEdges nodes edges = .ok g)
  | weighted (nodes : Nat) (edges : List (Nat × Nat × Binary64)) (made : ofWeighted nodes edges = .ok g)
  | undirected (nodes : Nat) (edges : List (Nat × Nat)) (made : undirected nodes edges = .ok g)

theorem inside_of_checkEdges {nodes : Nat} {edges : List (Nat × Nat)} (checked : checkEdges nodes edges = .ok ()) :
    ∀ edge ∈ edges, edge.1 < nodes := by
  induction edges with
  | nil => exact nofun
  | cons edge edges inductionHypothesis =>
    rw [checkEdges] at checked
    split at checked
    · next inside => exact List.forall_mem_cons.mpr ⟨inside.1, inductionHypothesis checked⟩
    · cases checked

theorem ofAdjacency_ok {rows : List (List Nat)} {g : RowGraph} (made : ofAdjacency rows = .ok g) :
    g = ⟨Rows.ofLists rows, none⟩ := by
  obtain ⟨_, _, rest⟩ := bind_eq_ok_iff.mp made
  obtain ⟨⟨⟩, _, last⟩ := bind_eq_ok_iff.mp rest
  exact (Except.ok.inj last).symm

theorem packs_of_ofEdges {g : RowGraph} {nodes : Nat} {edges : List (Nat × Nat)} (made : ofEdges nodes edges = .ok g) :
    ∃ lengths, g.targets.Packs lengths := by
  obtain ⟨_, _, rest⟩ := bind_eq_ok_iff.mp made
  obtain ⟨⟨⟩, checked, last⟩ := bind_eq_ok_iff.mp rest
  cases last
  exact ⟨_, Rows.packs_group (inside_of_checkEdges checked)⟩

theorem Made.packs {g : RowGraph} (made : g.Made) : ∃ lengths, g.targets.Packs lengths := by
  cases made with
  | adjacency rows made =>
    obtain rfl := ofAdjacency_ok made
    exact ⟨_, Rows.packs_ofLists rows⟩
  | edges nodes edges made => exact packs_of_ofEdges made
  | weighted nodes edges made =>
    obtain ⟨_, _, rest⟩ := bind_eq_ok_iff.mp made
    obtain ⟨⟨⟩, checked, last⟩ := bind_eq_ok_iff.mp rest
    cases last
    exact ⟨_, Rows.packs_group (inside_of_checkEdges checked)⟩
  | undirected nodes edges made => exact packs_of_ofEdges made

theorem degree_of_packs {g : RowGraph} {lengths : List Nat} (packs : g.targets.Packs lengths) {node : Nat}
    (inside : node < lengths.length) : GraphView.degree g node = .ok lengths[node] := by
  change (g.checkNode node >>= fun _ => pure (g.targets.rowLength node)) = _
  rw [checkNode, nodeCount, packs.rowCount, if_pos inside, packs.rowLength node inside]
  rfl

end RowGraph
end BulkSync
