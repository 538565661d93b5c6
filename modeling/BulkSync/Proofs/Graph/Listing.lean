import Mathlib.Data.List.Basic
import Mathlib.Data.List.GetD
import BulkSync.Proofs.Graph.Packing
import BulkSync.Proofs.Paged.Refinement

/-! # Rows from lists and rows from items

Writing the rows of a list one behind the other gives the same packed rows as sorting their items by the number of
their row (`ofLists_eq`). Both fill the same arrays: a row starts behind the items of the rows before it, and the
values are those of all rows, one row after the other (`values_ofLists`, `elements_group`). -/

namespace BulkSync

/-- What no step changes, a fold does not change. -/
theorem foldl_view {σ β γ : Type} (step : σ → β → σ) (view : σ → γ) (kept : ∀ s item, view (step s item) = view s)
    (items : List β) (s : σ) : view (items.foldl step s) = view s := by
  induction items generalizing s with
  | nil => rfl
  | cons item items inductionHypothesis => exact (inductionHypothesis (step s item)).trans (kept s item)

namespace Paged

variable {α : Type}

theorem pour_append (a : Paged α) (start : Nat) (first second : List α) :
    a.pour start (first ++ second) = (a.pour start first).pour (start + first.length) second := by
  induction first generalizing a start with
  | nil => rfl
  | cons value first inductionHypothesis =>
    rw [List.cons_append, pour, inductionHypothesis, List.length_cons, Nat.add_right_comm]
    rfl

variable [Inhabited α]

theorem Regular.pour {size start : Nat} {a : Paged α} {values : List α} (regular : a.Regular size)
    (fits : start + values.length ≤ size) : (a.pour start values).Regular size := by
  induction values generalizing a start with
  | nil => exact regular
  | cons value values inductionHypothesis =>
    rw [List.length_cons] at fits
    apply inductionHypothesis (regular.poke (by omega) value)
    omega

theorem Regular.sound {size : Nat} {a : Paged α} (regular : a.Regular size) (unreleased : a.released = false) :
    a.Sound := by
  constructor
  · rw [regular.layout, regular.size_eq]
    exact regular.covers
  · intro gone
    rw [unreleased] at gone
    cases gone

theorem Regular.ext_elements {size : Nat} {a b : Paged α} (regular : a.Regular size) (regularToo : b.Regular size)
    (released : a.released = b.released) (same : a.elements = b.elements) : a = b := by
  apply regular.ext regularToo released
  intro index inside
  have here : index < a.elements.length := by rwa [length_elements, regular.size_eq]
  have there : index < b.elements.length := by rwa [length_elements, regularToo.size_eq]
  rw [← getElem_elements a here, ← getElem_elements b there]
  simp only [same]

end Paged

namespace Rows

variable {α : Type}

/-! ## Rows from lists -/

theorem values_foldl_append (rows : List (List α)) (state : Nat × Nat × Rows α) :
    (rows.foldl append state).2.2.values = state.2.2.values.pour state.2.1 rows.flatten := by
  induction rows generalizing state with
  | nil => rfl
  | cons row rows inductionHypothesis =>
    obtain ⟨index, cursor, offsets, values⟩ := state
    have written := foldl_poke_eq_pour row cursor values
    rw [List.foldl_cons, inductionHypothesis, List.flatten_cons, Paged.pour_append]
    simp only [append]
    rw [written]

variable [Inhabited α]

theorem values_ofLists (rows : List (List α)) :
    (ofLists rows).values = (Paged.new rows.flatten.length).pour 0 rows.flatten :=
  values_foldl_append rows _

theorem offsets_ofLists (rows : List (List α)) :
    (ofLists rows).offsets.Regular (rows.length + 1) ∧ (ofLists rows).offsets.released = false := by
  obtain ⟨index, _, offsets, _, _⟩ := packing_ofLists rows
  constructor
  · apply offsets.poke
    rw [index]
    exact Nat.lt_succ_self _
  · exact foldl_view append (fun state : Nat × Nat × Rows α => state.2.2.offsets.released)
      (fun _ _ => rfl) rows _

theorem elements_ofLists (rows : List (List α)) : (ofLists rows).values.elements = rows.flatten := by
  have filled := (Paged.sound_ofLayout (α := α) rows.flatten.length .usual).flat_pour rfl
  rw [values_ofLists]
  exact congrArg Flat.elements filled

/-! ## Rows from items -/

section Group

variable {count : Nat} {items : List (Nat × α)}

omit [Inhabited α] in
/-- The places of all rows, one row after the other. -/
theorem flatMap_places (items : List (Nat × α)) (count : Nat) :
    ((List.range count).flatMap fun row => List.range' (before items row) (itemsOf items row).length) =
      List.range (before items count) := by
  induction count with
  | zero => simp
  | succ count inductionHypothesis =>
    rw [List.range_succ, List.flatMap_append, inductionHypothesis, List.flatMap_singleton, before_succ,
      List.range_eq_range', List.range_eq_range', ← List.range'_append_1, Nat.zero_add]

theorem elements_group (inside : ∀ item ∈ items, item.1 < count) :
    (group count items).values.elements = (List.range count).flatMap (itemsOf items) := by
  rw [Paged.elements, RowGraph.values_group inside, ← before_all inside, ← flatMap_places, List.map_flatMap]
  apply List.flatMap_congr
  intro row member
  exact peek_group inside (List.mem_range.mp member)

theorem offsets_group (inside : ∀ item ∈ items, item.1 < count) :
    (group count items).offsets.Regular (count + 1) ∧ (group count items).offsets.released = false := by
  constructor
  · exact (startsOf_spec count items inside).1
  · have summed := foldl_view addUp Paged.released (fun _ _ => rfl) (List.range' 1 count)
    have counted := foldl_view (fun counts (item : Nat × α) => bump counts (item.1 + 1)) Paged.released
      (fun _ _ => rfl) items (Paged.new (count + 1))
    exact (summed _).trans counted

theorem released_group (count : Nat) (items : List (Nat × α)) : (group count items).values.released = false :=
  foldl_view (place _) (fun state : Paged Nat × Paged α => state.2.released) (fun _ _ => rfl) items _

end Group

end Rows

namespace RowGraph

open Rows (itemsOf before)

/-! ## The edges of rows -/

/-- Of rows with their numbers, counted from `first` on, only the row itself has targets for it. -/
theorem flatMap_numbered (adjacency : List (List Nat)) (first row : Nat) :
    ((adjacency.zipIdx first).flatMap fun numbered => if numbered.2 = row then numbered.1 else []) =
      if first ≤ row then adjacency.getD (row - first) [] else [] := by
  induction adjacency generalizing first with
  | nil => simp
  | cons targets adjacency inductionHypothesis =>
    rw [List.zipIdx_cons, List.flatMap_cons, inductionHypothesis]
    dsimp only
    rcases Nat.lt_trichotomy first row with earlier | here | later
    · have behind : row - first = row - (first + 1) + 1 := by omega
      rw [if_neg (Nat.ne_of_lt earlier), if_pos (Nat.succ_le_of_lt earlier), if_pos (Nat.le_of_lt earlier),
        List.nil_append, behind, List.getD_cons_succ]
    · rw [if_pos here, if_neg (by omega), if_pos (Nat.le_of_eq here), List.append_nil, here, Nat.sub_self,
        List.getD_cons_zero]
    · rw [if_neg (Nat.ne_of_gt later), if_neg (by omega), if_neg (Nat.not_le_of_lt later), List.nil_append]

theorem itemsOf_edgesOf (adjacency : List (List Nat)) (row : Nat) :
    itemsOf (edgesOf adjacency) row = adjacency.getD row [] := by
  have numbered := flatMap_numbered adjacency 0 row
  rw [if_pos (Nat.zero_le _), Nat.sub_zero] at numbered
  rw [edgesOf, Rows.itemsOf_flatMap, ← numbered]
  apply List.flatMap_congr
  rintro ⟨targets, source⟩ _
  by_cases here : source = row
  · simp [itemsOf, List.filterMap_map, here]
  · simp [itemsOf, List.filterMap_map, here]

theorem itemsOf_edgesOf_of_lt {adjacency : List (List Nat)} {row : Nat} (inside : row < adjacency.length) :
    itemsOf (edgesOf adjacency) row = adjacency[row] := by
  rw [itemsOf_edgesOf, List.getD_eq_getElem _ _ inside]

theorem edgesOf_inside (adjacency : List (List Nat)) : ∀ edge ∈ edgesOf adjacency, edge.1 < adjacency.length := by
  rintro ⟨source, target⟩ member
  rw [← Rows.mem_itemsOf, itemsOf_edgesOf] at member
  by_contra behind
  rw [List.getD_eq_default _ _ (Nat.le_of_not_lt behind)] at member
  cases member

theorem before_edgesOf (adjacency : List (List Nat)) {row : Nat} (bound : row ≤ adjacency.length) :
    before (edgesOf adjacency) row = (adjacency.take row).flatten.length := by
  induction row with
  | zero => simp
  | succ row inductionHypothesis =>
    have inside : row < adjacency.length := bound
    rw [Rows.before_succ, inductionHypothesis (Nat.le_of_lt inside), itemsOf_edgesOf_of_lt inside,
      List.take_succ_eq_append_getElem inside, List.flatten_append, List.length_append, List.flatten_singleton]

theorem edgesOf_length (adjacency : List (List Nat)) : (edgesOf adjacency).length = adjacency.flatten.length := by
  rw [← Rows.before_all (edgesOf_inside adjacency), before_edgesOf adjacency (Nat.le_refl _), List.take_length]

theorem flatten_eq_flatMap (adjacency : List (List Nat)) :
    adjacency.flatten = (List.range adjacency.length).flatMap (itemsOf (edgesOf adjacency)) := by
  have rows : adjacency = (List.range adjacency.length).map (itemsOf (edgesOf adjacency)) := by
    apply List.ext_getElem
    · simp
    · intro row here _
      rw [List.getElem_map, List.getElem_range, itemsOf_edgesOf_of_lt here]
  rw [List.flatMap_def, ← rows]

/-- The rows of a list are the rows of its edges. -/
theorem ofLists_eq (adjacency : List (List Nat)) :
    Rows.ofLists adjacency = Rows.group adjacency.length (edgesOf adjacency) := by
  have inside := edgesOf_inside adjacency
  obtain ⟨listed, unreleased⟩ := Rows.offsets_ofLists adjacency
  obtain ⟨grouped, unreleasedToo⟩ := Rows.offsets_group inside
  have offsets : (Rows.ofLists adjacency).offsets = (Rows.group adjacency.length (edgesOf adjacency)).offsets := by
    apply listed.ext grouped (unreleased.trans unreleasedToo.symm)
    intro row bound
    rw [Rows.peek_ofLists adjacency (by omega), ← before_edgesOf adjacency (by omega)]
    exact ((Rows.startsOf_spec _ _ inside).2 row (by omega)).symm
  have values : (Rows.ofLists adjacency).values = (Rows.group adjacency.length (edgesOf adjacency)).values := by
    obtain ⟨_, placed⟩ := Rows.placed_group inside
    have filled : (Rows.ofLists adjacency).values.Regular (edgesOf adjacency).length := by
      rw [Rows.values_ofLists, edgesOf_length]
      exact (Paged.regular_new _).pour (by omega)
    apply filled.ext_elements placed.places
    · rw [Rows.released_group, Rows.values_ofLists, (Paged.pour_shape _ _ _).2.2]
      rfl
    · rw [Rows.elements_ofLists, Rows.elements_group inside]
      exact flatten_eq_flatMap adjacency
  exact congrArg₂ Rows.mk offsets values

end RowGraph
end BulkSync
