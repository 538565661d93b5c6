import BulkSync.Partition.Degrees
import BulkSync.Proofs.Graph.Packing
import BulkSync.Proofs.Partition.Greedy
import Mathlib.Data.List.GetD

/-! # How many runs a greedy cut leaves

Two neighbouring runs of a greedy cut exceed the target together, or the second one would not have been opened. Every
pair of runs therefore uses up a worker's share of the degrees, and there are fewer pairs than workers (`few_runs`).
The argument needs a total that is not too small; the number of edges of a graph is exact. -/

namespace BulkSync

open BulkSync.Span (Tile)

theorem Span.Tile.count_pos {start stop : Nat} {spans : List Span} (tile : Tile start spans stop) :
    ∀ span ∈ spans, 0 < span.count := by
  induction tile with
  | nil => exact nofun
  | cons positive rest inductionHypothesis => exact List.forall_mem_cons.mpr ⟨positive, inductionHypothesis⟩

namespace Partition

variable {degree : Nat → Nat} {target nodes : Nat} {runs : List WeighedSpan}

/-! ## Pairs of neighbours -/

/-- Neighbours that exceed the target together use it up once for each pair. -/
theorem pairs_mul_le_sum : ∀ {weights : List Nat},
    weights.IsChain (fun weight next => target < weight + next) →
      weights.length / 2 * (target + 1) ≤ weights.sum
  | [], _ => by simp
  | [_], _ => by simp
  | weight :: next :: weights, chain => by
    obtain ⟨beyond, tail⟩ := List.isChain_cons_cons.mp chain
    have rest := pairs_mul_le_sum tail.tail
    rw [List.tail_cons] at rest
    have pairs : (weight :: next :: weights).length / 2 = weights.length / 2 + 1 := by
      simp only [List.length_cons]
      omega
    rw [pairs, Nat.succ_mul, List.sum_cons, List.sum_cons]
    omega

/-- The runs share out the degrees of all nodes. -/
theorem sum_degreeSum (degree : Nat → Nat) (tile : Tile 0 (runs.map (·.span)) nodes) :
    (runs.map fun run => degreeSum degree run.span).sum = ((List.range nodes).map degree).sum := by
  have parts : (runs.map fun run => degreeSum degree run.span) =
      ((runs.map (·.span)).map fun span => span.toList.map degree).map List.sum := by
    simp [degreeSum, Function.comp_def]
  rw [parts, ← List.sum_flatten, ← List.flatMap_def, ← List.map_flatMap, tile.flatMap_toList, Nat.sub_zero,
    List.range_eq_range']

theorem Greedy.beyond (greedy : Greedy degree target runs) (tile : Tile 0 (runs.map (·.span)) nodes) :
    runs.IsChain fun run next => target < degreeSum degree run.span + degreeSum degree next.span := by
  refine greedy.late.imp_of_mem_imp fun run next member memberToo late => ?_
  have weighs := greedy.weight run member
  have positive := tile.count_pos next.span (List.mem_map_of_mem memberToo)
  have first : degree next.span.start ≤ degreeSum degree next.span :=
    le_degreeSum (List.mem_range'_1.mpr ⟨Nat.le_refl _, Nat.lt_add_of_pos_right positive⟩)
  rw [Word.satAdd] at late
  omega

/-- With a total that is no smaller than the sum of the degrees, there are fewer pairs than workers. -/
theorem Greedy.length_le {total concurrency : Nat} (greedy : Greedy degree target runs)
    (tile : Tile 0 (runs.map (·.span)) nodes) (enough : ((List.range nodes).map degree).sum ≤ total)
    (workers : 0 < concurrency) (share : total ≤ target * concurrency) : runs.length ≤ 2 * concurrency - 1 := by
  have chain : (runs.map fun run => degreeSum degree run.span).IsChain fun weight next => target < weight + next :=
    (List.isChain_map _).mpr (greedy.beyond tile)
  have used : runs.length / 2 * (target + 1) ≤ target * concurrency := by
    have pairs := pairs_mul_le_sum chain
    rw [List.length_map, sum_degreeSum degree tile] at pairs
    exact pairs.trans (enough.trans share)
  -- each pair takes more than a share, so as many pairs as workers would take more than the total
  have fewer : runs.length / 2 < concurrency := by
    by_contra many
    have costly : concurrency * (target + 1) ≤ target * concurrency :=
      (Nat.mul_le_mul_right (target + 1) (Nat.not_lt.mp many)).trans used
    rw [Nat.mul_succ, Nat.mul_comm concurrency target] at costly
    omega
  omega

theorem le_target_mul (c : Concurrency) (total : Nat) (least : Option Nat) :
    total ≤ targetWeight c.workers total least * c.workers := by
  have share : Word.ceilDiv total c.workers ≤ targetWeight c.workers total least :=
    (Nat.le_max_left ..).trans (Nat.le_max_left ..)
  exact (le_ceilDiv_mul c.positive).trans (Nat.mul_le_mul_right c.workers share)

theorem length_byDegree_le (c : Concurrency) {total : Nat} {least : Option Nat}
    (made : byDegree nodes total degree c.workers least = .ok runs)
    (enough : ((List.range nodes).map degree).sum ≤ total) : runs.length ≤ 2 * c.workers - 1 := by
  have greedy : Greedy degree (targetWeight c.workers total least) runs := by
    rw [byDegree_ok made]
    exact greedy_cut degree _ nodes
  exact greedy.length_le (tile_byDegreeM made) enough c.positive (le_target_mul c total least)

/-! ## Graphs -/

/-- A graph is cut by the lengths of its rows, and they add up to the number of its edges. -/
theorem byDegrees_packs {g : RowGraph} {lengths : List Nat} (packs : g.targets.Packs lengths) (concurrency : Nat)
    (least : Option Nat) : byDegrees g concurrency least =
      byDegree lengths.length lengths.sum (fun node => lengths.getD node 0) concurrency least := by
  have degrees : (List.range lengths.length).mapM (GraphView.degree g) =
      (List.range lengths.length).mapM fun node => Except.ok (lengths.getD node 0) := by
    refine (mapM_eq_ok fun node member => ?_).trans (mapM_eq_ok fun _ _ => rfl).symm
    have inside := List.mem_range.mp member
    rw [RowGraph.degree_of_packs packs inside, List.getD_eq_getElem _ _ inside]
  have counts : GraphView.nodeCount g = lengths.length := packs.rowCount
  have edges : GraphView.edgeCount g = lengths.sum := packs.size
  rw [byDegrees, byDegree, byDegreeM, byDegreeM, counts, edges, degrees]

/-- A cut by degree whose total is no smaller than the sum of the degrees has fewer runs than twice the workers, and
so has every cut of a graph. -/
theorem few_runs (c : Concurrency) :
    (∀ nodes total least (degree : Nat → Nat) runs, ((List.range nodes).map degree).sum ≤ total →
      byDegree nodes total degree c.workers least = .ok runs → runs.length ≤ 2 * c.workers - 1) ∧
    ∀ (g : RowGraph) least runs, g.Made → byDegrees g c.workers least = .ok runs →
      runs.length ≤ 2 * c.workers - 1 := by
  refine ⟨fun nodes total least degree runs enough made => length_byDegree_le c made enough, ?_⟩
  intro g least runs constructed made
  obtain ⟨lengths, packs⟩ := constructed.packs
  rw [byDegrees_packs packs] at made
  refine length_byDegree_le c made (Nat.le_of_eq (congrArg List.sum ?_))
  apply List.ext_getElem
  · simp
  · intro node _ inside
    rw [List.getElem_map, List.getElem_range, List.getD_eq_getElem _ _ inside]

/-- Two workers and no room for two neighbours in one run: three runs of a list of degrees, and of a graph. -/
theorem few_runs_tight :
    (((List.range 3).map fun node => [1, 2, 1].getD node 0).sum ≤ 4 ∧
      byDegree 3 4 (fun node => [1, 2, 1].getD node 0) 2 none = .ok [⟨⟨0, 1⟩, 1⟩, ⟨⟨1, 1⟩, 2⟩, ⟨⟨2, 1⟩, 1⟩] ∧
      [(⟨⟨0, 1⟩, 1⟩ : WeighedSpan), ⟨⟨1, 1⟩, 2⟩, ⟨⟨2, 1⟩, 1⟩].length ≤ 2 * 2 - 1) ∧
    ∃ g runs, RowGraph.ofAdjacency [[1], [0, 2], [2]] = .ok g ∧ byDegrees g 2 none = .ok runs ∧
      runs.length ≤ 2 * 2 - 1 := by
  obtain ⟨ofDegrees, ofGraph⟩ := few_runs ⟨2, by decide, by decide⟩
  have made : byDegree 3 4 (fun node => [1, 2, 1].getD node 0) 2 none =
      .ok [⟨⟨0, 1⟩, 1⟩, ⟨⟨1, 1⟩, 2⟩, ⟨⟨2, 1⟩, 1⟩] := by decide
  refine ⟨⟨by decide, made, ofDegrees _ _ _ _ _ (by decide) made⟩, ?_⟩
  have built : RowGraph.ofAdjacency [[1], [0, 2], [2]] = .ok ⟨Rows.ofLists [[1], [0, 2], [2]], none⟩ := rfl
  have cut : byDegrees (⟨Rows.ofLists [[1], [0, 2], [2]], none⟩ : RowGraph) 2 none =
      .ok [⟨⟨0, 1⟩, 1⟩, ⟨⟨1, 1⟩, 2⟩, ⟨⟨2, 1⟩, 1⟩] := by
    rw [byDegrees_packs (Rows.packs_ofLists [[1], [0, 2], [2]])]
    exact made
  exact ⟨_, _, built, cut, ofGraph _ _ _ (.adjacency _ built) cut⟩

end Partition
end BulkSync
