import BulkSync.Proofs.Partition.Pieces
import Mathlib.Algebra.Order.BigOperators.Group.List
import Mathlib.Data.List.Chain

/-! # The greedy cut

A cut by degree goes through the nodes once and closes a run in front of a node that would take it beyond the target.
What it leaves is told by the runs and by the places between them (`Greedy`): a run is within the target or has a
single node, and no run is closed before it has to be (`greedy_of_byDegree`). Sums of degrees are exact as long as they
fit into 64 bits, and the greatest count beyond that. -/

namespace BulkSync.Partition

open BulkSync.Span (Tile)

/-- The sum of the degrees of the nodes of a run. -/
def degreeSum (degree : Nat → Nat) (span : Span) : Nat := (span.toList.map degree).sum

/-- Runs of which each is within the target, or has a single node, and is closed only in front of a node that would
take it beyond the target. -/
structure Greedy (degree : Nat → Nat) (target : Nat) (runs : List WeighedSpan) : Prop where
  weight : ∀ run ∈ runs, run.weight = min (degreeSum degree run.span) Word.top
  light : ∀ run ∈ runs, run.weight ≤ target ∨ run.span.count = 1
  late : runs.IsChain fun run next => target < Word.satAdd run.weight (degree next.span.start)

variable {degree : Nat → Nat} {target : Nat}

/-! ## The open run -/

theorem degreeSum_concat (degree : Nat → Nat) (start count : Nat) :
    degreeSum degree ⟨start, count + 1⟩ = degreeSum degree ⟨start, count⟩ + degree (start + count) := by
  simp [degreeSum, Span.toList, List.range'_1_concat]

theorem degreeSum_single (degree : Nat → Nat) (node : Nat) : degreeSum degree ⟨node, 1⟩ = degree node := by
  simp [degreeSum, Span.toList]

theorem satAdd_min (sum degree : Nat) : Word.satAdd (min sum Word.top) degree = min (sum + degree) Word.top := by
  rw [Word.satAdd]
  omega

theorem start_of_head_cutFrom {start count weight : Nat} {degrees : List Nat} :
    ∀ run ∈ (cutFrom target start count weight degrees).head?, run.span.start = start := by
  induction degrees generalizing count weight with
  | nil => simp [cutFrom]
  | cons first rest inductionHypothesis =>
    rw [cutFrom]
    split
    · simp
    · exact inductionHypothesis

/-- The open run has the sum of its degrees so far, and has not taken a second node beyond the target. -/
theorem greedy_cutFrom {start count weight : Nat} (left : Nat) (some : 0 < count + left)
    (weighs : weight = min (degreeSum degree ⟨start, count⟩) Word.top) (light : weight ≤ target ∨ count ≤ 1) :
    Greedy degree target
      (cutFrom target start count weight ((List.range' (start + count) left).map degree)) := by
  induction left generalizing start count weight with
  | zero =>
    -- the last run is closed as it is; it is not empty, for there was a node to open it
    have alone : weight ≤ target ∨ count = 1 := light.imp_right fun few => by omega
    exact ⟨List.forall_mem_singleton.mpr weighs, List.forall_mem_singleton.mpr alone, .singleton _⟩
  | succ left inductionHypothesis =>
    rw [List.range'_succ, List.map_cons, cutFrom]
    split
    · next full =>
      -- the node that does not fit any more opens the next run
      have rest : Greedy degree target (cutFrom target (start + count) 1 (Word.satAdd 0 (degree (start + count)))
          ((List.range' (start + count + 1) left).map degree)) := by
        refine inductionHypothesis (by omega) ?_ (.inr (Nat.le_refl 1))
        rw [degreeSum_single, Word.satAdd, Nat.zero_add]
      have alone : weight ≤ target ∨ count = 1 := light.imp_right fun few => by omega
      refine ⟨List.forall_mem_cons.mpr ⟨weighs, rest.weight⟩, List.forall_mem_cons.mpr ⟨alone, rest.light⟩,
        rest.late.cons fun next head => ?_⟩
      rw [start_of_head_cutFrom next head]
      exact full.2
    · next fits =>
      -- the node joins the open run, which stays within the target unless it was empty
      refine inductionHypothesis (by omega) ?_ ?_
      · rw [degreeSum_concat, weighs, satAdd_min]
      · omega

theorem greedy_cut (degree : Nat → Nat) (target nodes : Nat) :
    Greedy degree target (cut target ((List.range nodes).map degree)) := by
  cases nodes with
  | zero => exact ⟨nofun, nofun, .nil⟩
  | succ nodes =>
    have runs : Greedy degree target (cutFrom target 0 0 0 ((List.range' (0 + 0) (nodes + 1)).map degree)) :=
      greedy_cutFrom (nodes + 1) (by omega) (by simp [degreeSum, Span.toList]) (.inr (Nat.zero_le 1))
    rw [Nat.zero_add, ← List.range_eq_range'] at runs
    rwa [cut, if_neg (by simp)]

/-! ## Runs of heavy nodes -/

theorem le_degreeSum {span : Span} {node : Nat} (member : node ∈ span.toList) : degree node ≤ degreeSum degree span :=
  List.le_sum_of_mem (List.mem_map_of_mem member)

/-- A node beyond the target leaves no room for another one in its run. -/
theorem Greedy.alone {runs : List WeighedSpan} {nodes node : Nat} (greedy : Greedy degree target runs)
    (tile : Tile 0 (runs.map (·.span)) nodes) (inside : node < nodes) (bounded : degree node ≤ Word.top)
    (heavy : target < degree node) : ⟨⟨node, 1⟩, degree node⟩ ∈ runs := by
  obtain ⟨_, member, from_start, to_stop⟩ := tile.covers (Nat.zero_le node) inside
  obtain ⟨⟨⟨start, count⟩, weight⟩, run, rfl⟩ := List.mem_map.mp member
  have within : degree node ≤ degreeSum degree ⟨start, count⟩ :=
    le_degreeSum (List.mem_range'_1.mpr ⟨from_start, to_stop⟩)
  have weighs := greedy.weight _ run
  have light := greedy.light _ run
  dsimp only at weighs light from_start to_stop
  -- its run is beyond the target, so it has a single node
  obtain rfl : count = 1 := light.resolve_left (by omega)
  obtain rfl : start = node := by omega
  rw [degreeSum_single, Nat.min_eq_left bounded] at weighs
  exact weighs ▸ run

/-! ## Cuts by degree -/

theorem byDegree_ok {nodes total concurrency : Nat} {least : Option Nat} {runs : List WeighedSpan}
    (made : byDegree nodes total degree concurrency least = .ok runs) :
    runs = cut (targetWeight concurrency total least) ((List.range nodes).map degree) := by
  rw [byDegree, byDegreeM] at made
  split at made
  · next none =>
    cases made
    rw [none]
    rfl
  · obtain ⟨⟨⟩, _, counted⟩ := bind_eq_ok_iff.mp made
    obtain ⟨degrees, mapped, last⟩ := bind_eq_ok_iff.mp counted
    rw [mapM_eq_ok fun node _ => rfl] at mapped
    cases mapped
    exact (Except.ok.inj last).symm

/-- The runs of a cut by degree are within the target, but for single nodes, and none is closed too early. A node that
is beyond the target by itself has a run of its own. -/
theorem greedy_of_byDegree (c : Concurrency) {nodes total target : Nat} {degree : Nat → UInt64} {least : Option Nat}
    {runs : List WeighedSpan} (made : byDegree nodes total (fun node => (degree node).toNat) c.workers least = .ok runs)
    (aim : target = max (max (total ⌈/⌉ c.workers) (least.getD 1)) 1) :
    Tile 0 (runs.map (·.span)) nodes ∧ Greedy (fun node => (degree node).toNat) target runs ∧
      ∀ node < nodes, target < (degree node).toNat → ⟨⟨node, 1⟩, (degree node).toNat⟩ ∈ runs := by
  have tile : Tile 0 (runs.map (·.span)) nodes := tile_byDegreeM made
  have greedy : Greedy (fun node => (degree node).toNat) target runs := by
    rw [byDegree_ok made, targetWeight, ceilDiv_eq, ← aim]
    exact greedy_cut _ target nodes
  refine ⟨tile, greedy, fun node inside heavy => greedy.alone tile inside ?_ heavy⟩
  exact Nat.le_sub_one_of_lt (degree node).toNat_lt

/-- A total that is too small, a least weight above the share, a heavy first node, one that fills a sum up, and nodes
without edges between them. -/
theorem greedy_of_byDegree_heavy :
    3 = max (max (3 ⌈/⌉ 2) ((some 3).getD 1)) 1 ∧
      Tile 0 [⟨0, 1⟩, ⟨1, 2⟩, ⟨3, 1⟩, ⟨4, 2⟩] 6 ∧
      ∀ node < 6, 3 < ([5, 0, 0, 18446744073709551615, 1, 2].getD node 0 : UInt64).toNat →
        (⟨⟨node, 1⟩, ([5, 0, 0, 18446744073709551615, 1, 2].getD node 0 : UInt64).toNat⟩ : WeighedSpan) ∈
          [(⟨⟨0, 1⟩, 5⟩ : WeighedSpan), ⟨⟨1, 2⟩, 0⟩, ⟨⟨3, 1⟩, 18446744073709551615⟩, ⟨⟨4, 2⟩, 3⟩] := by
  have aim : 3 = max (max (3 ⌈/⌉ 2) ((some 3).getD 1)) 1 := by decide
  have made : byDegree 6 3 (fun node => ([5, 0, 0, 18446744073709551615, 1, 2].getD node 0 : UInt64).toNat) 2 (some 3) =
      .ok [⟨⟨0, 1⟩, 5⟩, ⟨⟨1, 2⟩, 0⟩, ⟨⟨3, 1⟩, 18446744073709551615⟩, ⟨⟨4, 2⟩, 3⟩] := by decide
  obtain ⟨tile, -, alone⟩ := greedy_of_byDegree ⟨2, by decide, by decide⟩ made aim
  exact ⟨aim, tile, alone⟩

end BulkSync.Partition
