import BulkSync.Proofs.Partition.Tiling
import Mathlib.Algebra.Order.Floor.Div

/-! # What the runs of a cut look like

Each id lies in exactly one run of a cut (`Span.Tiling`). Cut by count there are no more runs than workers, and
all but the last are as long as was asked for; cut along an alignment they start at its multiples (`tiling_of_cut`).
Both bounds on the number of runs are one fact: pieces that are at least a worker's share are no more than the
workers (`ceilDiv_le_of_share`). -/

namespace BulkSync

namespace Span

/-- A run that ends below the greatest count knows its ids. -/
theorem contains_eq_true {span : Span} (bounded : span.start + span.count < Word.limit) {node : Nat} :
    span.contains node = .ok true ↔ span.start ≤ node ∧ node < span.start + span.count := by
  rw [contains, stop, Word.add?, if_pos bounded]
  by_cases before : node < span.start
  · simp [before, pure, Except.pure, Nat.not_le.mpr before]
  · simp [before, bind, Except.bind, pure, Except.pure, Nat.not_lt.mp before]

namespace Tile

variable {start stop : Nat} {spans : List Span}

theorem eq_nil_iff (tile : Tile start spans stop) : spans = [] ↔ start = stop := by
  cases tile with
  | nil => simp
  | cons positive rest =>
    have order := rest.start_le
    refine iff_of_false nofun ?_
    omega

theorem inside (tile : Tile start spans stop) :
    ∀ span ∈ spans, start ≤ span.start ∧ span.start + span.count ≤ stop := by
  induction tile with
  | nil => simp
  | cons positive rest inductionHypothesis =>
    intro other member
    rcases List.mem_cons.mp member with rfl | later
    · exact ⟨Nat.le_refl _, rest.start_le⟩
    · have within := inductionHypothesis other later
      omega

theorem ascending (tile : Tile start spans stop) :
    spans.Pairwise fun earlier later => earlier.start + earlier.count ≤ later.start := by
  induction tile with
  | nil => exact .nil
  | cons positive rest inductionHypothesis =>
    exact .cons (fun other member => (rest.inside other member).1) inductionHypothesis

theorem covers (tile : Tile start spans stop) {node : Nat} (from_start : start ≤ node) (to_stop : node < stop) :
    ∃ span ∈ spans, span.start ≤ node ∧ node < span.start + span.count := by
  induction tile with
  | nil => omega
  | @cons span spans stop positive rest inductionHypothesis =>
    by_cases here : node < span.start + span.count
    · exact ⟨span, List.mem_cons_self .., from_start, here⟩
    · obtain ⟨later, member, holds⟩ := inductionHypothesis (Nat.not_lt.mp here) to_stop
      exact ⟨later, List.mem_cons_of_mem _ member, holds⟩

end Tile

/-- Runs that cut the ids below a number: from zero on one behind the other without a gap, none of them empty,
and each id in exactly one of them. -/
structure Tiling (nodes : Nat) (spans : List Span) : Prop where
  tile : Tile 0 spans nodes
  empty : spans = [] ↔ nodes = 0
  once : ∀ node < nodes, ∃! place : Fin spans.length, (spans.get place).contains node = .ok true

theorem Tile.tiling {nodes : Nat} (bounded : nodes < Word.limit) {spans : List Span}
    (tile : Tile 0 spans nodes) : Tiling nodes spans := by
  have knows : ∀ (place : Fin spans.length) (node : Nat), (spans.get place).contains node = .ok true ↔
      (spans.get place).start ≤ node ∧ node < (spans.get place).start + (spans.get place).count := by
    intro place node
    have within := tile.inside _ (spans.get_mem place)
    exact contains_eq_true (by omega)
  refine ⟨tile, tile.eq_nil_iff.trans eq_comm, fun node inside => ?_⟩
  obtain ⟨span, member, holds⟩ := tile.covers (Nat.zero_le node) inside
  obtain ⟨place, rfl⟩ := List.get_of_mem member
  refine ⟨place, (knows place node).mpr holds, fun other found => ?_⟩
  -- of two runs the earlier one ends before the later one starts
  have holdsToo := (knows other node).mp found
  have apart := List.pairwise_iff_get.mp tile.ascending
  rcases lt_trichotomy place other with before | same | behind
  · have order := apart place other before
    omega
  · exact same.symm
  · have order := apart other place behind
    omega

end Span

namespace Partition

open BulkSync.Span (Tile Tiling)

variable {nodes batch concurrency : Nat}

/-! ## The number of pieces -/

theorem ceilDiv_eq (a b : Nat) : Word.ceilDiv a b = a ⌈/⌉ b := by
  rw [Word.ceilDiv, Nat.ceilDiv_eq_add_pred_div]
  split
  · next none => rw [none, Nat.div_zero]
  · rfl

/-- Pieces that are no smaller than the share of a worker are no more than the workers. -/
theorem ceilDiv_le_of_share (positive : 0 < batch) (workers : 0 < concurrency)
    (share : Word.ceilDiv nodes concurrency ≤ batch) : Word.ceilDiv nodes batch ≤ concurrency := by
  have covered : nodes ≤ Word.ceilDiv nodes concurrency * concurrency := le_ceilDiv_mul workers
  rw [ceilDiv_eq, ceilDiv_le_iff_le_mul positive]
  exact covered.trans (Nat.mul_le_mul_right concurrency share)

theorem chunks_ok {spans : List Span} (cut : chunks nodes batch = .ok spans) :
    spans = (List.range (Word.ceilDiv nodes batch)).map fun index =>
      ⟨index * batch, min batch (nodes - index * batch)⟩ := by
  obtain ⟨⟨⟩, _, made⟩ := bind_eq_ok_iff.mp cut
  exact (Except.ok.inj made).symm

theorem length_chunks {spans : List Span} (cut : chunks nodes batch = .ok spans) :
    spans.length = Word.ceilDiv nodes batch := by
  rw [chunks_ok cut, List.length_map, List.length_range]

theorem dvd_start_chunks {spans : List Span} (cut : chunks nodes batch = .ok spans) :
    ∀ span ∈ spans, batch ∣ span.start := by
  rw [chunks_ok cut]
  exact List.forall_mem_map.mpr fun index _ => Nat.dvd_mul_left batch index

/-- A run that has another one behind it is as long as was asked for. -/
theorem count_chunks (positive : 0 < batch) {spans : List Span} (cut : chunks nodes batch = .ok spans) :
    ∀ span ∈ spans.dropLast, span.count = batch := by
  intro span member
  obtain ⟨index, notLast, rfl⟩ := List.mem_iff_getElem.mp member
  rw [List.length_dropLast, length_chunks cut] at notLast
  have next : (index + 1) * batch < nodes := lt_of_lt_ceilDiv positive (by omega)
  rw [Nat.succ_mul] at next
  simp only [List.getElem_dropLast, chunks_ok cut, List.getElem_map, List.getElem_range]
  omega

/-! ## Every way of cutting -/

/-- A batch that is rounded up to a multiple of the alignment is no smaller than the share. -/
theorem aligned_ok {align : Nat} {spans : List Span} (cut : aligned concurrency nodes align = .ok spans) :
    ∃ batch, chunks nodes batch = .ok spans ∧ 0 < batch ∧ align ∣ batch ∧
      Word.ceilDiv nodes concurrency ≤ batch := by
  rw [aligned] at cut
  split at cut
  · cases cut
  · next some =>
    obtain ⟨batch, product, made⟩ := bind_eq_ok_iff.mp cut
    have positive : 0 < align := Nat.pos_of_ne_zero some
    rw [Word.mul?] at product
    split at product
    · cases product
      refine ⟨_, made, Nat.mul_pos (by omega) positive, Nat.dvd_mul_left .., ?_⟩
      exact (le_ceilDiv_mul positive).trans (Nat.mul_le_mul_right align (Nat.le_max_left ..))
    · cases product

/-- However the ids are cut, each is in one run; by count and along an alignment there is at most one run per
worker, of the size asked for and from multiples of the alignment on. -/
theorem tiling_of_cut (c : Concurrency) {nodes : Nat} (bounded : nodes < Word.limit) :
    (∀ least spans, byCount c.workers nodes least = .ok spans →
      Tiling nodes spans ∧ spans.length ≤ c.workers ∧
        ∀ span ∈ spans.dropLast, span.count = max (max (nodes ⌈/⌉ c.workers) (least.getD 1)) 1) ∧
    (∀ align spans, aligned c.workers nodes align = .ok spans →
      Tiling nodes spans ∧ spans.length ≤ c.workers ∧ ∀ span ∈ spans, align ∣ span.start) ∧
    (∀ total degree least weighed, byDegreeM nodes total degree c.workers least = .ok weighed →
      Tiling nodes (weighed.map (·.span))) ∧
    ∀ {γ : Type} [GraphView γ] (g : γ) least weighed, GraphView.nodeCount g = nodes →
      byDegrees g c.workers least = .ok weighed → Tiling nodes (weighed.map (·.span)) := by
  have byDegree : ∀ total degree least weighed,
      byDegreeM nodes total degree c.workers least = .ok weighed → Tiling nodes (weighed.map (·.span)) :=
    fun _ _ _ _ cut => (tile_byDegreeM cut).tiling bounded
  refine ⟨fun least spans cut => ?_, fun align spans cut => ?_, byDegree, ?_⟩
  · have positive := batchSize_pos c.workers nodes least
    have share : Word.ceilDiv nodes c.workers ≤ batchSize c.workers nodes least :=
      (Nat.le_max_left ..).trans (Nat.le_max_left ..)
    refine ⟨(tile_chunks positive cut).tiling bounded, ?_, ?_⟩
    · exact (length_chunks cut).le.trans (ceilDiv_le_of_share positive c.positive share)
    · rw [← ceilDiv_eq]
      exact count_chunks positive cut
  · obtain ⟨batch, made, positive, multiple, share⟩ := aligned_ok cut
    refine ⟨(tile_chunks positive made).tiling bounded, ?_, fun span member => ?_⟩
    · exact (length_chunks made).le.trans (ceilDiv_le_of_share positive c.positive share)
    · exact multiple.trans (dvd_start_chunks made span member)
  · rintro γ _ g least weighed rfl cut
    exact byDegree _ _ _ _ cut

/-- Ten ids for three workers: the least size asked for, an alignment that leaves a short run, and one node that
is too heavy to share its run. -/
theorem tiling_of_cut_ten : 10 < Word.limit ∧
    (Tiling 10 [⟨0, 5⟩, ⟨5, 5⟩] ∧ [(⟨0, 5⟩ : Span), ⟨5, 5⟩].length ≤ 3) ∧
    (Tiling 10 [⟨0, 4⟩, ⟨4, 4⟩, ⟨8, 2⟩] ∧ ∀ span ∈ [(⟨0, 4⟩ : Span), ⟨4, 4⟩, ⟨8, 2⟩], 2 ∣ span.start) ∧
    Tiling 10 [⟨0, 2⟩, ⟨2, 1⟩, ⟨3, 7⟩] := by
  have bounded : 10 < Word.limit := by decide
  obtain ⟨byCount, aligned, byDegree, -⟩ := tiling_of_cut ⟨3, by decide, by decide⟩ bounded
  have sized := byCount (some 5) [⟨0, 5⟩, ⟨5, 5⟩] (by decide)
  have even := aligned 2 [⟨0, 4⟩, ⟨4, 4⟩, ⟨8, 2⟩] (by decide)
  have weighed := byDegree 30 (fun node => .ok (if node = 2 then 21 else 1)) none
    [⟨⟨0, 2⟩, 2⟩, ⟨⟨2, 1⟩, 21⟩, ⟨⟨3, 7⟩, 7⟩] (by decide)
  exact ⟨bounded, ⟨sized.1, sized.2.1⟩, ⟨even.1, even.2.2⟩, weighed⟩

end Partition
end BulkSync
