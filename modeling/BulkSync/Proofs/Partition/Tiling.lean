import BulkSync.Engine.Run
import BulkSync.Proofs.Fault

/-! # Runs that tile the node ids

Every way of cutting the ids `0 .. n - 1` yields runs that lie one behind the other without a gap and
of which none is empty (`Span.Tile`). A walk over the runs is therefore a walk over the ids
(`Tile.flatMap_toList`), whatever the cut: this is what a superstep relies on. -/

namespace BulkSync

namespace Span

theorem nodup_toList (s : Span) : s.toList.Nodup := List.nodup_range'

/-- Runs one behind the other from a start to a stop, none of them empty. -/
inductive Tile : Nat → List Span → Nat → Prop
  | nil (start : Nat) : Tile start [] start
  | cons {span : Span} {spans : List Span} {stop : Nat} (positive : 0 < span.count)
      (rest : Tile (span.start + span.count) spans stop) : Tile span.start (span :: spans) stop

theorem Tile.start_le {start stop : Nat} {spans : List Span} (tile : Tile start spans stop) :
    start ≤ stop := by
  induction tile with
  | nil start => exact Nat.le_refl start
  | cons positive rest inductionHypothesis => omega

/-- A walk over the runs is a walk over the ids. -/
theorem Tile.flatMap_toList {start stop : Nat} {spans : List Span} (tile : Tile start spans stop) :
    spans.flatMap toList = List.range' start (stop - start) := by
  induction tile with
  | nil start => simp
  | @cons span spans stop positive rest inductionHypothesis =>
    have order := rest.start_le
    rw [List.flatMap_cons, inductionHypothesis, toList, List.range'_append_1]
    congr 1
    omega

theorem Tile.lt_of_mem {start stop : Nat} {spans : List Span} (tile : Tile start spans stop) {span : Span}
    (run : span ∈ spans) {id : Nat} (member : id ∈ span.toList) : id < stop := by
  have walked : id ∈ spans.flatMap toList := List.mem_flatMap.mpr ⟨span, run, member⟩
  rw [tile.flatMap_toList, List.mem_range'_1] at walked
  omega

end Span

namespace Partition

open BulkSync.Span (Tile)

variable {nodes batch : Nat}

theorem lt_of_lt_ceilDiv {index : Nat} (positive : 0 < batch) (inside : index < Word.ceilDiv nodes batch) :
    index * batch < nodes := by
  rw [Word.ceilDiv, if_neg (Nat.ne_of_gt positive), Nat.lt_iff_add_one_le,
    Nat.le_div_iff_mul_le positive, Nat.succ_mul] at inside
  omega

theorem le_ceilDiv_mul (positive : 0 < batch) : nodes ≤ Word.ceilDiv nodes batch * batch := by
  rw [Word.ceilDiv, if_neg (Nat.ne_of_gt positive)]
  have split := Nat.div_add_mod (nodes + batch - 1) batch
  have rest := Nat.mod_lt (nodes + batch - 1) positive
  rw [Nat.mul_comm] at split
  omega

theorem ceilDiv_le (positive : 0 < batch) : Word.ceilDiv nodes batch ≤ nodes := by
  rw [Word.ceilDiv, if_neg (Nat.ne_of_gt positive), Nat.div_le_iff_le_mul_add_pred positive]
  have grows := Nat.le_mul_of_pos_left nodes positive
  omega

theorem tile_chunksFrom (positive : 0 < batch) (first count : Nat)
    (all : first + count = Word.ceilDiv nodes batch) :
    Tile (min (first * batch) nodes)
      ((List.range' first count).map fun index => ⟨index * batch, min batch (nodes - index * batch)⟩)
      nodes := by
  induction count generalizing first with
  | zero =>
    have covered : nodes ≤ Word.ceilDiv nodes batch * batch := le_ceilDiv_mul positive
    rw [← all, Nat.add_zero] at covered
    rw [Nat.min_eq_right covered]
    exact .nil nodes
  | succ count inductionHypothesis =>
    have inside := lt_of_lt_ceilDiv positive (show first < Word.ceilDiv nodes batch by omega)
    have next := inductionHypothesis (first + 1) (by omega)
    have here : min (first * batch) nodes = first * batch := by omega
    have there : min ((first + 1) * batch) nodes =
        first * batch + min batch (nodes - first * batch) := by
      rw [Nat.succ_mul]
      omega
    rw [there] at next
    rw [here, List.range'_succ, List.map_cons]
    exact @Tile.cons ⟨first * batch, min batch (nodes - first * batch)⟩ _ _ (by dsimp only; omega) next

theorem tile_chunks (positive : 0 < batch) {spans : List Span}
    (cut : chunks nodes batch = .ok spans) : Tile 0 spans nodes := by
  obtain ⟨⟨⟩, _, made⟩ := bind_eq_ok_iff.mp cut
  cases made
  rw [List.range_eq_range']
  simpa using tile_chunksFrom positive 0 (Word.ceilDiv nodes batch) (by omega)

theorem batchSize_pos (concurrency nodes : Nat) (least : Option Nat) :
    0 < batchSize concurrency nodes least := by
  rw [batchSize]
  omega

/-- The open run takes its first node whatever its degree, so that no run is empty. -/
theorem tile_cutFrom (target start count weight : Nat) (degrees : List Nat)
    (some : 0 < count + degrees.length) :
    Tile start ((cutFrom target start count weight degrees).map (·.span))
      (start + (count + degrees.length)) := by
  induction degrees generalizing start count weight with
  | nil => exact @Tile.cons ⟨start, count⟩ _ _ some (.nil _)
  | cons degree degrees inductionHypothesis =>
    rw [cutFrom]
    split
    · next full =>
      have rest := inductionHypothesis (start + count) 1 (Word.satAdd 0 degree) (by omega)
      rw [show start + count + (1 + degrees.length) = start + (count + (degrees.length + 1)) by omega]
        at rest
      exact @Tile.cons ⟨start, count⟩ _ _ full.1 rest
    · have rest := inductionHypothesis start (count + 1) (Word.satAdd weight degree) (by omega)
      rw [List.length_cons, ← show count + 1 + degrees.length = count + (degrees.length + 1) by omega]
      exact rest

theorem tile_cut (target : Nat) (degrees : List Nat) :
    Tile 0 ((cut target degrees).map (·.span)) degrees.length := by
  cases degrees with
  | nil => exact .nil 0
  | cons degree degrees =>
    have tile := tile_cutFrom target 0 0 0 (degree :: degrees) (by simp)
    rw [Nat.zero_add, Nat.zero_add] at tile
    exact tile

theorem length_mapM {α β : Type} {f : α → Except Fault β} {items : List α} {results : List β}
    (mapped : items.mapM f = .ok results) : results.length = items.length := by
  induction items generalizing results with
  | nil =>
    cases mapped
    rfl
  | cons item items inductionHypothesis =>
    rw [List.mapM_cons] at mapped
    obtain ⟨result, _, rest⟩ := bind_eq_ok_iff.mp mapped
    obtain ⟨others, mappedRest, done⟩ := bind_eq_ok_iff.mp rest
    cases done
    rw [List.length_cons, List.length_cons, inductionHypothesis mappedRest]

theorem tile_byDegreeM {nodes total concurrency : Nat} {degree : Nat → Except Fault Nat}
    {least : Option Nat} {spans : List WeighedSpan}
    (cuts : byDegreeM nodes total degree concurrency least = .ok spans) :
    Tile 0 (spans.map (·.span)) nodes := by
  rw [byDegreeM] at cuts
  split at cuts
  · next none =>
    cases cuts
    rw [none]
    exact .nil 0
  · obtain ⟨⟨⟩, _, counted⟩ := bind_eq_ok_iff.mp cuts
    obtain ⟨degrees, mapped, made⟩ := bind_eq_ok_iff.mp counted
    cases made
    have sized := length_mapM mapped
    rw [List.length_range] at sized
    rw [← sized]
    exact tile_cut _ degrees

end Partition

/-- The tasks of a run go over all nodes, each once, whatever the configuration. -/
theorem Engine.tile_spans {γ M : Type} [GraphView γ] {e : Engine γ M} {spans : List Span}
    (cut : e.spans = .ok spans) : Span.Tile 0 spans (GraphView.nodeCount e.graph) := by
  have byDegrees : ∀ least, (Partition.byDegrees e.graph e.config.concurrency.workers least >>=
      fun weighed => pure (weighed.map (·.span))) = Except.ok spans →
        Span.Tile 0 spans (GraphView.nodeCount e.graph) := by
    intro least cut
    obtain ⟨weighed, cuts, made⟩ := bind_eq_ok_iff.mp cut
    cases made
    exact Partition.tile_byDegreeM cuts
  have byCount : ∀ least, Partition.byCount e.config.concurrency.workers
      (GraphView.nodeCount e.graph) least = .ok spans →
        Span.Tile 0 spans (GraphView.nodeCount e.graph) :=
    fun least cut => Partition.tile_chunks (Partition.batchSize_pos _ _ _) cut
  rw [Engine.spans] at cut
  cases kind : e.config.partitioning with
  | range => exact byCount _ (by simpa [kind] using cut)
  | degree => exact byDegrees _ (by simpa [kind] using cut)
  | auto =>
    by_cases any : 0 < GraphView.edgeCount e.graph
    · exact byDegrees _ (by simpa [kind, any] using cut)
    · exact byCount _ (by simpa [kind, any] using cut)

end BulkSync
