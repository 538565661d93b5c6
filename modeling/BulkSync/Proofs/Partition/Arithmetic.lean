import BulkSync.Partition.Checked
import BulkSync.Proofs.Partition.Pieces

/-! # Cutting in 64 bits

The cuts are defined on numbers of any size, and once more by sums and products of 64 bits that fail where the result
does not fit. Both come to the same (`chunks?_eq`, `cutFrom?_eq`), so that a cut by count or by degree never leaves the
64 bits. A cut along an alignment does so in one place, where the size of its runs is rounded up to a multiple
(`arithmetic_of_cut`, `aligned_overflows`). -/

namespace BulkSync

namespace Word

theorem ceilDiv?_eq {a b : Nat} (positive : 0 < b) (bounded : a < limit) : ceilDiv? a b = .ok (ceilDiv a b) := by
  rw [ceilDiv?, ceilDiv, if_neg (Nat.ne_of_gt positive)]
  split
  · next whole =>
    obtain ⟨pieces, rfl⟩ := Nat.dvd_of_mod_eq_zero whole
    rw [Nat.mul_div_cancel_left _ positive, Nat.add_sub_assoc positive, Nat.mul_add_div positive,
      Nat.div_eq_of_lt (by omega), Nat.add_zero]
  · next rest =>
    -- with a rest the size is at least two, so the quotient is smaller than the number
    have split := Nat.div_add_mod a b
    have below := Nat.mod_lt a positive
    have rounded : (a + b - 1) / b = a / b + 1 := by
      have shifted : a + b - 1 = b * (a / b + 1) + (a % b - 1) := by
        rw [Nat.mul_succ]
        omega
      rw [shifted, Nat.mul_add_div positive, Nat.div_eq_of_lt (show a % b - 1 < b by omega), Nat.add_zero]
    have smaller : a / b + 1 ≤ a := by
      have quotient : a / b ≤ b * (a / b) := Nat.le_mul_of_pos_left _ positive
      omega
    rw [rounded, add?, if_pos (by omega)]

end Word

/-- A run whose bounds are counts of 64 bits. -/
structure Span.Bounded (span : Span) : Prop where
  stop : span.stop = .ok (span.start + span.count)
  range : span.range = .ok (span.start, span.start + span.count)
  contains : ∀ node, span.contains node = .ok (decide (span.start ≤ node ∧ node < span.start + span.count))

namespace Partition

open BulkSync.Span (Tile)

variable {nodes batch : Nat}

/-! ## By count -/

theorem runsFrom_step {start : Nat} (inside : start < nodes) (positive : 0 < batch) (bounded : nodes < Word.limit) :
    runsFrom nodes batch start =
      (runsFrom nodes batch (start + min batch (nodes - start))).map (⟨start, min batch (nodes - start)⟩ :: ·) := by
  have fits : Word.add? start (min batch (nodes - start)) = .ok (start + min batch (nodes - start)) :=
    if_pos (by omega)
  rw [runsFrom, dif_pos ⟨inside, positive⟩]
  split
  · next stop stops =>
    rw [fits] at stops
    cases stops
    rfl
  · next fault fails =>
    rw [fits] at fails
    cases fails

/-- The loop makes one run for each index that is left. -/
theorem runsFrom_eq (positive : 0 < batch) (bounded : nodes < Word.limit) (first count : Nat)
    (all : first + count = Word.ceilDiv nodes batch) :
    runsFrom nodes batch (min (first * batch) nodes) =
      .ok ((List.range' first count).map fun index => ⟨index * batch, min batch (nodes - index * batch)⟩) := by
  induction count generalizing first with
  | zero =>
    -- as many runs as the rounded quotient says leave no id
    have covered : nodes ≤ Word.ceilDiv nodes batch * batch := le_ceilDiv_mul positive
    rw [← all, Nat.add_zero] at covered
    rw [Nat.min_eq_right covered, runsFrom, dif_neg (by omega)]
    rfl
  | succ count inductionHypothesis =>
    have inside : first * batch < nodes := lt_of_lt_ceilDiv positive (by omega)
    have there : min ((first + 1) * batch) nodes = first * batch + min batch (nodes - first * batch) := by
      rw [Nat.succ_mul]
      omega
    rw [Nat.min_eq_left (Nat.le_of_lt inside), runsFrom_step inside positive bounded, ← there,
      inductionHypothesis (first + 1) (by omega), List.range'_succ]
    rfl

theorem chunks?_eq (positive : 0 < batch) (bounded : nodes < Word.limit) : chunks? nodes batch = chunks nodes batch := by
  have runs := runsFrom_eq positive bounded 0 _ (Nat.zero_add _)
  rw [Nat.zero_mul, Nat.zero_min] at runs
  rw [chunks?, chunks, Word.ceilDiv?_eq positive bounded, runs, List.range_eq_range']
  rfl

/-! ## By degree -/

theorem cutFrom?_eq (target start count weight : Nat) (degrees : List Nat)
    (bounded : start + (count + degrees.length) < Word.limit) :
    cutFrom? target start count weight degrees = .ok (cutFrom target start count weight degrees) := by
  induction degrees generalizing start count weight with
  | nil => rfl
  | cons degree degrees inductionHypothesis =>
    rw [List.length_cons] at bounded
    have stop : Word.add? start count = .ok (start + count) := if_pos (by omega)
    have longer : Word.add? count 1 = .ok (count + 1) := if_pos (by omega)
    rw [cutFrom?, cutFrom]
    split
    · rw [stop]
      simp only [bind, Except.bind]
      rw [inductionHypothesis _ _ _ (by omega)]
      rfl
    · rw [longer]
      exact inductionHypothesis _ _ _ (by omega)

/-! ## Failures and bounds -/

/-- A cut that fails in these ways only, and whose runs have their bounds in 64 bits. -/
structure Fits (failures : List Fault) (made : Except Fault (List Span)) : Prop where
  fails : ∀ fault, made = .error fault → fault ∈ failures
  bounded : ∀ spans, made = .ok spans → ∀ span ∈ spans, span.Bounded

theorem bounded_of_tile (bounded : nodes < Word.limit) {spans : List Span} (tile : Tile 0 spans nodes) :
    ∀ span ∈ spans, span.Bounded := by
  intro span member
  have within := (tile.inside span member).2
  have stop : span.stop = .ok (span.start + span.count) := if_pos (by omega)
  refine ⟨stop, ?_, fun node => ?_⟩
  · rw [Span.range, stop]
    rfl
  · rw [Span.contains, stop]
    split
    · next before => simp [Nat.not_le.mpr before, pure, Except.pure]
    · next behind => simp [Nat.not_lt.mp behind, bind, Except.bind, pure, Except.pure]

theorem fails_reserve {count bytes : Nat} {fault : Fault} (failed : Word.reserve count bytes = .error fault) :
    fault = .capacityOverflow := by
  rw [Word.reserve] at failed
  split at failed
  · cases failed
  · exact (Except.error.inj failed).symm

theorem fails_chunks {fault : Fault} (failed : chunks nodes batch = .error fault) : fault = .capacityOverflow := by
  rw [chunks] at failed
  cases reserved : Word.reserve (Word.ceilDiv nodes batch) Span.entryBytes with
  | ok _ =>
    rw [reserved] at failed
    cases failed
  | error other =>
    rw [reserved] at failed
    cases failed
    exact fails_reserve reserved

theorem fits_byCount (concurrency : Nat) (bounded : nodes < Word.limit) (least : Option Nat) :
    Fits [.capacityOverflow] (byCount concurrency nodes least) where
  fails _ failed := List.mem_singleton.mpr (fails_chunks failed)
  bounded _ made := bounded_of_tile bounded (tile_chunks (batchSize_pos concurrency nodes least) made)

theorem fits_byDegree (concurrency total : Nat) (bounded : nodes < Word.limit) (degree : Nat → Nat)
    (least : Option Nat) :
    Fits [.capacityOverflow] ((byDegree nodes total degree concurrency least).map (List.map (·.span))) where
  fails fault failed := by
    rw [byDegree, byDegreeM, mapM_eq_ok fun _ _ => rfl] at failed
    split at failed
    · cases failed
    · cases reserved : Word.reserve concurrency WeighedSpan.entryBytes with
      | ok _ =>
        rw [reserved] at failed
        cases failed
      | error other =>
        rw [reserved] at failed
        cases failed
        exact List.mem_singleton.mpr (fails_reserve reserved)
  bounded spans made := by
    cases cuts : byDegree nodes total degree concurrency least with
    | ok weighed =>
      rw [cuts] at made
      cases made
      exact bounded_of_tile bounded (tile_byDegreeM cuts)
    | error fault =>
      rw [cuts] at made
      cases made

/-- The size of the runs along an alignment. -/
theorem aligned_eq {concurrency align : Nat} (positive : 0 < align) :
    aligned concurrency nodes align =
      (Word.mul? (max (nodes ⌈/⌉ concurrency ⌈/⌉ align) 1) align >>= fun batch => chunks nodes batch) := by
  rw [aligned, if_neg (Nat.ne_of_gt positive), ← ceilDiv_eq, ← ceilDiv_eq]

theorem aligned_overflows_iff {concurrency align : Nat} (positive : 0 < align) :
    aligned concurrency nodes align = .error .multiplicationOverflow ↔
      Word.limit ≤ max (nodes ⌈/⌉ concurrency ⌈/⌉ align) 1 * align := by
  rw [aligned_eq positive, Word.mul?]
  split
  · next fits =>
    refine iff_of_false (fun failed => ?_) (Nat.not_le.mpr fits)
    cases fails_chunks failed
  · next large => exact iff_of_true rfl (Nat.not_lt.mp large)

theorem fits_aligned (concurrency : Nat) {align : Nat} (positive : 0 < align) (bounded : nodes < Word.limit) :
    Fits [.multiplicationOverflow, .capacityOverflow] (aligned concurrency nodes align) where
  fails fault failed := by
    rw [aligned_eq positive, Word.mul?] at failed
    split at failed
    · simp [fails_chunks failed]
    · cases failed
      simp
  bounded spans made := by
    obtain ⟨batch, cuts, some, _⟩ := aligned_ok made
    exact bounded_of_tile bounded (tile_chunks some cuts)

/-! ## Every cut -/

theorem byCount?_eq (c : Concurrency) (bounded : nodes < Word.limit) (least : Option Nat) :
    byCount? c.workers nodes least = byCount c.workers nodes least := by
  rw [byCount?, Word.ceilDiv?_eq c.positive bounded]
  exact chunks?_eq (batchSize_pos c.workers nodes least) bounded

theorem aligned?_eq (c : Concurrency) (bounded : nodes < Word.limit) (align : Nat) :
    aligned? c.workers nodes align = aligned c.workers nodes align := by
  rw [aligned?, aligned]
  split
  · rfl
  · next some =>
    have positive : 0 < align := Nat.pos_of_ne_zero some
    have share : Word.ceilDiv nodes c.workers < Word.limit := Nat.lt_of_le_of_lt (ceilDiv_le c.positive) bounded
    simp only [Word.ceilDiv?_eq c.positive bounded, Word.ceilDiv?_eq positive share, bind, Except.bind]
    -- the one product that the model checks too
    by_cases fits : max (Word.ceilDiv (Word.ceilDiv nodes c.workers) align) 1 * align < Word.limit
    · simp only [Word.mul?, if_pos fits]
      exact chunks?_eq (Nat.mul_pos (by omega) positive) bounded
    · simp only [Word.mul?, if_neg fits]

theorem byDegree?_eq (c : Concurrency) {total : Nat} (bounded : nodes < Word.limit) (sum : total < Word.limit)
    (degree : Nat → Nat) (least : Option Nat) :
    byDegree? nodes total degree c.workers least = byDegree nodes total degree c.workers least := by
  rw [byDegree?, byDegree, byDegreeM, mapM_eq_ok fun _ _ => rfl, Word.ceilDiv?_eq c.positive sum]
  split
  · rfl
  · next some =>
    have cuts : cut (targetWeight c.workers total least) ((List.range nodes).map degree) =
        cutFrom (targetWeight c.workers total least) 0 0 0 ((List.range nodes).map degree) := by
      rw [cut, if_neg (by simp [some])]
    have counted : 0 + (0 + ((List.range nodes).map degree).length) < Word.limit := by
      rw [List.length_map, List.length_range]
      omega
    change (Word.reserve c.workers WeighedSpan.entryBytes >>= fun _ => cutFrom? _ 0 0 0 _) =
      (Word.reserve c.workers WeighedSpan.entryBytes >>= fun _ => .ok (cut _ _))
    rw [cuts, ← cutFrom?_eq _ _ _ _ _ counted]
    rfl

/-- Cut by count or by degree, the ids are cut in 64 bits, and the bounds of the runs are counts of 64 bits; only a list
of runs that is too long fails. Along an alignment that is so as long as the size of the runs can be rounded up to a
multiple of it. -/
theorem arithmetic_of_cut (c : Concurrency) (bounded : nodes < Word.limit) :
    (∀ least, byCount? c.workers nodes least = byCount c.workers nodes least ∧
      Fits [.capacityOverflow] (byCount c.workers nodes least)) ∧
    (∀ total < Word.limit, ∀ (degree : Nat → Nat) least,
      byDegree? nodes total degree c.workers least = byDegree nodes total degree c.workers least ∧
      Fits [.capacityOverflow] ((byDegree nodes total degree c.workers least).map (List.map (·.span)))) ∧
    ∀ align > 0, aligned? c.workers nodes align = aligned c.workers nodes align ∧
      Fits [.multiplicationOverflow, .capacityOverflow] (aligned c.workers nodes align) ∧
      (aligned c.workers nodes align = .error .multiplicationOverflow ↔
        Word.limit ≤ max (nodes ⌈/⌉ c.workers ⌈/⌉ align) 1 * align) := by
  refine ⟨fun least => ⟨byCount?_eq c bounded least, fits_byCount c.workers bounded least⟩,
    fun total sum degree least => ⟨byDegree?_eq c bounded sum degree least, ?_⟩, fun align positive => ?_⟩
  · exact fits_byDegree c.workers total bounded degree least
  · exact ⟨aligned?_eq c bounded align, fits_aligned c.workers positive bounded, aligned_overflows_iff positive⟩

/-- As many ids as there are counts, in two runs of which the second one ends at the greatest count; and three nodes of
the greatest degree. -/
theorem arithmetic_of_cut_top :
    18446744073709551615 < Word.limit ∧
      byCount? 2 18446744073709551615 none =
        .ok [⟨0, 9223372036854775808⟩, ⟨9223372036854775808, 9223372036854775807⟩] ∧
      Span.stop ⟨9223372036854775808, 9223372036854775807⟩ = .ok 18446744073709551615 ∧
      byDegree? 3 18446744073709551615 (fun _ => 18446744073709551615) 2 none =
        .ok [⟨⟨0, 1⟩, 18446744073709551615⟩, ⟨⟨1, 1⟩, 18446744073709551615⟩, ⟨⟨2, 1⟩, 18446744073709551615⟩] ∧
      aligned? 2 18446744073709551615 8 =
        .ok [⟨0, 9223372036854775808⟩, ⟨9223372036854775808, 9223372036854775807⟩] := by
  have bounded : 18446744073709551615 < Word.limit := by decide
  obtain ⟨byCount, -, along⟩ := arithmetic_of_cut ⟨2, by decide, by decide⟩ bounded
  obtain ⟨-, byDegree, -⟩ := arithmetic_of_cut ⟨2, by decide, by decide⟩ (show 3 < Word.limit by decide)
  have cut : Partition.byCount 2 18446744073709551615 none =
      .ok [⟨0, 9223372036854775808⟩, ⟨9223372036854775808, 9223372036854775807⟩] := by decide
  have bounds := (byCount none).2.bounded _ cut ⟨9223372036854775808, 9223372036854775807⟩ (by decide)
  refine ⟨bounded, (byCount none).1.trans cut, bounds.stop, ?_, ?_⟩
  · exact (byDegree 18446744073709551615 bounded _ none).1.trans (by decide)
  · exact (along 8 (by decide)).1.trans (by decide)

/-- A single worker takes all ids in one run, but not along an alignment: the size of the run has no multiple left to be
rounded up to. -/
theorem aligned_overflows :
    18446744073709551615 < Word.limit ∧ 2 ≠ 0 ∧
      aligned Concurrency.single.workers 18446744073709551615 2 = .error .multiplicationOverflow := by
  decide

end Partition
end BulkSync
