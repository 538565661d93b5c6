import BulkSync.Partition.Span

/-!
# Cutting the node ids into runs

The ids `0 .. n - 1` are cut into runs of one size (`byCount`), into runs that start at multiples of
a number (`aligned`), or greedily into runs whose degrees add up to at most a target (`byDegree`).
In every case the runs follow one another without a gap.
-/

namespace BulkSync.Partition

/-- Runs of `batch` ids, the last one as long as it takes. -/
def chunks (nodes batch : Nat) : Except Fault (List Span) := do
  let count := Word.ceilDiv nodes batch
  Word.reserve count Span.entryBytes
  return (List.range count).map fun i => ⟨i * batch, min batch (nodes - i * batch)⟩

/-- The size of the runs for `concurrency` workers, no smaller than asked for. -/
def batchSize (concurrency nodes : Nat) (least : Option Nat) : Nat :=
  max (max (Word.ceilDiv nodes concurrency) (least.getD 1)) 1

/-- At most one run per worker, each but the last of one size. -/
def byCount (concurrency nodes : Nat) (least : Option Nat) : Except Fault (List Span) :=
  chunks nodes (batchSize concurrency nodes least)

/-- At most one run per worker, each starting at a multiple of `align`. -/
def aligned (concurrency nodes align : Nat) : Except Fault (List Span) := do
  if align = 0 then throw .zeroAlignment
  let share := Word.ceilDiv nodes concurrency
  let batch ← Word.mul? (max (Word.ceilDiv share align) 1) align
  chunks nodes batch

/-! ## By degree -/

/-- The greatest sum of degrees that a run of more than one node may have. -/
def targetWeight (concurrency total : Nat) (least : Option Nat) : Nat :=
  max (max (Word.ceilDiv total concurrency) (least.getD 1)) 1

/-- Cuts in front of a node whose degree would take the run beyond the target, unless the run is
still empty. The run that is open starts at `start` and has `count` nodes of weight `weight`. -/
def cutFrom (target : Nat) : Nat → Nat → Nat → List Nat → List WeighedSpan
  | start, count, weight, [] => [⟨⟨start, count⟩, weight⟩]
  | start, count, weight, degree :: degrees =>
      -- a run takes its first node whatever its degree
      if 0 < count ∧ target < Word.satAdd weight degree then
        ⟨⟨start, count⟩, weight⟩ :: cutFrom target (start + count) 1 (Word.satAdd 0 degree) degrees
      else cutFrom target start (count + 1) (Word.satAdd weight degree) degrees

/-- The greedy cut of nodes with these degrees. -/
def cut (target : Nat) (degrees : List Nat) : List WeighedSpan :=
  if degrees.isEmpty then [] else cutFrom target 0 0 0 degrees

/-- Runs of about equal degree, where node `i` has degree `degree i` and the degrees are said to add
up to `total`. -/
def byDegreeM (nodes total : Nat) (degree : Nat → Except Fault Nat) (concurrency : Nat)
    (least : Option Nat) : Except Fault (List WeighedSpan) := do
  if nodes = 0 then return []
  Word.reserve concurrency WeighedSpan.entryBytes
  let degrees ← (List.range nodes).mapM degree
  return cut (targetWeight concurrency total least) degrees

/-- Runs of about equal degree, for degrees that are known. -/
def byDegree (nodes total : Nat) (degree : Nat → Nat) (concurrency : Nat) (least : Option Nat) :
    Except Fault (List WeighedSpan) :=
  byDegreeM nodes total (fun node => .ok (degree node)) concurrency least

end BulkSync.Partition
