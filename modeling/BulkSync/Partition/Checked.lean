import BulkSync.Partition.Cut

/-!
# Cutting in 64 bits

The cuts once more, with every sum and product checked: a division that rounds up adds one to its
quotient, and the loops step from the start of one run to the start of the next.
-/

namespace BulkSync.Partition

/-- Runs of `batch` ids from a start on; the stop of a run is the start of the next. -/
def runsFrom (nodes batch start : Nat) : Except Fault (List Span) :=
  if _some : start < nodes ∧ 0 < batch then
    match _stops : Word.add? start (min batch (nodes - start)) with
    | .ok stop => (runsFrom nodes batch stop).map (⟨start, min batch (nodes - start)⟩ :: ·)
    | .error fault => .error fault
  else .ok []
termination_by nodes - start
decreasing_by
  rw [Word.add?] at _stops
  split at _stops
  · cases _stops
    omega
  · cases _stops

/-- Runs of `batch` ids, as many as the rounded quotient says. -/
def chunks? (nodes batch : Nat) : Except Fault (List Span) := do
  let count ← Word.ceilDiv? nodes batch
  Word.reserve count Span.entryBytes
  runsFrom nodes batch 0

/-- At most one run per worker, each but the last of one size. -/
def byCount? (concurrency nodes : Nat) (least : Option Nat) : Except Fault (List Span) := do
  let share ← Word.ceilDiv? nodes concurrency
  chunks? nodes (max (max share (least.getD 1)) 1)

/-- At most one run per worker, each starting at a multiple of `align`. -/
def aligned? (concurrency nodes align : Nat) : Except Fault (List Span) := do
  if align = 0 then throw .zeroAlignment
  let share ← Word.ceilDiv? nodes concurrency
  let pieces ← Word.ceilDiv? share align
  let batch ← Word.mul? (max pieces 1) align
  chunks? nodes batch

/-! ## By degree -/

/-- The greedy cut: the sums of degrees are saturating, the starts and lengths of the runs are not. -/
def cutFrom? (target : Nat) : Nat → Nat → Nat → List Nat → Except Fault (List WeighedSpan)
  | start, count, weight, [] => .ok [⟨⟨start, count⟩, weight⟩]
  | start, count, weight, degree :: degrees => do
      if 0 < count ∧ target < Word.satAdd weight degree then
        let stop ← Word.add? start count
        let rest ← cutFrom? target stop 1 (Word.satAdd 0 degree) degrees
        return ⟨⟨start, count⟩, weight⟩ :: rest
      else
        let longer ← Word.add? count 1
        cutFrom? target start longer (Word.satAdd weight degree) degrees

/-- Runs of about equal degree, for degrees that are known. -/
def byDegree? (nodes total : Nat) (degree : Nat → Nat) (concurrency : Nat) (least : Option Nat) :
    Except Fault (List WeighedSpan) := do
  if nodes = 0 then return []
  let share ← Word.ceilDiv? total concurrency
  Word.reserve concurrency WeighedSpan.entryBytes
  cutFrom? (max (max share (least.getD 1)) 1) 0 0 0 ((List.range nodes).map degree)

end BulkSync.Partition
