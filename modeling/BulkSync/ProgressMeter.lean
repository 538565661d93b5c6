import BulkSync.Word

/-!
# Progress meters

A meter counts finished units of work of a task, and computes a percentage whenever the count passes
a tenth of the volume. The count wraps around; the arithmetic of the percentage is checked.
-/

namespace BulkSync

/-- The units of work of a task that are done, out of a volume. -/
structure ProgressMeter where
  task : String
  volume : Nat
  done : Nat
  deriving DecidableEq

namespace ProgressMeter

/-- A meter at which nothing is done yet. -/
def new (task : String) (volume : Nat) : ProgressMeter := ⟨task, volume, 0⟩

/-- The arithmetic behind a report, for `amount` more units after `done`: the percentage is computed
when another tenth of the volume is passed. -/
def percentage (volume done amount : Nat) : Except Fault (Option Nat) := do
  if volume = 0 then return none
  let step := max (volume / 10) 1
  let after ← Word.add? done amount
  if done / step = after / step then return none
  return some ((← Word.mul? (min after volume) 100) / volume)

/-- Counts more units. They stay counted if the percentage cannot be computed. -/
def log (amount : Nat) : Attempt ProgressMeter Unit :=
  Attempt.of fun m =>
    ((percentage m.volume m.done amount).map fun _ => (),
      { m with done := (m.done + amount) % Word.limit })

/-- Starts counting anew. -/
def reset (m : ProgressMeter) : ProgressMeter := { m with done := 0 }

end ProgressMeter
end BulkSync
