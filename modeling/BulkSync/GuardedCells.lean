import BulkSync.Paged.Cells

/-!
# Guarded cells

Each cell holds a number that is not negative, and can be locked. While it is locked it holds the
complement of the number, which is negative, so that the sign tells the two states apart and zero can
be locked like any other number. Locking a cell yields a `Guard`; releasing the guard unlocks the
cell, and a guard that is forgotten leaves it locked for ever.
-/

namespace BulkSync

/-- Numbers that can be locked one by one. -/
structure GuardedCells where
  cells : Cells Int64

/-- The right to release a locked cell, with the number that was in it. -/
structure Guard where
  index : Nat
  value : Int64
  deriving DecidableEq

namespace GuardedCells

/-- What is said of a cell that someone else has locked. -/
def contendedMessage : String := "slot is locked by another thread"

/-- Unlocked cells of one number. -/
def filled (size : Nat) (initial : Int64) : GuardedCells := ⟨Cells.filled size initial⟩

/-- Unlocked cells of one number, which must not be negative. -/
def new (size : Nat) (initial : Int64) : Except Fault GuardedCells :=
  if initial < 0 then .error .negativeGuarded else .ok (filled size initial)

/-- The number of cells. -/
def size (g : GuardedCells) : Nat := g.cells.size

/-- The raw number in a cell. -/
def raw (g : GuardedCells) (index : Nat) : Except Fault Int64 :=
  (g.cells.read index).mapError .access

/-- The number in a cell, unless it is locked. -/
def load (g : GuardedCells) (index : Nat) : Except Fault (Option Int64) := do
  let raw ← g.raw index
  return if raw < 0 then none else some raw

/-- Whether a cell is locked. -/
def isLocked (g : GuardedCells) (index : Nat) : Except Fault Bool := do
  let raw ← g.raw index
  return decide (raw < 0)

/-- Locks a cell in which a number was seen; no guard if it was seen locked, or holds another number by
now. -/
def lockSeen (g : GuardedCells) (index : Nat) (seen : Int64) :
    Except Fault (Option Guard × GuardedCells) :=
  if seen < 0 then return (none, g)
  else do
    let (witness, cells) ← (g.cells.compareExchange index seen (~~~seen)).mapError .access
    if witness = seen then return (some ⟨index, seen⟩, ⟨cells⟩)
    else return (none, ⟨cells⟩)

/-- Locks a cell; no guard if it is locked already. -/
def tryLock (g : GuardedCells) (index : Nat) : Except Fault (Option Guard × GuardedCells) := do
  let current ← g.raw index
  g.lockSeen index current

/-- The end of a guard. While it is armed, its cell is unlocked with the number that was in it. -/
def letGo (g : GuardedCells) (guard : Guard) (armed : Bool) : GuardedCells :=
  if armed then ⟨g.cells.poke guard.index guard.value⟩ else g

/-- Unlocks a cell with the number that was in it. -/
def unlock (g : GuardedCells) (guard : Guard) : GuardedCells := g.letGo guard true

/-- Unlocks a cell with another number; one that is negative is refused, and the old one put
back. -/
def unlockWith (guard : Guard) (value : Int64) : Attempt GuardedCells Unit :=
  Attempt.of fun g =>
    -- a number is refused in front of disarming the guard
    if value < 0 then (.error .negativeGuarded, g.letGo guard true)
    else (.ok (), letGo ⟨g.cells.poke guard.index value⟩ guard false)

end GuardedCells
end BulkSync
