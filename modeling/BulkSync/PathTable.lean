import BulkSync.GuardedCells

/-!
# Tables of shortest paths

For each node the table keeps the least distance offered so far, the predecessor it was offered from,
and the number of hops. The number of hops is guarded: a change locks it, writes the other two fields
and releases it, so that the three fields always come from one call.
-/

namespace BulkSync

/-- The best path known to each node. -/
structure PathTable where
  distances : Cells Binary64
  predecessors : Cells UInt64
  hops : GuardedCells

namespace PathTable

/-- What stands for "no predecessor". -/
def noPredecessor : UInt64 := UInt64.ofNat (UInt64.size - 1)

/-- A table in which no node has been reached. -/
def new (nodes : Nat) : PathTable where
  distances := Cells.filled nodes (Binary.infinite false)
  predecessors := Cells.filled nodes noPredecessor
  hops := GuardedCells.filled nodes Int64.maxValue

/-- The number of nodes. -/
def nodeCount (t : PathTable) : Nat := t.distances.size

/-- The distance of a node. -/
def distance (t : PathTable) (node : Nat) : Except Fault Binary64 :=
  (t.distances.read node).mapError .access

/-- The predecessor of a node, if it has one. -/
def predecessor (t : PathTable) (node : Nat) : Except Fault (Option Nat) := do
  let p ← (t.predecessors.read node).mapError .access
  return if p = noPredecessor then none else some p.toNat

/-- The number of hops to a node, unless the node is locked. -/
def hopsTo (t : PathTable) (node : Nat) : Except Fault (Option Int64) := t.hops.load node

/-- The fields of a node. -/
structure Entry where
  distance : Binary64
  predecessor : UInt64
  hops : Int64
  deriving DecidableEq

namespace Entry

/-- The fields of a node that has not been reached. -/
def unreached : Entry := ⟨Binary.infinite false, noPredecessor, Int64.maxValue⟩

/-- The fields of a source. -/
def source : Entry := ⟨default, noPredecessor, 0⟩

end Entry

/-! ## Steps of a change

Each step may fail, and a failure keeps what the steps in front of it have written. -/

/-- Locks a node; no guard if someone else has locked it. -/
def lock (node : Nat) : Attempt PathTable (Option Guard) :=
  Attempt.of fun t =>
    match t.hops.tryLock node with
    | .ok (guard, hops) => (.ok guard, { t with hops := hops })
    | .error fault => (.error fault, t)

/-- Unlocks a node as it was locked. -/
def unlock (guard : Guard) : Attempt PathTable Unit :=
  Attempt.change fun t => { t with hops := t.hops.unlock guard }

/-- A step under a guard, the end of which unlocks the node if the step fails. -/
def under {α : Type} (guard : Guard) (step : Attempt PathTable α) : Attempt PathTable α :=
  Attempt.of fun t =>
    match step.outcome t with
    | (.ok a, t) => (.ok a, t)
    | (.error fault, t) => (.error fault, ((unlock guard).outcome t).2)

/-- Writes the distance of a node. -/
def writeDistance (node : Nat) (distance : Binary64) : Attempt PathTable Unit :=
  Attempt.replace fun t => do
    let distances ← (t.distances.write node distance).mapError .access
    return { t with distances := distances }

/-- Writes the predecessor of a node. -/
def writePredecessor (node : Nat) (predecessor : UInt64) : Attempt PathTable Unit :=
  Attempt.replace fun t => do
    let predecessors ← (t.predecessors.write node predecessor).mapError .access
    return { t with predecessors := predecessors }

/-- Unlocks a node with another number of hops. -/
def unlockWith (guard : Guard) (hops : Int64) : Attempt PathTable Unit :=
  Attempt.within (·.hops) (fun hops t => { t with hops := hops }) (GuardedCells.unlockWith guard hops)

/-- Writes the fields of a node that is locked under a guard, and unlocks it. -/
def publish (guard : Guard) (entry : Entry) : Attempt PathTable Unit := do
  under guard do
    writeDistance guard.index entry.distance
    writePredecessor guard.index entry.predecessor
  unlockWith guard entry.hops

/-- Fails for a negative number of hops. -/
def checkHops (hops : Int64) : Except Fault Unit :=
  if hops < 0 then .error (.negativeHops hops.toInt) else .ok ()

/-- Replaces the fields of a node if its distance is one to be replaced. Says whether it was and what
the distance has been; nothing if someone else has locked the node. -/
def replaceIf (node : Nat) (replaced : Binary64 → Bool) (entry : Entry) :
    Attempt PathTable (Option (Bool × Binary64)) := do
  Attempt.lift (checkHops entry.hops)
  match ← lock node with
  | none => return none
  | some guard =>
      let current ← under guard (Attempt.inspect (·.distance node))
      if replaced current then
        publish guard entry
        return some (true, current)
      else
        unlock guard
        return some (false, current)

/-! ## Changes -/

/-- Makes a node a source: distance zero, no predecessor, no hops. A node that someone else has
locked is left alone, for the caller to try again. -/
def markSource (node : Nat) : Attempt PathTable Unit := do
  match ← lock node with
  | some guard => publish guard .source
  | none => return ()

/-- The answer to an offer. -/
inductive Relaxation where
  | improved (previous : Binary64)
  | unimproved (current : Binary64)
  | contended
  deriving DecidableEq

/-- Offers a path to a node. It is refused if the distance held is at most the distance offered. -/
def offer (node : Nat) (entry : Entry) : Attempt PathTable Relaxation := do
  match ← replaceIf node (fun current => !current.atMost entry.distance) entry with
  | some (true, previous) => return .improved previous
  | some (false, current) => return .unimproved current
  | none => return .contended

/-- Offers a path to a node and says whether it was taken. -/
def improve (node : Nat) (entry : Entry) : Attempt PathTable Bool := do
  match ← offer node entry with
  | .improved _ => return true
  | .unimproved _ | .contended => return false

/-- The answer to an exchange. -/
inductive Exchange where
  | success (previous : Binary64)
  | failed (current : Binary64)
  | contended
  deriving DecidableEq

/-- Replaces the fields of a node if its distance has the bits of the one expected. -/
def exchange (node : Nat) (expected : Binary64) (entry : Entry) : Attempt PathTable Exchange := do
  match ← replaceIf node (fun current => decide (current = expected)) entry with
  | some (true, previous) => return .success previous
  | some (false, current) => return .failed current
  | none => return .contended

/-! ### Changes that succeed -/

/-- The table in which a node has been made a source. -/
def setSource (t : PathTable) (node : Nat) : Except Fault PathTable := do
  let ((), t) ← (markSource node).result t
  return t

/-- The answer to an offer, and the table behind it. -/
def tryRelax (t : PathTable) (node : Nat) (entry : Entry) : Except Fault (Relaxation × PathTable) :=
  (offer node entry).result t

/-- Whether an offer was taken, and the table behind it. -/
def relax (t : PathTable) (node : Nat) (entry : Entry) : Except Fault (Bool × PathTable) :=
  (improve node entry).result t

/-- The answer to an exchange, and the table behind it. -/
def compareExchange (t : PathTable) (node : Nat) (expected : Binary64) (entry : Entry) :
    Except Fault (Exchange × PathTable) := (exchange node expected entry).result t

/-! ## Paths -/

/-- Follows predecessors from `node`, putting each in front of the path; at most `budget` of them. -/
def follow (t : PathTable) : Nat → Nat → List Nat → Except Fault (Option (List Nat))
  | budget, node, path => do
      match ← t.predecessor node with
      | none => return some path
      | some p =>
          match budget with
          -- a longer path would come to some node twice
          | 0 => return none
          | budget + 1 => t.follow budget p (p :: path)

/-- The path to a node, from the first node without a predecessor on. There is none to a node at
infinite distance, and none if the predecessors run in a cycle: a path without repetition has no more
nodes than the table. -/
def pathTo (t : PathTable) (target : Nat) : Except Fault (Option (List Nat)) := do
  let distance ← t.distance target
  if distance.isInfinite then return none
  else t.follow (t.nodeCount - 1) target [target]

end PathTable
end BulkSync
