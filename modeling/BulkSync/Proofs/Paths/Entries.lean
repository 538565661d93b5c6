import BulkSync.PathTable
import BulkSync.Proofs.Guarded.Locks

/-! # Entries of a table of paths

Between two calls no node of a table is locked, and the three fields of each node make up an entry
(`PathTable.Holds`). A node that is locked can be unlocked as it was, and then the table is as before
(`Holds.unlock_eq`), or another entry is published for it (`Holds.publish_ok`). So a change is refused,
comes to nothing or replaces an entry as a whole, and only then is the table another one (`Holds.replaceIf_*`). -/

namespace BulkSync

open GuardedCells (Kept)

theorem GuardedCells.Kept.unlock_lock {size index : Nat} {published : Nat → Int64} {guards : List Guard}
    {g : GuardedCells} (kept : Kept size published guards g) (inside : index < size)
    (none : ∀ guard ∈ guards, guard.index ≠ index) :
    GuardedCells.unlock ⟨g.cells.poke index (~~~published index)⟩ ⟨index, published index⟩ = g := by
  have locked := kept.cells.pokeWord inside (Element.toWord (~~~published index))
  suffices same : (g.cells.poke index (~~~published index)).poke index (published index) = g.cells from
    congrArg GuardedCells.mk same
  refine (locked.pokeWord inside _).ext kept.cells fun other _ => ?_
  by_cases here : index = other
  · subst here
    refine (locked.peekWord_pokeWord inside _).trans ?_
    -- the number published is the one in the cell, and a word is read back from it
    rw [← kept.free index inside none]
    rfl
  · exact (Cells.peekWord_pokeWord_ne _ _ here).trans (Cells.peekWord_pokeWord_ne _ _ here)

namespace PathTable

/-- A table of so many nodes, none of them locked, with the fields of each. -/
structure Holds (nodes : Nat) (entries : Nat → Entry) (t : PathTable) : Prop where
  distances : Cells.Regular nodes t.distances
  predecessors : Cells.Regular nodes t.predecessors
  hops : Kept nodes (fun node => (entries node).hops) [] t.hops
  distance : ∀ node < nodes, t.distances.peek node = (entries node).distance
  predecessor : ∀ node < nodes, t.predecessors.peek node = (entries node).predecessor

/-- The predecessor that a number stands for. -/
def Entry.predecessor? (entry : Entry) : Option Nat :=
  if entry.predecessor = noPredecessor then none else some entry.predecessor.toNat

theorem holds_new (nodes : Nat) : Holds nodes (fun _ => .unreached) (new nodes) where
  distances := (Cells.regular_new nodes).fill _
  predecessors := (Cells.regular_new nodes).fill _
  hops := Kept.filled nodes (by decide)
  distance _ inside := Cells.peek_filled inside
  predecessor _ inside := Cells.peek_filled inside

namespace Holds

variable {nodes node : Nat} {entries : Nat → Entry} {t : PathTable}

/-! ## Reading -/

theorem distance_eq (holds : Holds nodes entries t) (inside : node < nodes) :
    t.distance node = .ok (entries node).distance := by
  rw [PathTable.distance, holds.distances.read inside, holds.distance node inside, mapError_ok]

theorem predecessor_eq (holds : Holds nodes entries t) (inside : node < nodes) :
    t.predecessor node = .ok (entries node).predecessor? := by
  rw [PathTable.predecessor, holds.predecessors.read inside, holds.predecessor node inside, mapError_ok]
  rfl

theorem hopsTo_eq (holds : Holds nodes entries t) (inside : node < nodes) :
    t.hopsTo node = .ok (some (entries node).hops) := holds.hops.load_eq inside

theorem nodeCount_eq (holds : Holds nodes entries t) : t.nodeCount = nodes := holds.distances.size_eq

/-! ## Locking -/

/-- The table while a node is locked. -/
def locked (t : PathTable) (node : Nat) (hops : Int64) : PathTable :=
  { t with hops := ⟨t.hops.cells.poke node (~~~hops)⟩ }

theorem lock_eq (holds : Holds nodes entries t) (inside : node < nodes) :
    (lock node).outcome t =
      (.ok (some ⟨node, (entries node).hops⟩), locked t node (entries node).hops) := by
  simp only [lock, Attempt.outcome_of, holds.hops.tryLock_eq inside]
  rfl

theorem lock_behind (holds : Holds nodes entries t) (behind : nodes ≤ node) :
    (lock node).outcome t = (.error (.access (.outOfBounds node nodes)), t) := by
  simp only [lock, Attempt.outcome_of, holds.hops.tryLock_behind behind]

theorem unlock_eq (holds : Holds nodes entries t) (inside : node < nodes) :
    (unlock ⟨node, (entries node).hops⟩).outcome (locked t node (entries node).hops) = (.ok (), t) := by
  have same := holds.hops.unlock_lock inside (by simp)
  simp only [PathTable.unlock, Attempt.outcome_change, locked, same]

theorem write_ok (distances : Cells.Regular nodes t.distances) (predecessors : Cells.Regular nodes t.predecessors)
    (inside : node < nodes) (distance : Binary64) (predecessor : UInt64) :
    (do writeDistance node distance; writePredecessor node predecessor : Attempt PathTable Unit).outcome t =
      (.ok (), ⟨t.distances.poke node distance, t.predecessors.poke node predecessor, t.hops⟩) := by
  have first : (writeDistance node distance).outcome t =
      (.ok (), { t with distances := t.distances.poke node distance }) := by
    rw [writeDistance, Attempt.outcome_replace, distances.write inside, mapError_ok]
    rfl
  rw [Attempt.outcome_bind_of_ok first, writePredecessor, Attempt.outcome_replace, predecessors.write inside,
    mapError_ok]
  rfl

theorem under_of_ok {α : Type} {guard : Guard} {step : Attempt PathTable α} {a : α} {after : PathTable}
    (ran : step.outcome t = (.ok a, after)) : (under guard step).outcome t = (.ok a, after) := by
  rw [under, Attempt.outcome_of, ran]

theorem unlockWith_ok (guard : Guard) {hops : Int64} (nonnegative : 0 ≤ hops) :
    (unlockWith guard hops).outcome t =
      (.ok (), { t with hops := ⟨t.hops.cells.poke guard.index hops⟩ }) := by
  rw [unlockWith, Attempt.outcome_within, GuardedCells.unlockWith, Attempt.outcome_of,
    if_neg (GuardedCells.not_neg nonnegative)]
  rfl

/-- All three fields are those of the new entry by the time the node is unlocked. -/
theorem publish_ok (holds : Holds nodes entries t) (inside : node < nodes) {entry : Entry}
    (nonnegative : 0 ≤ entry.hops) : ∃ after,
      (publish ⟨node, (entries node).hops⟩ entry).outcome (locked t node (entries node).hops) = (.ok (), after) ∧
        Holds nodes (Function.update entries node entry) after := by
  have kept := (holds.hops.lock inside (by simp)).release nonnegative
  have hops : (fun index => (Function.update entries node entry index).hops) =
      Function.update (fun index => (entries index).hops) node entry.hops := by
    funext index
    by_cases here : index = node
    · simp [here]
    · simp [here]
  refine ⟨⟨t.distances.poke node entry.distance, t.predecessors.poke node entry.predecessor,
    ⟨(t.hops.cells.poke node (~~~(entries node).hops)).poke node entry.hops⟩⟩, ?_, ?_⟩
  · have written := write_ok (t := locked t node (entries node).hops) holds.distances holds.predecessors inside
      entry.distance entry.predecessor
    rw [publish, Attempt.outcome_bind_of_ok (under_of_ok written), unlockWith_ok _ nonnegative]
    rfl
  · refine ⟨holds.distances.pokeWord inside _, holds.predecessors.pokeWord inside _, hops ▸ kept, ?_, ?_⟩
    all_goals
      intro other otherInside
      by_cases here : node = other
      · subst here
        simp [holds.distances.peek_poke inside, holds.predecessors.peek_poke inside]
      · simp [Cells.peek_poke_ne _ _ here, Function.update_of_ne (Ne.symm here), holds.distance other otherInside,
          holds.predecessor other otherInside]

/-! ## Changing -/

section Change

variable {entry : Entry} {replaced : Binary64 → Bool}

theorem replaceIf_negative (negative : entry.hops < 0) :
    (replaceIf node replaced entry).outcome t = (.error (.negativeHops entry.hops.toInt), t) := by
  simp only [replaceIf, checkHops, if_pos negative, Attempt.outcome_bind, Attempt.outcome_lift]

theorem replaceIf_behind (holds : Holds nodes entries t) (nonnegative : 0 ≤ entry.hops) (behind : nodes ≤ node) :
    (replaceIf node replaced entry).outcome t = (.error (.access (.outOfBounds node nodes)), t) := by
  simp only [replaceIf, checkHops, if_neg (GuardedCells.not_neg nonnegative), Attempt.outcome_bind,
    Attempt.outcome_lift, holds.lock_behind behind]

theorem read_locked (holds : Holds nodes entries t) (inside : node < nodes) (guard : Guard) (hops : Int64) :
    (under guard (Attempt.inspect (·.distance node))).outcome (locked t node hops) =
      (.ok (entries node).distance, locked t node hops) := by
  have reads : (locked t node hops).distance node = .ok (entries node).distance := holds.distance_eq inside
  simp only [under, Attempt.outcome_of, Attempt.outcome_inspect, reads]

theorem replaceIf_kept (holds : Holds nodes entries t) (nonnegative : 0 ≤ entry.hops) (inside : node < nodes)
    (refused : replaced (entries node).distance = false) :
    (replaceIf node replaced entry).outcome t = (.ok (some (false, (entries node).distance)), t) := by
  simp only [replaceIf, checkHops, if_neg (GuardedCells.not_neg nonnegative), Attempt.outcome_bind,
    Attempt.outcome_lift, holds.lock_eq inside, holds.read_locked inside, refused, Bool.false_eq_true, if_false,
    holds.unlock_eq inside, Attempt.outcome_pure]

theorem replaceIf_replaced (holds : Holds nodes entries t) (nonnegative : 0 ≤ entry.hops) (inside : node < nodes)
    (accepted : replaced (entries node).distance = true) : ∃ after,
      (replaceIf node replaced entry).outcome t = (.ok (some (true, (entries node).distance)), after) ∧
        Holds nodes (Function.update entries node entry) after := by
  obtain ⟨after, published, still⟩ := holds.publish_ok inside nonnegative
  refine ⟨after, ?_, still⟩
  simp only [replaceIf, checkHops, if_neg (GuardedCells.not_neg nonnegative), Attempt.outcome_bind,
    Attempt.outcome_lift, holds.lock_eq inside, holds.read_locked inside, accepted, if_true, published,
    Attempt.outcome_pure]

theorem markSource_behind (holds : Holds nodes entries t) (behind : nodes ≤ node) :
    (markSource node).outcome t = (.error (.access (.outOfBounds node nodes)), t) := by
  simp only [markSource, Attempt.outcome_bind, holds.lock_behind behind]

theorem markSource_ok (holds : Holds nodes entries t) (inside : node < nodes) : ∃ after,
    (markSource node).outcome t = (.ok (), after) ∧
      Holds nodes (Function.update entries node .source) after := by
  obtain ⟨after, published, still⟩ := holds.publish_ok inside (show 0 ≤ Entry.source.hops by decide)
  refine ⟨after, ?_, still⟩
  simp only [markSource, Attempt.outcome_bind, holds.lock_eq inside, published]

end Change
end Holds
end PathTable
end BulkSync
