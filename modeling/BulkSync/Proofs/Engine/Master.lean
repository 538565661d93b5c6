import BulkSync.Proofs.Engine.Moves
import BulkSync.Proofs.Property.Words

/-! # What the computation does between two supersteps

Behind a superstep the computation can set numbers and raise the stop flag, and it can do nothing else
to the board, whether it succeeds or fails (`consult_frame`). What it answers and what it sets depend on
the numbers alone (`consult_congr`). -/

namespace BulkSync

variable {γ M : Type} [GraphView γ]

/-- A board that is another one but for the numbers and the stop flag. -/
structure Board.Set (schema : Schema) (nodes : Nat) (before after : Board M) : Prop where
  store : PropertyStore.Regular schema nodes after.store
  rest : after = { before with store := after.store, raised := after.raised }

/-- Boards with the same numbers on which the stop flag is alike. -/
structure Board.SameNumbers (b c : Board M) : Prop where
  store : b.store = c.store
  raised : b.raised = c.raised

theorem Board.Set.changes {M : Type} {schema : Schema} {nodes : Nat} {before b c : Board M}
    (set : before.Set schema nodes b) (change : b.Changes c) : before.Set schema nodes c := by
  cases change with
  | setLong wrote =>
    refine ⟨set.store.writeLong_regular wrote, ?_⟩
    rw [set.rest]
    rfl
  | setDouble wrote =>
    refine ⟨set.store.writeDouble_regular wrote, ?_⟩
    rw [set.rest]
    rfl
  | raise =>
    refine ⟨set.store, ?_⟩
    change { b with raised := true } = { before with store := b.store, raised := true }
    rw [set.rest]

namespace Handler

variable {g : γ} {b c : Board M}

theorem update_congr (change : PropertyStore → Except Fault PropertyStore) {answer : Unit}
    (same : b.SameNumbers c) {after : Board M} (ran : (update change).outcome b = (.ok answer, after)) :
    ∃ next, (update change).outcome c = (.ok answer, next) ∧ after.SameNumbers next := by
  have changed := Attempt.outcome_replace_ok ran
  cases result : change b.store with
  | error fault => simp [result, Except.map] at changed
  | ok store =>
    simp only [result, Except.map, Except.ok.injEq] at changed
    subst changed
    refine ⟨c.setStore store, ?_, rfl, same.raised⟩
    rw [update, Attempt.outcome_replace, ← same.store, result]
    rfl

theorem master_congr (call : MasterCall) (b c : Board M) (answer : MasterContext.Answer call)
    (after : Board M) (same : b.SameNumbers c)
    (ran : (master g call).outcome b = (.ok answer, after)) :
    ∃ next, (master g call).outcome c = (.ok answer, next) ∧ after.SameNumbers next := by
  cases call with
  | setLong key node value => exact update_congr (·.writeLong key node value) same ran
  | setDouble key node value => exact update_congr (·.writeDouble key node value) same ran
  | raise =>
    cases ran
    exact ⟨_, rfl, same.store, rfl⟩
  | degree node | neighbors node more | weightedNeighbors node more =>
    obtain ⟨found, rfl⟩ := Prod.mk.inj ran
    exact ⟨c, Prod.ext found rfl, same⟩
  | longs key | doubles key | getLong key node | getDouble key node =>
    obtain ⟨found, rfl⟩ := Prod.mk.inj ran
    refine ⟨c, Prod.ext ?_ rfl, same⟩
    simp only [master, Attempt.outcome_inspect, ← same.store]
    exact found

end Handler

namespace Job

variable {schema : Schema} {nodes : Nat} {b c : Board M}

theorem consult_frame (job : Job γ M) (superstep : Nat)
    (store : PropertyStore.Regular schema nodes b.store) :
    b.Set schema nodes ((job.consult superstep).outcome b).2 :=
  Attempt.keeps_run (Handler.master_keeps Board.Set.changes job.graph) _ b ⟨store, rfl⟩

theorem consult_congr (job : Job γ M) (superstep : Nat) (same : b.SameNumbers c) {stop : Bool}
    {after : Board M} (ran : (job.consult superstep).outcome b = (.ok stop, after)) :
    ∃ next, (job.consult superstep).outcome c = (.ok stop, next) ∧ after.SameNumbers next :=
  Program.run_simulates Board.SameNumbers Handler.master_congr _ b c stop after same ran

end Job
end BulkSync
