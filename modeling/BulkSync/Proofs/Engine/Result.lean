import BulkSync.Proofs.Engine.Values
import BulkSync.Proofs.Property.Projection
import BulkSync.Proofs.Property.Refinement

/-! # The properties of a result

The supersteps of a run leave a store of the declared schema. Its projection is what the run returns, so that the
numbers of an exposed property are those that the last superstep has left (`projection`). -/

namespace BulkSync

variable {γ M : Type} [GraphView γ] [Element M]

/-- The values of a result are projected from the store in which the supersteps of a run have ended. -/
structure Engine.Publishes (e : Engine γ M) (executor : Nat → Executor (Board M)) (schema : Schema)
    (result : RunResult) (job : Job γ M) (board : Board M) : Prop where
  prepared : e.prepare executor = .ok (job, board)
  filed : (job.proceed e.config.maxIterations.toNat 0 board).board.Filed schema (GraphView.nodeCount e.graph)
  projects : (job.proceed e.config.maxIterations.toNat 0 board).board.store.Projects result.values

theorem Engine.publishes {e : Engine γ M} {executor : Nat → Executor (Board M)} {schema : Schema}
    (distinct : schema.keys.Nodup) (notStarted : e.state = .notStarted)
    (turns : ∀ s, (executor s).TakesTurns Board.raised) (declared : e.computation.schema = .ok schema)
    {result : RunResult} (ran : (e.runWith executor).1 = .ok result) :
    ∃ job board, e.Publishes executor schema result job board := by
  rw [runWith_eq notStarted] at ran
  cases prepared : e.prepare executor with
  | error fault =>
    rw [prepared] at ran
    cases ran
  | ok made =>
    obtain ⟨job, board⟩ := made
    rw [prepared] at ran
    have filed := filed_of_prepare turns declared prepared
    obtain ⟨-, -, exposed⟩ := resultOf_ok ran
    exact ⟨job, board, prepared, filed, filed.projects distinct exposed⟩

/-- Where no key is declared twice, any store can be projected to its exposed properties: they keep their order and
their columns, and no other key is known any more. A run that comes to an outcome returns a result, and the values of
every result are the projection of the store in which its supersteps have ended. -/
theorem projection {schema : Schema} (distinct : schema.keys.Nodup) :
    (∀ nodes s, PropertyStore.Regular schema nodes s → ∃ values, s.exposed = .ok values ∧ s.Projects values) ∧
    ∀ (e : Engine γ M) (executor : Nat → Executor (Board M)), e.state = .notStarted →
      (∀ s, (executor s).TakesTurns Board.raised) → e.computation.schema = .ok schema →
      (∀ outcome, (e.runWith executor).2.state = .ended outcome →
        ∃ result, (e.runWith executor).1 = .ok result ∧ result.outcome = outcome) ∧
      ∀ result, (e.runWith executor).1 = .ok result → ∃ job board, e.Publishes executor schema result job board := by
  refine ⟨fun nodes s regular => ?_, fun e executor notStarted turns declared => ⟨fun outcome ended => ?_, ?_⟩⟩
  · have kept := regular.exposed_eq_kept distinct
    exact ⟨_, kept, regular.projects distinct kept⟩
  · exact (Engine.returns_iff notStarted turns declared ended).mpr (Schema.nodup_exposed distinct)
  · intro result ran
    exact Engine.publishes distinct notStarted turns declared ran

/-! ## Four properties -/

/-- Properties of either kind, the middle ones of which are exposed. -/
def mixed : Schema :=
  ⟨[⟨"a", .long, .internal⟩, ⟨"b", .double, .exposed⟩, ⟨"c", .long, .exposed⟩, ⟨"d", .double, .internal⟩]⟩

/-- Two nodes that set all of them. -/
def mixedEngine : Engine RowGraph Int64 where
  graph := ⟨Rows.ofLists [[], []], none⟩
  computation :=
    { schema := .ok mixed
      compute := fun view _ => do
        VertexContext.setLong "a" 5
        VertexContext.setDouble "b" ⟨BitVec.ofNat _ (view.node + 6)⟩
        VertexContext.setLong "c" (Int64.ofNat (view.node + 8))
        VertexContext.setDouble "d" ⟨9⟩
        VertexContext.halt }
  config := {}

/-- The middle ones are returned with their numbers, and the first and the last are unknown. -/
theorem projection_mixed : ∃ result, mixedEngine.run.1 = .ok result ∧
    result.values.schema = ⟨[⟨"b", .double, .exposed⟩, ⟨"c", .long, .exposed⟩]⟩ ∧
    result.values.column "a" = .error (.unknown "a") ∧ result.values.column "d" = .error (.unknown "d") ∧
    result.values.numbers .double "b" = .ok [.double ⟨6⟩, .double ⟨7⟩] ∧
    result.values.numbers .long "c" = .ok [.long 8, .long 9] := by
  have distinct : mixed.keys.Nodup := by decide
  obtain ⟨returns, publishes⟩ := (projection (γ := RowGraph) (M := Int64) distinct).2 mixedEngine
    mixedEngine.onPool rfl (fun s => (mixedEngine.inSequence_onPool s).takesTurns) rfl
  obtain ⟨result, ran, -⟩ := returns .converged (by decide +kernel)
  obtain ⟨job, board, published⟩ := publishes result ran
  have schema := published.filed.schema_eq
  have evaluated : mixedEngine.run.1.toOption.map (fun r =>
      (r.values.numbers .double "b", r.values.numbers .long "c")) =
        some (.ok [.double ⟨6⟩, .double ⟨7⟩], .ok [.long 8, .long 9]) := by decide +kernel
  have same : mixedEngine.run.1 = .ok result := ran
  rw [same, Except.toOption, Option.map_some, Option.some.injEq, Prod.mk.injEq] at evaluated
  refine ⟨result, ran, published.projects.schema_eq.trans (by rw [schema]; rfl), ?_, ?_, evaluated⟩
  · exact published.projects.unknown "a" (by rw [schema]; decide)
  · exact published.projects.unknown "d" (by rw [schema]; decide)

end BulkSync
