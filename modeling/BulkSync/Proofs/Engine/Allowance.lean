import BulkSync.Proofs.Engine.Independence
import BulkSync.Proofs.Engine.Stopping

/-! # Runs that are allowed more supersteps

Two runs of one engine differ in nothing but the number of supersteps that they are allowed. They go
through the same boards as long as both of them go on, so that the longer one is a continuation of the
shorter one: a run that has converged would not have gone on, and one that was capped would have
(`extended_run`). -/

namespace BulkSync

variable {γ M : Type} [GraphView γ] [Element M]

namespace Job.Reached

variable {job other : Job γ M} {b c : Board M} {limit limitToo count countToo : Nat}
  {outcome outcomeToo : Outcome}

/-- A course that has converged does so with any greater allowance, after as many supersteps. -/
theorem converged_of_le (reached : job.Reached b 0 limit outcome count)
    (reachedToo : other.Reached c 0 limitToo outcomeToo countToo) (allowed : limit ≤ limitToo)
    (same : ∀ s, s < count → s < countToo → other.verdictAt c s = job.verdictAt b s)
    (converged : outcome = .converged) : countToo = count ∧ outcomeToo = .converged := by
  have further := reached.count_le reachedToo allowed same
  obtain ⟨s, last, _, settled⟩ := reached.last converged
  rw [← same s (by omega) (by omega)] at settled
  obtain ⟨convergedToo, lastToo⟩ := (reachedToo.settled s (Nat.zero_le s) (by omega)).mp settled
  exact ⟨by omega, convergedToo⟩

/-- A course that was capped goes on if it is allowed more. -/
theorem lt_of_capped (reached : job.Reached b 0 limit outcome count)
    (reachedToo : other.Reached c 0 limitToo outcomeToo countToo) (allowed : limit < limitToo)
    (same : ∀ s, s < count → s < countToo → other.verdictAt c s = job.verdictAt b s)
    (capped : outcome = .maxIterations) : count = limit ∧ limit < countToo := by
  have all : count = limit := by
    rcases reached.ends with ⟨converged, _⟩ | ⟨_, all⟩
    · rw [capped] at converged
      cases converged
    · exact all
  have further := reached.count_le reachedToo (Nat.le_of_lt allowed) same
  refine ⟨all, Nat.lt_of_le_of_ne (all ▸ further) fun equal => ?_⟩
  -- it could stop there only by a verdict that the capped course has not had
  rcases reachedToo.ends with ⟨converged, _⟩ | ⟨_, allToo⟩
  · obtain ⟨s, last, _, settled⟩ := reachedToo.last converged
    rw [same s (by omega) (by omega)] at settled
    have contrary := ((reached.settled s (Nat.zero_le s) (by omega)).mp settled).1
    rw [capped] at contrary
    cases contrary
  · omega

end Job.Reached

namespace Engine

/-- An engine that is allowed more supersteps than another one and is like it otherwise. -/
structure AllowsMore (e f : Engine γ M) : Prop where
  like : f = { e with config := { e.config with maxIterations := f.config.maxIterations } }
  more : e.config.maxIterations.toNat < f.config.maxIterations.toNat

/-- Ways to execute tasks between which a computation cannot tell: the same one in both runs, or any in
which tasks take turns if the order of turns makes no difference. -/
def SameEffect (reducer : Option (Reducer M)) (executor other : Nat → Executor (Board M)) : Prop :=
  other = executor ∨ (∀ s, (executor s).TakesTurns Board.raised) ∧
    (∀ s, (other s).TakesTurns Board.raised) ∧ OrderAgrees reducer executor other

section Two

variable {e f after afterToo : Engine γ M} {executor other : Nat → Executor (Board M)}
  {result resultToo : RunResult} {schema schemaToo : Schema} {job jobToo : Job γ M}
  {board boardToo : Board M}

omit [GraphView γ] [Element M] in
theorem AllowsMore.fresh (further : e.AllowsMore f) (fresh : e.Fresh) : f.Fresh := by
  have like := further.like
  refine ⟨?_, by rw [like]; exact fresh.state, by rw [like]; exact fresh.record⟩
  have valid := fresh.valid
  have any : f.config.maxIterations ≠ 0 := by
    intro none
    have more := further.more
    rw [none] at more
    exact Nat.not_lt_zero _ more
  have batch : f.config.minBatchSize = e.config.minBatchSize := by rw [like]
  rw [Config.validate] at valid ⊢
  rw [if_neg any, batch]
  split at valid
  · cases valid
  · exact valid

theorem AllowsMore.prepare (further : e.AllowsMore f) (executor : Nat → Executor (Board M)) :
    f.prepare executor = e.prepare executor := by
  rw [further.like]
  rfl

/-- Both runs have the same numbers in front of every superstep that both of them reach, and the same
verdicts. -/
theorem Account.same_boardAt (account : e.Account executor result after schema job board)
    (accountToo : f.Account other resultToo afterToo schemaToo jobToo boardToo)
    (further : e.AllowsMore f) (agrees : SameEffect e.computation.reducer executor other) :
    ∀ s, (s ≤ result.supersteps → s ≤ resultToo.supersteps →
        (jobToo.boardAt boardToo s).store = (job.boardAt board s).store) ∧
      (s < result.supersteps → s < resultToo.supersteps →
        jobToo.verdictAt boardToo s = job.verdictAt board s) := by
  rcases agrees with rfl | ⟨turns, turnsToo, agrees⟩
  · have prepared := accountToo.prepared
    rw [further.prepare, account.prepared] at prepared
    cases prepared
    exact fun s => ⟨fun _ _ => rfl, fun _ _ => rfl⟩
  · have alike := account.alike_of_eq accountToo (by rw [further.like]) (by rw [further.like])
      (account.steps turns) (accountToo.steps turnsToo) agrees
    exact fun s => ⟨fun within withinToo => ((alike s).1 within withinToo).store, (alike s).2⟩

end Two

/-! ## The theorem -/

/-- Of two runs that are not broken off, the one with more supersteps allowed has the same result if the
other one has converged; if the other one was capped, it goes on from the numbers of that result. -/
theorem extended_run {e f : Engine γ M} {executor other : Nat → Executor (Board M)} (fresh : e.Fresh)
    (further : e.AllowsMore f) (agrees : SameEffect e.computation.reducer executor other)
    (unbroken : e.Unbroken executor) (unbrokenToo : f.Unbroken other) :
    ∃ result after resultToo afterToo, e.runWith executor = (.ok result, after) ∧
      f.runWith other = (.ok resultToo, afterToo) ∧
      (result.outcome = .converged ∧ resultToo = result ∨
        result.outcome = .maxIterations ∧ e.config.maxIterations.toNat < resultToo.supersteps ∧
          ∃ job board, f.prepare other = .ok (job, board) ∧
            (job.boardAt board e.config.maxIterations.toNat).store.exposed = .ok result.values) := by
  obtain ⟨result, after, ran, calm⟩ := unbroken_runs fresh unbroken
  obtain ⟨resultToo, afterToo, ranToo, calmToo⟩ := unbroken_runs (further.fresh fresh) unbrokenToo
  obtain ⟨schema, job, board, account⟩ := Engine.account fresh ran calm
  obtain ⟨schemaToo, jobToo, boardToo, accountToo⟩ :=
    Engine.account (further.fresh fresh) ranToo calmToo
  have same := account.same_boardAt accountToo further agrees
  refine ⟨result, after, resultToo, afterToo, ran, ranToo, ?_⟩
  rcases account.reached.ends with ⟨converged, _⟩ | ⟨capped, _⟩
  · obtain ⟨supersteps, convergedToo⟩ := account.reached.converged_of_le accountToo.reached
      (Nat.le_of_lt further.more) (fun s => (same s).2) converged
    exact .inl ⟨converged, account.result_eq accountToo supersteps (convergedToo.trans converged.symm)
      ((same result.supersteps).1 (Nat.le_refl _) (Nat.le_of_eq supersteps.symm))⟩
  · obtain ⟨all, longer⟩ := account.reached.lt_of_capped accountToo.reached further.more
      (fun s => (same s).2) capped
    refine .inr ⟨capped, longer, jobToo, boardToo, accountToo.prepared, ?_⟩
    rw [← all, (same result.supersteps).1 (Nat.le_refl _) (all ▸ Nat.le_of_lt longer)]
    exact account.values

/-- Two nodes that greet each other, and are stopped before they have heard anything. -/
def hurriedEngine : Engine RowGraph Int64 :=
  { greetingEngine with config := { greetingEngine.config with maxIterations := 1 } }

/-- The greeting goes on if it is not stopped. -/
theorem extended_run_greeting : ∃ result after resultToo afterToo,
    hurriedEngine.run = (.ok result, after) ∧ greetingEngine.run = (.ok resultToo, afterToo) ∧
      result.outcome = .maxIterations ∧
      (result.outcome = .converged ∧ resultToo = result ∨
        result.outcome = .maxIterations ∧
          hurriedEngine.config.maxIterations.toNat < resultToo.supersteps ∧
          ∃ job board, greetingEngine.prepare greetingEngine.onPool = .ok (job, board) ∧
            (job.boardAt board hurriedEngine.config.maxIterations.toNat).store.exposed =
              .ok result.values) := by
  have evaluated : hurriedEngine.run.1.toOption.map RunResult.outcome = some .maxIterations := by
    decide +kernel
  cases hurried : hurriedEngine.run.1 with
  | error error => simp [hurried, Except.toOption] at evaluated
  | ok hurry =>
    simp only [hurried, Except.toOption, Option.map_some, Option.some.injEq] at evaluated
    have fresh : hurriedEngine.Fresh := ⟨rfl, rfl, rfl⟩
    have further : hurriedEngine.AllowsMore greetingEngine := ⟨rfl, by decide⟩
    have ok : (hurriedEngine.runWith hurriedEngine.onPool).1 = .ok hurry := hurried
    have unbroken : hurriedEngine.Unbroken hurriedEngine.onPool :=
      ⟨by simp [ok], by simp [ok], by simp [ok, evaluated]⟩
    have unbrokenToo : greetingEngine.Unbroken greetingEngine.onPool :=
      undisturbed_greeting.unbroken fresh_greeting fun s => (inSequence_onPool _ s).takesTurns
    obtain ⟨result, after, resultToo, afterToo, ran, ranToo, law⟩ :=
      extended_run fresh further (.inl rfl) unbroken unbrokenToo
    have same : hurry = result := by
      rw [ran] at ok
      exact (Except.ok.inj ok).symm
    exact ⟨result, after, resultToo, afterToo, ran, ranToo, same ▸ evaluated, law⟩

end Engine
end BulkSync
