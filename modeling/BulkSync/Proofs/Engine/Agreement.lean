import BulkSync.Proofs.Engine.Course
import BulkSync.Proofs.Vertex.Likeness

/-! # Supersteps and courses side by side

Two supersteps in which every node has like deeds, and behind which the computation is asked the same, leave
the same numbers and votes and come to the same verdict, whatever their mailboxes are made of
(`Stepped.agree`). Courses whose boards stay related in this way have the same verdicts as long as both of
them go on (`Job.side_by_side`). -/

namespace BulkSync

variable {γ M : Type} [GraphView γ] [Element M]

omit [GraphView γ] [Element M] in
theorem lettersOf_congr {deed other : Nat → Deed M} {visited : List Nat}
    (same : ∀ node ∈ visited, (other node).letters = (deed node).letters) :
    lettersOf other visited = lettersOf deed visited := by
  rw [lettersOf, lettersOf, List.flatMap_def, List.flatMap_def]
  congr 1
  exact List.map_congr_left same

namespace Job

variable {job other : Job γ M} {schema : Schema} {nodes s : Nat} {b c after afterToo : Board M}
  {letters lettersToo : List (Nat × M)} {stop stopToo : Bool} {verdict verdictToo : Verdict}

/-- What two supersteps with like deeds have in common in the end. -/
theorem Stepped.agree (stepped : job.Stepped schema nodes s b letters stop verdict after)
    (steppedToo : other.Stepped schema nodes s c lettersToo stopToo verdictToo afterToo)
    (consults : other.consult s = job.consult s)
    (like : ∀ node < nodes, (job.deed schema s b node).Like (other.deed schema s c node)) :
    afterToo.store = after.store ∧
      (∀ node < nodes, afterToo.votes.test node = after.votes.test node) ∧ verdictToo = verdict := by
  -- the tasks of both have left the same numbers, since a store is known by its words
  have left : (other.left s c).store = (job.left s b).store :=
    steppedToo.left.ext stepped.left fun index node inside => by
      rw [steppedToo.word index node inside, stepped.word index node inside, (like node inside).row]
  obtain ⟨before, next, answered, store, down, last⟩ := stepped.consulted
  obtain ⟨beforeToo, nextToo, answeredToo, storeToo, downToo, lastToo⟩ := steppedToo.consulted
  -- so the computation gives the same answer and sets the same numbers
  have numbers : before.SameNumbers beforeToo :=
    ⟨by rw [store, storeToo, left], down.trans downToo.symm⟩
  obtain ⟨reached, answeredAgain, nextNumbers⟩ := job.consult_congr s numbers answered
  rw [consults, answeredAgain] at answeredToo
  obtain ⟨answers, rfl⟩ := Prod.mk.inj answeredToo
  obtain rfl : stop = stopToo := Except.ok.inj answers
  have quiet : other.Quiet schema nodes s c ↔ job.Quiet schema nodes s b := by
    rw [Quiet, Quiet]
    exact forall_congr' fun node => forall_congr' fun inside => by
      rw [(like node inside).halted, (like node inside).letters]
  refine ⟨?_, fun node inside => ?_, ?_⟩
  · rw [← lastToo.store, ← last.store, nextNumbers.store]
  · rw [steppedToo.vote node inside, stepped.vote node inside, (like node inside).halted]
  · have settled := stepped.settled
    have settledToo := steppedToo.settled
    rw [quiet, ← settled] at settledToo
    -- neither superstep has failed, so that the verdicts are told by whether they settle
    rcases stepped.goesOn with rfl | rfl <;> rcases steppedToo.goesOn with rfl | rfl <;>
      simp_all

/-- Boards that are related in front of the first superstep stay related, if one superstep keeps them so. -/
theorem side_by_side {related : Board M → Board M → Prop} {count countToo : Nat} (start : related b c)
    (step : ∀ s, s < count → s < countToo → related (job.boardAt b s) (other.boardAt c s) →
      related (job.boardAt b (s + 1)) (other.boardAt c (s + 1)) ∧
        other.verdictAt c s = job.verdictAt b s) :
    ∀ s, (s ≤ count → s ≤ countToo → related (job.boardAt b s) (other.boardAt c s)) ∧
      (s < count → s < countToo → other.verdictAt c s = job.verdictAt b s) := by
  have each : ∀ s, s ≤ count → s ≤ countToo → related (job.boardAt b s) (other.boardAt c s) := by
    intro s
    induction s with
    | zero => exact fun _ _ => start
    | succ s inductionHypothesis =>
      intro below belowToo
      exact (step s below belowToo (inductionHypothesis (Nat.le_of_lt below) (Nat.le_of_lt belowToo))).1
  exact fun s => ⟨each s, fun below belowToo =>
    (step s below belowToo (each s (Nat.le_of_lt below) (Nat.le_of_lt belowToo))).2⟩

end Job

namespace Engine.Account

variable {e f after afterToo : Engine γ M} {executor other : Nat → Executor (Board M)}
  {result resultToo : RunResult} {schema schemaToo : Schema} {job jobToo : Job γ M}
  {board boardToo : Board M}

/-- Runs that come to the same outcome after as many supersteps, with the same numbers, have the same
result. -/
theorem result_eq (account : e.Account executor result after schema job board)
    (accountToo : f.Account other resultToo afterToo schemaToo jobToo boardToo)
    (supersteps : resultToo.supersteps = result.supersteps) (outcome : resultToo.outcome = result.outcome)
    (store : (jobToo.boardAt boardToo result.supersteps).store =
      (job.boardAt board result.supersteps).store) : resultToo = result := by
  have exposed := accountToo.values
  rw [supersteps, store, account.values] at exposed
  have values := Except.ok.inj exposed
  cases result
  cases resultToo
  simp_all

end Engine.Account
end BulkSync
