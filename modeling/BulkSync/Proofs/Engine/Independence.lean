import BulkSync.Proofs.Engine.Agreement
import BulkSync.Proofs.Engine.Delivery
import BulkSync.Proofs.Message.OrderFree

/-! # Independence of how the work is split

Two runs of one computation on one graph, with as many supersteps allowed, can differ in how the nodes are
cut into tasks and in the order in which the tasks are executed. In front of every superstep their boards
are alike: they hold the same numbers, votes and messages (`Account.alike_boardAt`). One superstep keeps
them alike, as both are told by the same deeds (`Stepped.alike`); only letters that are folded in another
order need a reducer to which that makes no difference. So both runs have the same result
(`independence`). -/

namespace BulkSync

open Rows (itemsOf)

variable {γ M : Type} [GraphView γ] [Element M]

/-- Boards that hold the same of every node and for it. -/
structure Board.Alike (nodes : Nat) (b c : Board M) : Prop where
  store : c.store = b.store
  vote : ∀ node < nodes, c.votes.test node = b.votes.test node
  mail : b.mail.SameInbox c.mail

/-- Jobs with the same graph and the same computation. -/
structure Job.Kin (job other : Job γ M) : Prop where
  graph : other.graph = job.graph
  computation : other.computation = job.computation

/-! ## Letters in another order -/

omit [GraphView γ] in
theorem Mail.Holds.folds {nodes slots : Nat} {letters : List (Nat × M)} {r : Reducer M} {mail : Mail M}
    (holds : Mail.Holds nodes slots letters (some r) mail) {node : Nat} (bound : node < nodes) :
    ∃ value, r.foldFrom r.identity (itemsOf letters node) = .ok value := by
  cases holds with
  | reduced same blank receives => exact ⟨_, receives.peek bound⟩

omit [GraphView γ] in
/-- A reducer that is free of order makes the same of the same letters in another order. -/
theorem Mail.sameMail_of_perm {nodes slots slotsToo : Nat} {letters others : List (Nat × M)}
    {r : Reducer M} {mail other : Mail M} (free : r.OrderFree) (same : letters.Perm others)
    (holds : Mail.Holds nodes slots letters (some r) mail)
    (holdsToo : Mail.Holds nodes slotsToo others (some r) other) :
    Mail.SameMail (some r) nodes letters others := by
  intro node bound
  have items : (itemsOf letters node).Perm (itemsOf others node) := same.filterMap _
  obtain ⟨value, folded⟩ := holds.folds bound
  obtain ⟨valueToo, foldedToo⟩ := holdsToo.folds bound
  exact ⟨items.isEmpty_eq, by rw [folded, foldedToo, free.foldFrom_perm items folded foldedToo]⟩

/-- Without a reducer, or with one that is free of order, tasks can be executed in any order; with any
other one they are executed in sequence. -/
def OrderAgrees (reducer : Option (Reducer M)) (executor other : Nat → Executor (Board M)) : Prop :=
  reducer = none ∨ (∃ r, reducer = some r ∧ r.OrderFree) ∨
    (∀ s, (executor s).InSequence Board.raised) ∧ ∀ s, (other s).InSequence Board.raised

/-! ## One superstep of both -/

namespace Job

variable {job other : Job γ M} {schema : Schema} {nodes s : Nat} {b c after afterToo : Board M}
  {letters lettersToo : List (Nat × M)} {stop stopToo : Bool} {verdict verdictToo : Verdict}

theorem Kin.deed (kin : job.Kin other) (alike : b.Alike nodes c) (schema : Schema) (s : Nat) {node : Nat}
    (inside : node < nodes) : other.deed schema s c node = job.deed schema s b node := by
  have share : c.share node = b.share node := by
    rw [Board.share, Board.share, alike.store, alike.vote node inside]
  rw [Job.deed, Job.deed, kin.graph, kin.computation, (alike.mail node).1, share]

omit [Element M] in
theorem Kin.consult (kin : job.Kin other) (s : Nat) : other.consult s = job.consult s := by
  rw [Job.consult, Job.consult, kin.graph, kin.computation]

theorem Kin.lettersOf (kin : job.Kin other) (alike : b.Alike nodes c) (schema : Schema) (s : Nat) :
    lettersOf (other.deed schema s c) (List.range nodes) =
      lettersOf (job.deed schema s b) (List.range nodes) :=
  lettersOf_congr fun _ member =>
    congrArg Deed.letters (kin.deed alike schema s (List.mem_range.mp member))

/-- What is sent in two supersteps that start alike makes the same mail. -/
theorem Stepped.sameMail (kin : job.Kin other) (alike : b.Alike nodes c)
    (agrees : OrderAgrees job.computation.reducer job.executor other.executor)
    (stepped : job.Stepped schema nodes s b letters stop verdict after)
    (steppedToo : other.Stepped schema nodes s c lettersToo stopToo verdictToo afterToo) :
    Mail.SameMail job.computation.reducer nodes letters lettersToo := by
  have same := kin.lettersOf alike schema s
  have equal : (job.computation.reducer = none ∨ (job.executor s).InSequence Board.raised) →
      (other.computation.reducer = none ∨ (other.executor s).InSequence Board.raised) →
      Mail.SameMail job.computation.reducer nodes letters lettersToo := by
    intro one two
    rw [stepped.inOrder one, steppedToo.inOrder two, same]
    exact Mail.SameMail.refl _ _ _
  rcases agrees with none | ⟨r, reducer, free⟩ | ⟨sequential, sequentialToo⟩
  · exact equal (.inl none) (.inl (kin.computation ▸ none))
  · have permuted : letters.Perm lettersToo := stepped.sent.trans (same ▸ steppedToo.sent.symm)
    have holds := stepped.ready.mail
    have holdsToo := steppedToo.ready.mail
    rw [kin.computation, reducer] at holdsToo
    rw [reducer] at holds ⊢
    exact Mail.sameMail_of_perm free permuted holds holdsToo
  · exact equal (.inr (sequential s)) (.inr (sequentialToo s))

/-- Supersteps that start alike come to the same verdict, and end alike if their mail is the same. -/
theorem Stepped.alike (kin : job.Kin other) (alike : b.Alike nodes c)
    (stepped : job.Stepped schema nodes s b letters stop verdict after)
    (steppedToo : other.Stepped schema nodes s c lettersToo stopToo verdictToo afterToo)
    (sameMail : Mail.SameMail job.computation.reducer nodes letters lettersToo) : after.Alike nodes afterToo ∧ verdictToo = verdict := by
  have like : ∀ node < nodes, (job.deed schema s b node).Like (other.deed schema s c node) :=
    fun node inside => kin.deed alike schema s inside ▸ .refl _
  obtain ⟨store, vote, verdicts⟩ := stepped.agree steppedToo (kin.consult s) like
  have holdsToo := steppedToo.ready.mail
  rw [kin.computation] at holdsToo
  exact ⟨⟨store, vote, stepped.ready.mail.sameInbox holdsToo sameMail⟩, verdicts⟩

/-- A course is not longer than another one that has had the same verdicts and is allowed as much. -/
theorem Reached.count_le {limit limitToo count countToo : Nat} {outcome outcomeToo : Outcome}
    (reached : job.Reached b 0 limit outcome count)
    (reachedToo : other.Reached c 0 limitToo outcomeToo countToo) (allowed : limit ≤ limitToo)
    (same : ∀ s, s < count → s < countToo → other.verdictAt c s = job.verdictAt b s) :
    count ≤ countToo := by
  rcases Nat.lt_or_ge countToo count with shorter | fine
  · rcases reachedToo.ends with ⟨converged, _⟩ | ⟨_, all⟩
    · -- the shorter course would have been settled where the longer one went on
      obtain ⟨s, last, _, settled⟩ := reachedToo.last converged
      rw [same s (by omega) (by omega)] at settled
      have ended := ((reached.settled s (Nat.zero_le s) (by omega)).mp settled).2
      omega
    · rcases reached.ends with ⟨_, _, bound⟩ | ⟨_, allToo⟩ <;> omega
  · exact fine

/-- Courses with the same verdicts come to the same outcome after as many supersteps. -/
theorem Reached.unique {limit count countToo : Nat} {outcome outcomeToo : Outcome}
    (reached : job.Reached b 0 limit outcome count)
    (reachedToo : other.Reached c 0 limit outcomeToo countToo)
    (same : ∀ s, s < count → s < countToo → other.verdictAt c s = job.verdictAt b s) :
    countToo = count ∧ outcomeToo = outcome := by
  obtain rfl : countToo = count := Nat.le_antisymm
    (reachedToo.count_le reached (Nat.le_refl _) fun s below belowToo => (same s belowToo below).symm)
    (reached.count_le reachedToo (Nat.le_refl _) same)
  refine ⟨rfl, ?_⟩
  rcases reached.ends with ⟨converged, _⟩ | ⟨maxIterations, _⟩
  · obtain ⟨s, last, _, settled⟩ := reached.last converged
    rw [← same s (by omega) (by omega)] at settled
    rw [converged]
    exact ((reachedToo.settled s (Nat.zero_le s) (by omega)).mp settled).1
  · rcases reachedToo.ends with ⟨converged, _⟩ | ⟨maxIterationsToo, _⟩
    · obtain ⟨s, last, _, settled⟩ := reachedToo.last converged
      rw [same s (by omega) (by omega)] at settled
      have contrary := ((reached.settled s (Nat.zero_le s) (by omega)).mp settled).1
      rw [maxIterations] at contrary
      cases contrary
    · rw [maxIterations, maxIterationsToo]

end Job

/-! ## Two runs -/

namespace Engine

/-- Engines that are alike but for how their work is split. -/
structure Kin (e f : Engine γ M) : Prop where
  graph : f.graph = e.graph
  computation : f.computation = e.computation
  allowed : f.config.maxIterations = e.config.maxIterations

namespace Account

variable {e f after afterToo : Engine γ M} {executor other : Nat → Executor (Board M)}
  {result resultToo : RunResult} {schema schemaToo : Schema} {job jobToo : Job γ M}
  {board boardToo : Board M}

theorem eventsOf_beyond (account : e.Account executor result after schema job board)
    (steps : job.Steps schema (GraphView.nodeCount e.graph) board result.supersteps) {s node : Nat}
    (beyond : ¬ (s < result.supersteps ∧ node < GraphView.nodeCount e.graph)) :
    eventsOf after.record.toList s node = [] := by
  rw [List.eq_nil_iff_forall_not_mem]
  intro event member
  obtain ⟨recorded, superstep, of⟩ := mem_eventsOf.mp member
  obtain ⟨below, inside⟩ := account.mem_record steps recorded
  exact beyond ⟨superstep ▸ below, inside node of⟩

theorem kin_of_eq (account : e.Account executor result after schema job board)
    (accountToo : f.Account other resultToo afterToo schemaToo jobToo boardToo)
    (graph : f.graph = e.graph) (computation : f.computation = e.computation) :
    job.Kin jobToo ∧ schema = schemaToo := by
  refine ⟨⟨?_, ?_⟩, ?_⟩
  · rw [account.graph, accountToo.graph, graph]
  · rw [account.computation, accountToo.computation, computation]
  · have declaredToo := accountToo.declared
    rw [computation, account.declared] at declaredToo
    exact Except.ok.inj declaredToo

/-- The boards in front of each superstep of both runs are alike, and so are the verdicts on it, whatever
number of supersteps each of them is allowed. -/
theorem alike_of_eq (account : e.Account executor result after schema job board)
    (accountToo : f.Account other resultToo afterToo schemaToo jobToo boardToo)
    (graph : f.graph = e.graph) (computation : f.computation = e.computation)
    (steps : job.Steps schema (GraphView.nodeCount e.graph) board result.supersteps)
    (stepsToo : jobToo.Steps schemaToo (GraphView.nodeCount f.graph) boardToo resultToo.supersteps)
    (agrees : OrderAgrees e.computation.reducer executor other) :
    ∀ s, (s ≤ result.supersteps → s ≤ resultToo.supersteps →
        (job.boardAt board s).Alike (GraphView.nodeCount e.graph) (jobToo.boardAt boardToo s)) ∧
      (s < result.supersteps → s < resultToo.supersteps →
        jobToo.verdictAt boardToo s = job.verdictAt board s) := by
  obtain ⟨jobs, rfl⟩ := account.kin_of_eq accountToo graph computation
  have start : board.Alike (GraphView.nodeCount e.graph) boardToo := by
    have mailToo := accountToo.mail
    rw [graph, computation, account.mail] at mailToo
    refine ⟨?_, fun node _ => ?_, ?_⟩
    · rw [account.store, accountToo.store, graph]
    · rw [account.votes, accountToo.votes, graph]
    · rw [Except.ok.inj mailToo]
      exact .refl _
  refine Job.side_by_side start fun s below belowToo alike => ?_
  obtain ⟨letters, stop, stepped⟩ := steps s below
  obtain ⟨lettersToo, stopToo, steppedToo⟩ := stepsToo s belowToo
  rw [graph] at steppedToo
  refine Job.Stepped.alike jobs alike stepped steppedToo
    (Job.Stepped.sameMail jobs alike ?_ stepped steppedToo)
  rw [account.computation, account.executor, accountToo.executor]
  exact agrees

/-- Runs of engines that are alike but for how their work is split have the same result, and every node does
the same in every superstep. -/
theorem independent (account : e.Account executor result after schema job board)
    (accountToo : f.Account other resultToo afterToo schemaToo jobToo boardToo) (kin : e.Kin f)
    (steps : job.Steps schema (GraphView.nodeCount e.graph) board result.supersteps)
    (stepsToo : jobToo.Steps schemaToo (GraphView.nodeCount f.graph) boardToo resultToo.supersteps)
    (agrees : OrderAgrees e.computation.reducer executor other) :
    resultToo = result ∧ ∀ s node,
      eventsOf afterToo.record.toList s node = eventsOf after.record.toList s node ∧
      computesOf afterToo.record.toList s node = computesOf after.record.toList s node := by
  obtain ⟨jobs, rfl⟩ := account.kin_of_eq accountToo kin.graph kin.computation
  have alike := account.alike_of_eq accountToo kin.graph kin.computation steps stepsToo agrees
  have reachedToo := accountToo.reached
  rw [kin.allowed] at reachedToo
  obtain ⟨supersteps, outcome⟩ := account.reached.unique reachedToo fun s => (alike s).2
  have store := ((alike result.supersteps).1 (Nat.le_refl _) (Nat.le_of_eq supersteps.symm)).store
  refine ⟨account.result_eq accountToo supersteps outcome store, fun s node => ?_⟩
  have events : eventsOf afterToo.record.toList s node = eventsOf after.record.toList s node := by
    by_cases here : s < result.supersteps ∧ node < GraphView.nodeCount e.graph
    · have belowToo : s < resultToo.supersteps := supersteps ▸ here.1
      rw [account.eventsOf_record steps here.1 here.2,
        accountToo.eventsOf_record stepsToo belowToo (kin.graph ▸ here.2)]
      rw [jobs.deed ((alike s).1 (Nat.le_of_lt here.1) (Nat.le_of_lt belowToo)) schema s here.2]
    · rw [account.eventsOf_beyond steps here, accountToo.eventsOf_beyond stepsToo]
      rw [supersteps, kin.graph]
      exact here
  refine ⟨events, ?_⟩
  rw [← computesOf_eventsOf, events, computesOf_eventsOf]

end Account

/-! ## The theorem -/

/-- Runs of engines that are alike but for how their work is split have the same result, and every node
does the same in every superstep, whatever the orders in which their tasks were executed. -/
theorem independence {e f after afterToo : Engine γ M} {executor other : Nat → Executor (Board M)}
    {result resultToo : RunResult} (kin : e.Kin f) (fresh : e.Fresh) (freshToo : f.Fresh)
    (turns : ∀ s, (executor s).TakesTurns Board.raised)
    (turnsToo : ∀ s, (other s).TakesTurns Board.raised)
    (agrees : OrderAgrees e.computation.reducer executor other)
    (ran : e.runWith executor = (.ok result, after)) (calm : result.outcome ≠ .cancelled)
    (ranToo : f.runWith other = (.ok resultToo, afterToo)) (calmToo : resultToo.outcome ≠ .cancelled) :
    resultToo = result ∧ ∀ s node,
      eventsOf afterToo.record.toList s node = eventsOf after.record.toList s node ∧
      computesOf afterToo.record.toList s node = computesOf after.record.toList s node := by
  obtain ⟨schema, job, board, account⟩ := Engine.account fresh ran calm
  obtain ⟨schemaToo, jobToo, boardToo, accountToo⟩ := Engine.account freshToo ranToo calmToo
  exact account.independent accountToo kin (account.steps turns) (accountToo.steps turnsToo) agrees

/-- Two nodes that greet each other, and what they hear is summed up on its way. -/
def summingEngine : Engine RowGraph Int64 :=
  { greetingEngine with computation := { greeting with reducer := some .sum } }

/-- The same with a single task for both nodes. -/
def unsplitEngine : Engine RowGraph Int64 :=
  { summingEngine with config := { summingEngine.config with minBatchSize := 2 } }

/-- Executes the tasks of each superstep from the last one to the first one. -/
def backwards (_ : Nat) : Executor (Board Int64) := fun tasks s =>
  inOrder Board.raised (List.range tasks.length).reverse tasks s

theorem backwards_takesTurns (s : Nat) : (backwards s).TakesTurns Board.raised := fun works s =>
  ⟨(List.range works.length).reverse, List.reverse_perm _, by simp [backwards, singles]⟩

/-- It makes no difference if the nodes are in one task, or in two that are executed backwards. -/
theorem independence_summing : ∃ result after resultToo afterToo,
    summingEngine.runWith backwards = (.ok result, after) ∧
    unsplitEngine.run = (.ok resultToo, afterToo) ∧
    resultToo = result ∧ ∀ s node,
      eventsOf afterToo.record.toList s node = eventsOf after.record.toList s node ∧
      computesOf afterToo.record.toList s node = computesOf after.record.toList s node := by
  have evaluated : (summingEngine.runWith backwards).1.toOption.map RunResult.outcome =
      some .converged := by decide +kernel
  have evaluatedToo : unsplitEngine.run.1.toOption.map RunResult.outcome = some .converged := by
    decide +kernel
  cases ran : (summingEngine.runWith backwards).1 with
  | error error => simp [ran, Except.toOption] at evaluated
  | ok result =>
    cases ranToo : unsplitEngine.run.1 with
    | error error => simp [ranToo, Except.toOption] at evaluatedToo
    | ok resultToo =>
      simp only [ran, ranToo, Except.toOption, Option.map_some, Option.some.injEq] at evaluated evaluatedToo
      have one : summingEngine.runWith backwards = (.ok result, (summingEngine.runWith backwards).2) :=
        Prod.ext ran rfl
      have two : unsplitEngine.runWith unsplitEngine.onPool = (.ok resultToo, unsplitEngine.run.2) :=
        Prod.ext ranToo rfl
      have kin : summingEngine.Kin unsplitEngine := ⟨rfl, rfl, rfl⟩
      have agrees : OrderAgrees summingEngine.computation.reducer backwards unsplitEngine.onPool :=
        .inr (.inl ⟨.sum, rfl, Reducer.orderFree_sum⟩)
      have same := independence kin ⟨rfl, rfl, rfl⟩ ⟨rfl, rfl, rfl⟩ backwards_takesTurns
        (fun s => (inSequence_onPool unsplitEngine s).takesTurns) agrees one (by simp [evaluated]) two
        (by simp [evaluatedToo])
      exact ⟨result, _, resultToo, _, one, two, same⟩

end Engine
end BulkSync
