import BulkSync.Proofs.Engine.Independence
import BulkSync.Proofs.Engine.Stopping
import BulkSync.Proofs.Vertex.Folding

/-! # Reduction on the way

A computation that uses its messages only through their fold can be run with a reducer, which folds them on
their way, or without one, which keeps them all. In front of every superstep the boards of the two runs
hold the same numbers and votes, and what a node reads from the one mailbox is the fold of what it reads
from the other, if it reads anything (`Board.Condenses`). One superstep keeps that so, since the deeds of
all nodes are alike (`Condenses.like`); so both runs have the same result and the same nodes compute in
every superstep (`reduction`). -/

namespace BulkSync

open Rows (itemsOf)

variable {γ M : Type} [GraphView γ] [Element M]

/-- A board on which messages are reduced beside one on which they are queued: of every node they hold the
same, and for it the messages of the one are those of the other, folded in some order. -/
structure Board.Condenses (r : Reducer M) (nodes : Nat) (reduced queued : Board M) : Prop where
  store : reduced.store = queued.store
  vote : ∀ node < nodes, reduced.votes.test node = queued.votes.test node
  mail : ∀ node < nodes, ∃ sent : List M, sent.Perm (queued.mail.messages node).toList ∧
    Delivered (some r) sent (reduced.mail.messages node).toList

/-! ## One node -/

section Node

variable {r : Reducer M} {sent : List M} {messages others : Messages M}

omit [GraphView γ] in
/-- There is something to read where messages are reduced if there is where they are queued. -/
theorem Delivered.isEmpty_eq (same : sent.Perm messages.toList)
    (delivered : Delivered (some r) sent others.toList) : others.isEmpty = messages.isEmpty := by
  rw [Messages.isEmpty_eq, Messages.isEmpty_eq, ← same.isEmpty_eq]
  cases sent with
  | nil =>
    have none : others.toList = [] := delivered
    rw [none]
  | cons message rest =>
    obtain ⟨value, _, one⟩ := delivered
    rw [one]
    rfl

omit [GraphView γ] in
/-- What is read has the same fold, if the fold of the queued messages does not fail. -/
theorem Delivered.fold (free : r.OrderFree) (neutral : ∀ message, r.reduce r.identity message = .ok message)
    (same : sent.Perm messages.toList) (delivered : Delivered (some r) sent others.toList) :
    ∃ value, r.foldFrom r.identity others.toList = .ok value ∧
      ∀ result, r.foldFrom r.identity messages.toList = .ok result → result = value := by
  cases sent with
  | nil =>
    have none : others.toList = [] := delivered
    have noneToo : messages.toList = [] := List.nil_perm.mp same
    rw [none, noneToo]
    exact ⟨r.identity, rfl, fun result folded => (Except.ok.inj folded).symm⟩
  | cons message rest =>
    obtain ⟨value, folded, one⟩ := delivered
    refine ⟨value, ?_, fun result foldedToo => free.foldFrom_perm same.symm foldedToo folded⟩
    rw [one]
    change r.reduce r.identity value >>= pure = _
    rw [neutral]
    rfl

end Node

/-! ## One superstep of both -/

/-- A job whose messages are reduced beside the same one in which they are queued. -/
structure Job.Reduces (r : Reducer M) (reduced queued : Job γ M) : Prop where
  graph : reduced.graph = queued.graph
  reducer : reduced.computation.reducer = some r
  computation : queued.computation = { reduced.computation with reducer := none }

section Superstep

variable {r : Reducer M} {reduced queued : Job γ M} {schema : Schema} {nodes s node : Nat}
  {b c after afterToo : Board M} {letters lettersToo : List (Nat × M)} {stop stopToo : Bool}
  {verdict verdictToo : Verdict}

/-- The deeds of a node are alike: it cannot tell how its messages were delivered. -/
theorem Board.Condenses.like (condenses : b.Condenses r nodes c) (reduces : reduced.Reduces r queued)
    (uses : reduced.computation.UsesFold r) (free : r.OrderFree)
    (neutral : ∀ message, r.reduce r.identity message = .ok message) (inside : node < nodes)
    (acts : queued.Acts schema s c node) :
    (queued.deed schema s c node).Like (reduced.deed schema s b node) := by
  obtain ⟨sent, same, delivered⟩ := condenses.mail node inside
  obtain ⟨value, foldsToo, unique⟩ := delivered.fold free neutral same
  have share : b.share node = c.share node := by
    rw [Board.share, Board.share, condenses.store, condenses.vote node inside]
  rw [Job.Acts, reduces.computation] at acts
  obtain ⟨next, visits, like⟩ := Deed.visit_folded uses (delivered.isEmpty_eq same) foldsToo unique acts
  have deed : reduced.deed schema s b node = next := by
    rw [Job.deed, reduces.graph, share]
    exact congrArg Prod.snd visits
  rw [deed]
  exact like

/-- Two supersteps that start from such boards end with such boards and come to the same verdict. -/
theorem Board.Condenses.stepped (condenses : b.Condenses r nodes c) (reduces : reduced.Reduces r queued)
    (uses : reduced.computation.UsesFold r) (free : r.OrderFree)
    (neutral : ∀ message, r.reduce r.identity message = .ok message)
    (stepped : reduced.Stepped schema nodes s b letters stop verdict after)
    (steppedToo : queued.Stepped schema nodes s c lettersToo stopToo verdictToo afterToo) :
    after.Condenses r nodes afterToo ∧ verdict = verdictToo ∧
      ∀ node < nodes, (queued.deed schema s c node).Like (reduced.deed schema s b node) := by
  have like : ∀ node < nodes, (queued.deed schema s c node).Like (reduced.deed schema s b node) :=
    fun node inside =>
      condenses.like reduces uses free neutral inside (steppedToo.acts node inside)
  have consults : reduced.consult s = queued.consult s := by
    rw [Job.consult, Job.consult, reduces.graph, reduces.computation]
  obtain ⟨store, vote, verdicts⟩ := steppedToo.agree stepped consults like
  have sent : lettersOf (reduced.deed schema s b) (List.range nodes) =
      lettersOf (queued.deed schema s c) (List.range nodes) :=
    lettersOf_congr fun node member => (like node (List.mem_range.mp member)).letters
  refine ⟨⟨store, vote, fun node inside => ?_⟩, verdicts, like⟩
  have holds := stepped.ready.mail
  have holdsToo := steppedToo.ready.mail
  have none : queued.computation.reducer = none := by rw [reduces.computation]
  rw [reduces.reducer] at holds
  rw [none] at holdsToo
  refine ⟨itemsOf letters node, ?_, holds.delivered inside⟩
  -- the same letters are on their way, and a queue hands them all over
  have received : (afterToo.mail.messages node).toList = itemsOf lettersToo node := holdsToo.delivered inside
  rw [received, steppedToo.inOrder (.inl none), ← sent]
  exact stepped.sent.filterMap _

end Superstep

/-! ## Two runs -/

omit [GraphView γ] [Element M] in
/-- Events that are the same but for the messages in them say of the same nodes that they compute. -/
theorem length_computesOf {record other : List (Event M)} {s node : Nat}
    (same : (eventsOf other s node).map Event.bare = (eventsOf record s node).map Event.bare) :
    (computesOf other s node).length = (computesOf record s node).length := by
  have bare : ∀ events : List (Event M), (computesOf events s node).length =
      (computesOf (events.map Event.bare) s node).length := by
    intro events
    rw [computesOf, computesOf, List.filterMap_map, List.length_filterMap_eq_countP,
      List.length_filterMap_eq_countP]
    congr 1
    funext event
    cases event <;> simp only [Function.comp, Event.bare, Event.messages?]
    split <;> rfl
  rw [← computesOf_eventsOf, ← computesOf_eventsOf record, bare, same, ← bare]

namespace Engine

/-- An engine whose computation has a reducer, beside one without it that is alike otherwise, but perhaps
for how the work is split. -/
structure Reduces (r : Reducer M) (e f : Engine γ M) : Prop where
  graph : e.graph = f.graph
  reducer : e.computation.reducer = some r
  computation : f.computation = { e.computation with reducer := none }
  allowed : e.config.maxIterations = f.config.maxIterations

namespace Account

variable {r : Reducer M} {e f after afterToo : Engine γ M} {executor other : Nat → Executor (Board M)}
  {result resultToo : RunResult} {schema schemaToo : Schema} {job jobToo : Job γ M}
  {board boardToo : Board M}

theorem reduces (account : e.Account executor result after schema job board)
    (accountToo : f.Account other resultToo afterToo schemaToo jobToo boardToo) (reduces : e.Reduces r f) :
    job.Reduces r jobToo ∧ schema = schemaToo := by
  refine ⟨⟨?_, ?_, ?_⟩, ?_⟩
  · rw [account.graph, accountToo.graph, reduces.graph]
  · rw [account.computation, reduces.reducer]
  · rw [account.computation, accountToo.computation, reduces.computation]
  · have declaredToo := accountToo.declared
    rw [reduces.computation] at declaredToo
    exact Except.ok.inj (account.declared.symm.trans declaredToo)

/-- In the beginning there is nothing to read in either run. -/
theorem condenses (account : e.Account executor result after schema job board)
    (accountToo : f.Account other resultToo afterToo schema jobToo boardToo) (reduces : e.Reduces r f) :
    board.Condenses r (GraphView.nodeCount e.graph) boardToo := by
  refine ⟨?_, fun node _ => ?_, fun node inside => ⟨[], ?_, ?_⟩⟩
  · rw [account.store, accountToo.store, reduces.graph]
  · rw [account.votes, accountToo.votes, reduces.graph]
  · have ready := accountToo.ready
    rw [reduces.computation, ← reduces.graph] at ready
    have none : (boardToo.mail.messages node).toList = [] := ready.mail.delivered inside
    rw [none]
  · have delivered := account.ready.mail.delivered inside
    rw [reduces.reducer] at delivered
    exact delivered

section Two

variable (account : e.Account executor result after schema job board)
  (accountToo : f.Account other resultToo afterToo schema jobToo boardToo) (reduces : e.Reduces r f)
  (free : r.OrderFree) (neutral : ∀ message, r.reduce r.identity message = .ok message)
  (uses : e.computation.UsesFold r)
  (steps : job.Steps schema (GraphView.nodeCount e.graph) board result.supersteps)
  (stepsToo : jobToo.Steps schema (GraphView.nodeCount f.graph) boardToo resultToo.supersteps)

include account accountToo reduces free neutral uses steps stepsToo

theorem condenses_step {s : Nat} (below : s < result.supersteps) (belowToo : s < resultToo.supersteps)
    (condenses : (job.boardAt board s).Condenses r (GraphView.nodeCount e.graph)
      (jobToo.boardAt boardToo s)) :
    (job.boardAt board (s + 1)).Condenses r (GraphView.nodeCount e.graph) (jobToo.boardAt boardToo (s + 1)) ∧
      job.verdictAt board s = jobToo.verdictAt boardToo s ∧
      ∀ node < GraphView.nodeCount e.graph, (jobToo.deed schema s (jobToo.boardAt boardToo s) node).Like
        (job.deed schema s (job.boardAt board s) node) := by
  obtain ⟨letters, stop, stepped⟩ := steps s below
  obtain ⟨lettersToo, stopToo, steppedToo⟩ := stepsToo s belowToo
  rw [← reduces.graph] at steppedToo
  exact condenses.stepped (account.reduces accountToo reduces).1 (account.computation ▸ uses) free neutral
    stepped steppedToo

theorem condenses_boardAt (s : Nat) :
    (s ≤ result.supersteps → s ≤ resultToo.supersteps →
      (job.boardAt board s).Condenses r (GraphView.nodeCount e.graph) (jobToo.boardAt boardToo s)) ∧
    (s < result.supersteps → s < resultToo.supersteps →
      jobToo.verdictAt boardToo s = job.verdictAt board s) := by
  refine Job.side_by_side (account.condenses accountToo reduces) (fun s below belowToo condenses => ?_) s
  obtain ⟨next, verdicts, _⟩ := account.condenses_step accountToo reduces free neutral uses steps stepsToo
    below belowToo condenses
  exact ⟨next, verdicts.symm⟩

/-- The same happens to a node in both runs, but for the messages that it computes with. -/
theorem bare_eventsOf (supersteps : resultToo.supersteps = result.supersteps) (s node : Nat) :
    (eventsOf afterToo.record.toList s node).map Event.bare =
      (eventsOf after.record.toList s node).map Event.bare := by
  by_cases here : s < result.supersteps ∧ node < GraphView.nodeCount e.graph
  · obtain ⟨below, inside⟩ := here
    have belowToo : s < resultToo.supersteps := supersteps ▸ below
    have condenses := (account.condenses_boardAt accountToo reduces free neutral uses steps stepsToo s).1
      (Nat.le_of_lt below) (Nat.le_of_lt belowToo)
    obtain ⟨_, _, like⟩ := account.condenses_step accountToo reduces free neutral uses steps stepsToo
      below belowToo condenses
    rw [account.eventsOf_record steps below inside,
      accountToo.eventsOf_record stepsToo belowToo (reduces.graph ▸ inside)]
    exact (like node inside).events.symm
  -- nothing happens to what is no node, nor after the last superstep
  · rw [account.eventsOf_beyond steps here, accountToo.eventsOf_beyond stepsToo]
    rw [supersteps, ← reduces.graph]
    exact here

/-- Both runs have the same result, and the same happens to each node but for the messages that it computes
with. -/
theorem condensed : resultToo = result ∧ ∀ s node,
    (computesOf afterToo.record.toList s node).length = (computesOf after.record.toList s node).length ∧
      (eventsOf afterToo.record.toList s node).map Event.bare =
        (eventsOf after.record.toList s node).map Event.bare := by
  have same := account.condenses_boardAt accountToo reduces free neutral uses steps stepsToo
  have reachedToo := accountToo.reached
  rw [← reduces.allowed] at reachedToo
  obtain ⟨supersteps, outcome⟩ := account.reached.unique reachedToo fun s => (same s).2
  have store := ((same result.supersteps).1 (Nat.le_refl _) (Nat.le_of_eq supersteps.symm)).store.symm
  refine ⟨account.result_eq accountToo supersteps outcome store, fun s node => ?_⟩
  have events := account.bare_eventsOf accountToo reduces free neutral uses steps stepsToo supersteps s node
  exact ⟨length_computesOf events, events⟩

end Two

end Account

/-! ## The theorem -/

/-- A computation that uses its messages only through their fold has the same result with the reducer and
without it, and in every superstep the same happens to each node but for the messages that it computes with,
whatever the orders in which the tasks were executed. -/
theorem reduction {r : Reducer M} {e f : Engine γ M} {executor other : Nat → Executor (Board M)}
    (free : r.OrderFree) (neutral : ∀ message, r.reduce r.identity message = .ok message)
    (uses : e.computation.UsesFold r) (reduces : e.Reduces r f) (fresh : e.Fresh) (freshToo : f.Fresh)
    (turns : ∀ s, (executor s).TakesTurns Board.raised)
    (turnsToo : ∀ s, (other s).TakesTurns Board.raised)
    (unbroken : e.Unbroken executor) (unbrokenToo : f.Unbroken other) :
    ∃ result after resultToo afterToo, e.runWith executor = (.ok result, after) ∧
      f.runWith other = (.ok resultToo, afterToo) ∧ resultToo = result ∧ ∀ s node,
        (computesOf afterToo.record.toList s node).length =
          (computesOf after.record.toList s node).length ∧
        (eventsOf afterToo.record.toList s node).map Event.bare =
          (eventsOf after.record.toList s node).map Event.bare := by
  obtain ⟨result, after, ran, calm⟩ := unbroken_runs fresh unbroken
  obtain ⟨resultToo, afterToo, ranToo, calmToo⟩ := unbroken_runs freshToo unbrokenToo
  obtain ⟨schema, job, board, account⟩ := Engine.account fresh ran calm
  obtain ⟨schemaToo, jobToo, boardToo, accountToo⟩ := Engine.account freshToo ranToo calmToo
  obtain ⟨_, rfl⟩ := account.reduces accountToo reduces
  exact ⟨result, after, resultToo, afterToo, ran, ranToo, account.condensed accountToo reduces free neutral uses
    (account.steps turns) (accountToo.steps turnsToo)⟩

/-- Two nodes that greet each other, and what they hear is summed up on its way, wrapped around. -/
def wrappingEngine : Engine RowGraph Int64 :=
  { greetingEngine with computation := { greeting with reducer := some (.wrappingSum 0) } }

theorem greeting_usesFold : wrappingEngine.computation.UsesFold (.wrappingSum 0) := by
  refine ⟨fun view => if view.superstep = 0 then
      .ask (some (.sendToNeighbors (Int64.ofNat (view.node + 1)))) fun _ => .ask (some .halt) .done
    else .ask none fun heard => .ask (some (.setLong "heard" heard)) fun _ => .ask (some .halt) .done,
    fun view messages => ?_⟩
  have folded : (Reducer.wrappingSum 0).foldFrom (Reducer.wrappingSum 0).identity messages =
      .ok messages.sum := by
    rw [List.sum_eq_foldl]
    exact List.foldlM_pure (m := Except Fault)
  rw [folded]
  by_cases first : view.superstep = 0
  · simp only [wrappingEngine, greeting, first, if_true]
    rfl
  · simp only [wrappingEngine, greeting, first, if_false]
    rfl

/-- What two nodes hear can be summed up on its way, also if the nodes are executed backwards. -/
theorem reduction_greeting : ∃ result after resultToo afterToo,
    wrappingEngine.runWith backwards = (.ok result, after) ∧
      greetingEngine.run = (.ok resultToo, afterToo) ∧ resultToo = result ∧ ∀ s node,
        (computesOf afterToo.record.toList s node).length =
          (computesOf after.record.toList s node).length ∧
        (eventsOf afterToo.record.toList s node).map Event.bare =
          (eventsOf after.record.toList s node).map Event.bare := by
  have evaluated : (wrappingEngine.runWith backwards).1.toOption.map RunResult.outcome =
      some .converged := by decide +kernel
  have free : (Reducer.wrappingSum (0 : Int64)).OrderFree :=
    Reducer.orderFree_of_values id Function.injective_id (· + ·) fun _ _ _ summed =>
      (Except.ok.inj summed).symm
  have unbroken : wrappingEngine.Unbroken backwards := by
    cases ran : (wrappingEngine.runWith backwards).1 with
    | error error => simp [ran, Except.toOption] at evaluated
    | ok result =>
      simp only [ran, Except.toOption, Option.map_some, Option.some.injEq] at evaluated
      exact ⟨by simp [ran], by simp [ran], by simp [ran, evaluated]⟩
  exact reduction free (fun message => congrArg Except.ok (Int64.zero_add message)) greeting_usesFold
    ⟨rfl, rfl, rfl, rfl⟩ ⟨rfl, rfl, rfl⟩ fresh_greeting backwards_takesTurns
    (fun s => (inSequence_onPool _ s).takesTurns) unbroken
    (undisturbed_greeting.unbroken fresh_greeting fun s => (inSequence_onPool _ s).takesTurns)

end Engine
end BulkSync
