import BulkSync.Proofs.Engine.Letters

/-! # Delivery and activation

The record of a run says when a node sleeps: it has voted to halt and has not computed since
(`Asleep`). These are the nodes whose vote is set (`Account.vote_iff`). From the record alone it can be
told which nodes compute in a superstep, and with which messages: a node computes once if it is awake
or a message was sent to it in the superstep before, and it is handed exactly those messages
(`delivery_and_activation`). That a node is set up or computes means that the code of the computation is run
for it, and the record, the numbers and the votes are what this code makes of them (`Job.Performs`). -/

namespace BulkSync

open Rows (itemsOf)

variable {γ M : Type} [GraphView γ] [Element M]

/-! ## Activity -/

/-- A node has voted to halt before a superstep, and has not computed since. -/
def Asleep (record : List (Event M)) (s node : Nat) : Prop :=
  ∃ t < s, .halt t node ∈ record ∧ ∀ u, t < u → u < s → computesOf record u node = []

/-- A node is active in a superstep: in the first one, if it is awake, or if a message was sent to it in
the superstep before. -/
def Active (record : List (Event M)) (s node : Nat) : Prop :=
  s = 0 ∨ ¬ Asleep record s node ∨ ∃ source message, .send (s - 1) source node message ∈ record

omit [Element M] in
/-- A node is asleep after a superstep if it has voted in it, or has slept through it. -/
theorem asleep_succ {record : List (Event M)} {s node : Nat} : Asleep record (s + 1) node ↔
    .halt s node ∈ record ∨ computesOf record s node = [] ∧ Asleep record s node := by
  constructor
  · rintro ⟨t, before, voted, slept⟩
    rcases Nat.eq_or_lt_of_le (Nat.le_of_lt_succ before) with rfl | earlier
    · exact .inl voted
    · exact .inr ⟨slept s earlier (Nat.lt_succ_self s),
        t, earlier, voted, fun u later below => slept u later (Nat.lt_succ_of_lt below)⟩
  · rintro (now | ⟨silent, t, before, voted, slept⟩)
    · exact ⟨s, Nat.lt_succ_self s, now, fun u later below => by omega⟩
    · refine ⟨t, Nat.lt_succ_of_lt before, voted, fun u later below => ?_⟩
      rcases Nat.eq_or_lt_of_le (Nat.le_of_lt_succ below) with rfl | earlier
      · exact silent
      · exact slept u later earlier

/-- What was sent to a node in the superstep before. -/
def received (nodes : Nat) (record : List (Event M)) : Nat → Nat → List M
  | 0, _ => []
  | s + 1, node => sentTo nodes record s node

/-- A node does in a superstep what the computation's own code says. In the first superstep the code of the
set-up is run on what there is of the node, and if the node computes, the code of the superstep is run with the
messages that it is handed and with its vote down. No other code is run for it: its events, its numbers and its
vote are those that these runs leave. -/
structure Job.Performs [GraphView γ] (job : Job γ M) (schema : Schema) (record : List (Event M)) (b : Board M)
    (s node : Nat) (ready deed : Deed M) : Prop where
  setUp : if s = 0 then
      ((job.computation.setup ⟨node, GraphView.nodeCount job.graph⟩).run
        (Deed.setup job.graph schema node)).outcome ((b.share node).note (.setup node)) = (.ok (), ready)
    else ready = b.share node
  compute : computesOf record s node = [] ∧ deed = ready ∨
    ∃ messages, computesOf record s node = [messages] ∧
      ((job.computation.compute ⟨node, s, GraphView.nodeCount job.graph⟩ messages.toList).run
        (Deed.vertex job.graph schema s node)).outcome
          ({ ready with halted := false }.note (.compute s node messages)) = (.ok (), deed)
  events : eventsOf record s node = deed.events
  numbers : ∀ index, (job.left s b).store.word index node = deed.row index
  vote : (job.superstep s b).2.votes.test node = deed.halted

/-- A node is set up once: in the first superstep, before anything else happens to it. -/
def SetUpOnce (record : List (Event M)) (node : Nat) : Prop :=
  ∃ before after, record = before ++ .setup node :: after ∧
    (∀ event ∈ before, ∃ other, event.node? = some other ∧ other ≠ node) ∧ .setup node ∉ after

namespace Engine.Account

variable {e after : Engine γ M} {executor : Nat → Executor (Board M)} {result : RunResult}
  {schema : Schema} {job : Job γ M} {board : Board M}
  (account : e.Account executor result after schema job board)
  (steps : job.Steps schema (GraphView.nodeCount e.graph) board result.supersteps)

include account steps

/-- The board in front of each superstep holds letters of the one before. -/
theorem ready_boardAt {s : Nat} (within : s ≤ result.supersteps) :
    ∃ slots letters, (job.boardAt board s).Ready schema (GraphView.nodeCount e.graph) slots
      e.computation.reducer letters ∧ ∀ node < GraphView.nodeCount e.graph,
        (itemsOf letters node).Perm
          (received (GraphView.nodeCount e.graph) after.record.toList s node) ∧
        ((e.computation.reducer = none ∨ ∀ s, (executor s).InSequence Board.raised) →
          itemsOf letters node =
            received (GraphView.nodeCount e.graph) after.record.toList s node) := by
  cases s with
  | zero => exact ⟨0, [], account.ready, fun node _ => ⟨.refl _, fun _ => rfl⟩⟩
  | succ s =>
    obtain ⟨letters, stop, stepped⟩ := steps s within
    refine ⟨_, _, account.computation ▸ stepped.ready, fun node inside => ?_⟩
    rw [received, account.sentTo_record steps within]
    refine ⟨stepped.sent.filterMap _, fun inOrder => ?_⟩
    rw [stepped.inOrder]
    rw [account.computation, account.executor]
    exact inOrder.imp_right fun sequential => sequential s

theorem computesOf_record {s node : Nat} (below : s < result.supersteps)
    (inside : node < GraphView.nodeCount e.graph) : computesOf after.record.toList s node =
      if (job.boardAt board s).wakes node then [(job.boardAt board s).mail.messages node] else [] := by
  obtain ⟨letters, stop, stepped⟩ := steps s below
  rw [← computesOf_eventsOf, account.eventsOf_record steps below inside]
  exact (stepped.acts node inside).computesOf_events

/-- What a node does in a superstep is what the computation's own code says. -/
theorem performs {s node : Nat} (below : s < result.supersteps)
    (inside : node < GraphView.nodeCount e.graph) :
    ∃ ready deed, job.Performs schema after.record.toList (job.boardAt board s) s node ready deed := by
  obtain ⟨letters, stop, stepped⟩ := steps s below
  obtain ⟨ready, setUp, computed⟩ := Deed.visit_runs rfl (stepped.acts node inside)
  have computes := account.computesOf_record steps below inside
  rw [Board.wakes_share] at computed
  refine ⟨ready, _, ?_, ?_, account.eventsOf_record steps below inside,
    fun index => stepped.word index node inside, stepped.vote node inside⟩
  · rw [Deed.setUp] at setUp
    split at setUp
    · next first =>
      obtain ⟨_, noted, note, runs⟩ := Attempt.outcome_bind_ok setUp
      cases note
      rw [if_pos first]
      exact runs
    · next later =>
      cases setUp
      rw [if_neg later]
  · split at computed
    · next awake =>
      obtain ⟨_, noted, note, runs⟩ := Attempt.outcome_bind_ok computed
      cases note
      exact .inr ⟨_, by rw [computes, if_pos awake], runs⟩
    · next asleep => exact .inl ⟨by rw [computes, if_neg asleep], computed⟩

/-- A node that computes votes if that is one of its acts. -/
theorem halt_mem_record {s node : Nat} (below : s < result.supersteps)
    (inside : node < GraphView.nodeCount e.graph) : .halt s node ∈ after.record.toList ↔
      (job.boardAt board s).wakes node = true ∧
        (job.deed schema s (job.boardAt board s) node).halted = true := by
  obtain ⟨letters, stop, stepped⟩ := steps s below
  obtain ⟨acts, shape, events, vote⟩ := (stepped.acts node inside).shape
  have recorded : .halt s node ∈ after.record.toList ↔
      .halt s node ∈ (job.deed schema s (job.boardAt board s) node).events := by
    rw [← account.eventsOf_record steps below inside, mem_eventsOf]
    simp [Event.superstep, Event.node?]
  rw [recorded, events, vote]
  by_cases wakes : (job.boardAt board s).wakes node = true
  · rw [if_pos wakes, if_pos wakes, List.any_eq_true]
    constructor
    · intro member
      refine ⟨wakes, .halt s node, ?_, rfl⟩
      rcases List.mem_append.mp member with setUp | computed
      · split at setUp <;> simp at setUp
      · simpa using computed
    · rintro ⟨-, event, member, isHalt⟩
      cases shape event member with
      | send target message => cases isHalt
      | halt => exact List.mem_append_right _ (List.mem_cons_of_mem _ member)
  · rw [if_neg wakes, if_neg wakes]
    refine iff_of_false (fun member => ?_) fun both => wakes both.1
    rw [List.append_nil] at member
    split at member <;> simp at member

/-- The vote of a node is set in front of a superstep if it is asleep. -/
theorem vote_iff {s node : Nat} (within : s ≤ result.supersteps)
    (inside : node < GraphView.nodeCount e.graph) :
    (job.boardAt board s).votes.test node = true ↔ Asleep after.record.toList s node := by
  induction s with
  | zero =>
    rw [Job.boardAt, account.votes, BitSet.test_new inside]
    simp [Asleep]
  | succ s inductionHypothesis =>
    have below : s < result.supersteps := within
    have slept := inductionHypothesis (Nat.le_of_lt below)
    obtain ⟨letters, stop, stepped⟩ := steps s below
    obtain ⟨_, _, _, vote⟩ := (stepped.acts node inside).shape
    rw [asleep_succ, account.halt_mem_record steps below inside,
      account.computesOf_record steps below inside, ← slept, stepped.vote node inside]
    -- a node that wakes has voted in this superstep or not at all, and one that sleeps on keeps its vote
    by_cases wakes : (job.boardAt board s).wakes node = true
    · simp [wakes]
    · have set : (job.boardAt board s).votes.test node = true := by
        cases test : (job.boardAt board s).votes.test node with
        | true => rfl
        | false => simp [Board.wakes, test] at wakes
      simp [vote, wakes, set]

theorem received_ne_nil_iff (s node : Nat) :
    received (GraphView.nodeCount e.graph) after.record.toList s node ≠ [] ↔
      s ≠ 0 ∧ ∃ source message, .send (s - 1) source node message ∈ after.record.toList := by
  cases s with
  | zero => simp [received]
  | succ s =>
    rw [received, sentTo, ne_eq, List.flatMap_eq_nil_iff]
    constructor
    · intro some
      refine ⟨Nat.succ_ne_zero s, ?_⟩
      by_contra none
      refine some fun source _ => List.eq_nil_iff_forall_not_mem.mpr fun message member => none ?_
      exact ⟨source, message, mem_messagesOf.mp member⟩
    · rintro ⟨-, source, message, member⟩ none
      have inside := (account.mem_record steps member).2 source rfl
      have empty := none source (List.mem_range.mpr inside)
      exact List.not_mem_nil (empty ▸ mem_messagesOf.mpr member)

/-- A node wakes in a superstep if it is active. -/
theorem wakes_iff {s node : Nat} (below : s < result.supersteps)
    (inside : node < GraphView.nodeCount e.graph) :
    (job.boardAt board s).wakes node = true ↔ Active after.record.toList s node := by
  obtain ⟨slots, letters, ready, arrived⟩ := account.ready_boardAt steps (Nat.le_of_lt below)
  have asleep := account.vote_iff steps (Nat.le_of_lt below) inside
  -- what has arrived is a permutation of what was sent, and there is some if there was some
  have some : (job.boardAt board s).mail.hasMessages node = true ↔
      s ≠ 0 ∧ ∃ source message, .send (s - 1) source node message ∈ after.record.toList := by
    rw [← account.received_ne_nil_iff steps, ready.mail.hasMessages_iff inside, Bool.not_eq_true',
      List.isEmpty_eq_false_iff, ne_eq, ne_eq, ← List.length_eq_zero_iff, (arrived node inside).1.length_eq,
      List.length_eq_zero_iff]
  rw [Board.wakes, Bool.or_eq_true, some, Active, ← asleep, Bool.not_eq_true', Bool.not_eq_true]
  rcases Nat.eq_zero_or_pos s with rfl | later
  · simp [Job.boardAt, account.votes, BitSet.test_new inside]
  · simp [Nat.ne_of_gt later]

theorem setUpOnce (any : 0 < result.supersteps) {node : Nat}
    (inside : node < GraphView.nodeCount e.graph) : SetUpOnce after.record.toList node := by
  obtain ⟨letters, stop, stepped⟩ := steps 0 any
  obtain ⟨rest, shape, events, _⟩ := (stepped.acts node inside).shape
  obtain ⟨acts, recorded, segment⟩ := stepped.segment_eq
  obtain ⟨count, counted⟩ : ∃ count, result.supersteps = count + 1 := ⟨result.supersteps - 1, by omega⟩
  -- the set-up is the first event of the node in the first superstep, so that those before it are of others
  have own := recorded.each node inside
  rw [events, if_pos rfl, List.singleton_append, eventsOf, List.filter_eq_cons_iff] at own
  obtain ⟨earlier, later, split, others, _, computed⟩ := own
  have record := account.record_eq steps
  rw [counted, List.range_succ_eq_map, List.flatMap_cons, segment, split] at record
  simp only [List.append_assoc, List.cons_append, List.nil_append] at record
  refine ⟨_, _, record, fun event member => ?_, ?_⟩
  · obtain ⟨superstep, other, _, of⟩ := recorded.own event (split ▸ List.mem_append_left _ member)
    refine ⟨other, of, ?_⟩
    rintro rfl
    exact others event member (Event.isOf_iff.mpr ⟨superstep, of⟩)
  · intro again
    simp only [List.mem_append, List.mem_cons, List.mem_flatMap, List.mem_map, reduceCtorEq,
      false_or] at again
    rcases again with here | ⟨s, ⟨t, inRange, rfl⟩, own⟩
    · have among : .setup node ∈ later.filter (Event.isOf 0 node) :=
        List.mem_filter.mpr ⟨here, by simp [Event.isOf, Event.superstep, Event.node?]⟩
      rw [computed] at among
      split at among
      · rcases List.mem_cons.mp among with first | acted
        · cases first
        · cases shape _ acted
      · cases among
    -- a later superstep has no set-up at all
    · have below : t + 1 < result.supersteps := by
        have bound := List.mem_range.mp inRange
        omega
      obtain ⟨_, _, steppedThen⟩ := steps (t + 1) below
      exact absurd (steppedThen.of_segment _ own).1 (Nat.succ_ne_zero t).symm

end Engine.Account

/-! ## The theorem -/

namespace Engine

/-- What a run has done about set-up, activation and delivery, told by its record. -/
structure Delivers (e : Engine γ M) (executor : Nat → Executor (Board M)) (result : RunResult)
    (record : List (Event M)) : Prop where
  /-- Each node is set up once, in the first superstep, before it computes. -/
  setUp : ∀ node < GraphView.nodeCount e.graph, SetUpOnce record node
  /-- Nothing happens beyond the supersteps and the nodes. -/
  inside : ∀ event ∈ record, event.superstep < result.supersteps ∧
    ∀ node, event.node? = some node → node < GraphView.nodeCount e.graph
  /-- The votes that are set are those of the nodes that are asleep. -/
  votes : ∃ job board, e.prepare executor = .ok (job, board) ∧ ∀ s ≤ result.supersteps,
    ∀ node < GraphView.nodeCount e.graph,
      (job.boardAt board s).votes.test node = true ↔ Asleep record s node
  /-- Being set up and computing is to run the computation's own code, and no other code is run. -/
  performs : ∃ schema job board, e.computation.schema = .ok schema ∧
    e.prepare executor = .ok (job, board) ∧ ∀ s < result.supersteps, ∀ node < GraphView.nodeCount e.graph,
      ∃ ready deed, job.Performs schema record (job.boardAt board s) s node ready deed
  /-- A node that is not active does not compute. -/
  idle : ∀ s < result.supersteps, ∀ node < GraphView.nodeCount e.graph,
    ¬ Active record s node → computesOf record s node = []
  /-- An active node computes once, and is handed what was sent to it in the superstep before: by
  ascending sender without a reducer or if the tasks are executed in sequence, folded if there is a
  reducer. -/
  computes : ∀ s < result.supersteps, ∀ node < GraphView.nodeCount e.graph, Active record s node →
    ∃ messages arrived, computesOf record s node = [messages] ∧
      Delivered e.computation.reducer arrived messages.toList ∧
      arrived.Perm (received (GraphView.nodeCount e.graph) record s node) ∧
      ((e.computation.reducer = none ∨ ∀ s, (executor s).InSequence Board.raised) →
        arrived = received (GraphView.nodeCount e.graph) record s node)

/-- A run whose supersteps do what the deeds say sets nodes up, activates them and delivers their messages. -/
theorem Account.delivers {e after : Engine γ M} {executor : Nat → Executor (Board M)} {result : RunResult}
    {schema : Schema} {job : Job γ M} {board : Board M}
    (account : e.Account executor result after schema job board)
    (steps : job.Steps schema (GraphView.nodeCount e.graph) board result.supersteps) (fresh : e.Fresh) :
    e.Delivers executor result after.record.toList where
  setUp node inside := account.setUpOnce steps (account.positive fresh) inside
  inside event member := account.mem_record steps member
  votes := ⟨job, board, account.prepared, fun s within node inside => account.vote_iff steps within inside⟩
  performs := ⟨schema, job, board, account.declared, account.prepared,
    fun s below node inside => account.performs steps below inside⟩
  idle s below node inside idle := by
    rw [account.computesOf_record steps below inside,
      if_neg fun wakes => idle ((account.wakes_iff steps below inside).mp wakes)]
  computes s below node inside active := by
    obtain ⟨slots, letters, ready, arrived⟩ := account.ready_boardAt steps (Nat.le_of_lt below)
    obtain ⟨permuted, inOrder⟩ := arrived node inside
    refine ⟨_, _, ?_, ready.mail.delivered inside, permuted, inOrder⟩
    rw [account.computesOf_record steps below inside,
      if_pos ((account.wakes_iff steps below inside).mpr active)]

/-- Every run that has a result and was not cancelled sets nodes up, activates them and delivers their
messages as its record says, whatever its configuration and however its tasks took turns. -/
theorem delivery_and_activation {e after : Engine γ M} {executor : Nat → Executor (Board M)}
    {result : RunResult} (fresh : e.Fresh) (turns : ∀ s, (executor s).TakesTurns Board.raised)
    (ran : e.runWith executor = (.ok result, after)) (calm : result.outcome ≠ .cancelled) :
    e.Delivers executor result after.record.toList := by
  obtain ⟨schema, job, board, account⟩ := Engine.account fresh ran calm
  exact account.delivers (account.steps turns) fresh

/-- Two nodes that greet each other are set up, compute twice, and hear each other. -/
theorem delivery_and_activation_greeting : ∃ result after,
    greetingEngine.run = (.ok result, after) ∧ result.supersteps = 2 ∧
      greetingEngine.Delivers greetingEngine.onPool result after.record.toList := by
  obtain ⟨result, ran, supersteps, calm⟩ := greeting_runs
  exact ⟨result, greetingEngine.run.2, Prod.ext ran rfl, supersteps,
    delivery_and_activation fresh_greeting (fun s => (inSequence_onPool _ s).takesTurns)
      (Prod.ext ran rfl) (by simp [calm])⟩

end Engine
end BulkSync
