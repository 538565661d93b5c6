import BulkSync.Proofs.Engine.Step
import BulkSync.Proofs.Message.Acceptance

/-! # Supersteps that succeed

What a node does on the desk of a task can fail where its deed does not: a message may be to no node, the
fold of the messages may fail, and the report to a progress meter may do so too. If nothing of that kind
can happen (`Job.Unfailing`), a superstep in which all deeds succeed comes to a verdict
(`superstep_succeeds`), and what it has done is told by the deeds. -/

namespace BulkSync

variable {γ M : Type} [GraphView γ] [Element M]

/-! ## Nodes -/

/-- All neighbors of a node are nodes. -/
def Handler.LeadsInside (g : γ) (node : Nat) : Prop :=
  ∀ targets, Handler.targets g node = .ok targets → ∀ target ∈ targets, target < GraphView.nodeCount g

namespace Desk

/-- A desk at which a node has come to a deed, and at which nothing can fail but the deed. -/
structure Serves (schema : Schema) (nodes node : Nat) (start d : Desk M) (deed : Deed M) : Prop where
  follows : Follows schema nodes node start d deed
  accepts : d.board.mail.Accepts nodes
  unmetered : d.board.progress = none

namespace Serves

variable {schema : Schema} {nodes node : Nat} {start d : Desk M} {deed next : Deed M}

theorem note (serves : Serves schema nodes node start d deed) {event : Event M}
    (other : event.letter? = none) :
    Serves schema nodes node start (d.onBoard (·.note event)) (deed.note event) :=
  ⟨serves.follows.note other, serves.accepts, serves.unmetered⟩

theorem write (serves : Serves schema nodes node start d deed) (inside : node < nodes)
    (change : PropertyStore → Except Fault PropertyStore) {kind : PropertyKind} {key : String}
    {word : UInt64} {answer : Unit}
    (changes : change d.board.store = ((schema.place kind key).mapError .property).map
      fun index => d.board.store.putWord index node word)
    (ran : (Deed.write schema kind key word).outcome deed = (.ok answer, next)) :
    ∃ b, (Handler.update change).outcome d.board = (.ok answer, b) ∧
      Serves schema nodes node start { d with board := b } next := by
  obtain ⟨index, place, rfl⟩ := Deed.write_ok ran
  rw [place, mapError_ok] at changes
  refine ⟨d.board.setStore (d.board.store.putWord index node word), ?_,
    serves.follows.putWord inside (Schema.place_lt place) word, serves.accepts, serves.unmetered⟩
  rw [Handler.update, Attempt.outcome_replace, changes]
  rfl

theorem setup (g : γ) (inside : node < nodes) (d : Desk M) (call : SetupCall) (deed : Deed M) (b : Board M)
    (answer : SetupContext.Answer call) (next : Deed M)
    (serves : Serves schema nodes node start { d with board := b } deed)
    (ran : (Deed.setup g schema node call).outcome deed = (.ok answer, next)) :
    ∃ after, (Handler.setup g node call).outcome b = (.ok answer, after) ∧
      Serves schema nodes node start { d with board := after } next := by
  cases call with
  | degree =>
    obtain ⟨found, rfl⟩ := Prod.mk.inj ran
    exact ⟨b, Prod.ext found rfl, serves⟩
  | setLong key value =>
    exact serves.write inside (·.writeLong key node value) (serves.follows.store.writeLong key inside value)
      ran
  | setDouble key value =>
    exact serves.write inside (·.writeDouble key node value)
      (serves.follows.store.writeDouble key inside value) ran
  | raise =>
    cases ran
    exact ⟨_, rfl, serves.follows.raise, serves.accepts, serves.unmetered⟩

omit [GraphView γ] in
/-- A message is put on its way to nodes one after the other, and none of them is refused. -/
theorem posts {d : Desk M} (accepts : d.board.mail.Accepts nodes) (unmetered : d.board.progress = none)
    (superstep source : Nat) (message : M) (targets : List Nat) (inside : ∀ target ∈ targets, target < nodes) :
    ∃ e, (targets.forM fun target => Desk.post superstep source target message).outcome d = (.ok (), e) ∧
      e.board.mail.Accepts nodes ∧ e.board.progress = none := by
  induction targets generalizing d with
  | nil => exact ⟨d, rfl, accepts, unmetered⟩
  | cons target targets inductionHypothesis =>
    obtain ⟨mail, folded, acceptsStill⟩ := accepts.fold (inside target (List.mem_cons_self ..)) message
    have posts : ∃ e, (Desk.post superstep source target message).outcome d = (.ok (), e) ∧
        e.board.mail = mail ∧ e.board.progress = d.board.progress := by
      rw [Desk.post, Attempt.outcome_of, folded]
      exact ⟨_, rfl, rfl, rfl⟩
    obtain ⟨middle, posted, same, progress⟩ := posts
    obtain ⟨e, finished, final⟩ := inductionHypothesis (same ▸ acceptsStill) (progress.trans unmetered)
      fun other member => inside other (List.mem_cons_of_mem _ member)
    exact ⟨e, (Attempt.outcome_bind_of_ok posted).trans finished, final⟩

theorem send (serves : Serves schema nodes node start d deed) (superstep source : Nat) (targets : List Nat)
    (inside : ∀ target ∈ targets, target < nodes) (message : M) :
    ∃ e, (Desk.send superstep source targets message).outcome d = (.ok (), e) ∧
      Serves schema nodes node start e (deed.sends superstep source (targets.map (·, message))) := by
  obtain ⟨e, posted, accepts, unmetered⟩ :=
    posts serves.accepts serves.unmetered superstep source message targets inside
  have sends : (Desk.send superstep source targets message).outcome d =
      (.ok (), { e with sent := e.sent || !targets.isEmpty }) := Attempt.outcome_bind_of_ok posted
  exact ⟨_, sends, serves.follows.send sends, accepts, unmetered⟩

/-- Call for call, what succeeds on the deed succeeds on the desk, if all neighbors are nodes. -/
theorem vertex (g : γ) (superstep : Nat) (inside : node < GraphView.nodeCount g)
    (known : Handler.LeadsInside g node) (call : VertexCall M) (deed : Deed M) (d : Desk M)
    (answer : (VertexContext M).Answer call) (next : Deed M)
    (serves : Serves schema (GraphView.nodeCount g) node start d deed)
    (ran : (Deed.vertex g schema superstep node call).outcome deed = (.ok answer, next)) :
    ∃ e, (Handler.vertex g superstep node call).outcome d = (.ok answer, e) ∧
      Serves schema (GraphView.nodeCount g) node start e next := by
  have own : ∀ index, d.board.store.word index node = deed.row index := fun index => by
    simpa using serves.follows.word index node inside
  cases call with
  | degree | neighbors more | weightedNeighbors more =>
    obtain ⟨found, rfl⟩ := Prod.mk.inj ran
    exact ⟨d, Prod.ext found rfl, serves⟩
  | getLong key =>
    obtain ⟨found, rfl⟩ := Prod.mk.inj ran
    refine ⟨d, Prod.ext ((serves.follows.store.readLong key inside).trans ?_) rfl, serves⟩
    simpa only [own] using found
  | getDouble key =>
    obtain ⟨found, rfl⟩ := Prod.mk.inj ran
    refine ⟨d, Prod.ext ((serves.follows.store.readDouble key inside).trans ?_) rfl, serves⟩
    simpa only [own] using found
  | setLong key value =>
    obtain ⟨b, wrote, now⟩ := serves.write inside (·.writeLong key node value)
      (serves.follows.store.writeLong key inside value) ran
    refine ⟨{ d with board := b }, ?_, now⟩
    rw [Handler.vertex, Desk.atBoard, Attempt.outcome_within, wrote]
  | setDouble key value =>
    obtain ⟨b, wrote, now⟩ := serves.write inside (·.writeDouble key node value)
      (serves.follows.store.writeDouble key inside value) ran
    refine ⟨{ d with board := b }, ?_, now⟩
    rw [Handler.vertex, Desk.atBoard, Attempt.outcome_within, wrote]
  | send target message =>
    simp only [Deed.vertex] at ran
    split at ran
    · next targetInside =>
      cases ran
      rw [Handler.vertex, if_pos targetInside]
      exact serves.send superstep node [target] (by simpa using targetInside) message
    · simp at ran
  | sendToNeighbors message =>
    obtain ⟨targets, middle, first, rest⟩ := Attempt.outcome_bind_ok ran
    obtain ⟨found, rfl⟩ := Prod.mk.inj first
    rw [Deed.outcome_sends] at rest
    cases rest
    obtain ⟨e, finished, final⟩ := serves.send superstep node targets.toList
      (fun target member => known targets found target (Array.mem_toList_iff.mp member)) message
    have asked : (Attempt.lift (Handler.targets g node)).outcome d = (.ok targets, d) :=
      Prod.ext found rfl
    exact ⟨e, (Attempt.outcome_bind_of_ok asked).trans finished, final⟩
  | halt =>
    cases ran
    exact ⟨_, rfl, (serves.follows.putVote inside).note rfl, serves.accepts, serves.unmetered⟩
  | raise =>
    cases ran
    exact ⟨_, rfl, serves.follows.raise, serves.accepts, serves.unmetered⟩

end Serves
end Desk

/-! ## Visits -/

namespace Job

variable {job : Job γ M} {schema : Schema} {superstep node nodes : Nat} {start d : Desk M}
  {deed next : Deed M}

theorem setUp_serves (inside : node < nodes) (serves : Desk.Serves schema nodes node start d deed)
    (ran : (Deed.setUp job.graph job.computation schema superstep node).outcome deed = (.ok (), next)) :
    ∃ e, (if superstep = 0 then job.setUp node else pure ()).outcome d = (.ok (), e) ∧
      Desk.Serves schema nodes node start e next := by
  rw [Deed.setUp] at ran
  split at ran
  · next zero =>
    rw [if_pos zero]
    obtain ⟨_, noted, first, rest⟩ := Attempt.outcome_bind_ok ran
    cases first
    obtain ⟨after, runs, final⟩ := Program.run_simulates
      (fun deed b => Desk.Serves schema nodes node start { d with board := b } deed)
      (Desk.Serves.setup job.graph inside d) _ _ _ _ _
      (serves.note (rfl : (Event.setup node : Event M).letter? = none)) rest
    refine ⟨{ d with board := after }, ?_, final⟩
    rw [setUp, Attempt.outcome_bind_of_ok (Attempt.outcome_change _ _), Desk.atBoard,
      Attempt.outcome_within]
    simp only [Desk.onBoard, runs]
  · next later =>
    rw [if_neg later]
    cases ran
    exact ⟨d, rfl, serves⟩

theorem wake_serves (inside : node < nodes) (serves : Desk.Serves schema nodes node start d deed)
    {awake : Bool}
    (ran : (Deed.wake (start.board.mail.messages node)).outcome deed = (.ok awake, next)) :
    ∃ e, (wake node).outcome d = (.ok awake, e) ∧ Desk.Serves schema nodes node start e next := by
  have looks : ∃ awake e, (wake node).outcome d = (.ok awake, e) ∧ e.board.mail = d.board.mail ∧
      e.board.progress = d.board.progress := by
    rw [wake, Attempt.outcome_of]
    split
    · exact ⟨_, _, rfl, rfl, rfl⟩
    · split <;> exact ⟨_, _, rfl, rfl, rfl⟩
  obtain ⟨seen, e, woken, mail, progress⟩ := looks
  -- looking cannot fail, and both come to the same answer
  obtain ⟨_, sees, follows⟩ := wake_follows inside serves.follows woken
  obtain ⟨found, rfl⟩ := Prod.mk.inj (ran.symm.trans sees)
  cases found
  exact ⟨e, woken, follows, mail ▸ serves.accepts, progress.trans serves.unmetered⟩

theorem compute_serves (inside : node < GraphView.nodeCount job.graph)
    (known : Handler.LeadsInside job.graph node)
    (serves : Desk.Serves schema (GraphView.nodeCount job.graph) node start d deed)
    (ran : (Deed.compute job.graph job.computation schema superstep node
      (start.board.mail.messages node)).outcome deed = (.ok (), next)) :
    ∃ e, (job.compute superstep node).outcome d = (.ok (), e) ∧
      Desk.Serves schema (GraphView.nodeCount job.graph) node start e next := by
  obtain ⟨_, noted, first, rest⟩ := Attempt.outcome_bind_ok ran
  cases first
  rw [← (Mail.sameInbox_foldAll serves.follows.mail node).1] at rest
  have reads : (Attempt.inspect fun d : Desk M => .ok (d.board.mail.messages node)).outcome d =
      (.ok (d.board.mail.messages node), d) := rfl
  obtain ⟨e, runs, final⟩ := Program.run_simulates
    (fun deed d => Desk.Serves schema (GraphView.nodeCount job.graph) node start d deed)
    (Desk.Serves.vertex job.graph superstep inside known) _ _ _ _ _
    (serves.note (rfl : (Event.compute superstep node (d.board.mail.messages node)).letter? = none)) rest
  exact ⟨e, (Attempt.outcome_bind_of_ok reads).trans
    ((Attempt.outcome_bind_of_ok (Attempt.outcome_change _ _)).trans runs), final⟩

/-- A visit succeeds where the deed of the node does. -/
theorem visit_serves (inside : node < GraphView.nodeCount job.graph)
    (known : Handler.LeadsInside job.graph node)
    (store : PropertyStore.Regular schema (GraphView.nodeCount job.graph) d.board.store)
    (votes : BitSet.Regular (GraphView.nodeCount job.graph) d.board.votes)
    (accepts : d.board.mail.Accepts (GraphView.nodeCount job.graph)) (unmetered : d.board.progress = none)
    (ran : (Deed.visit job.graph job.computation schema superstep node
      (d.board.mail.messages node)).outcome (d.board.share node) = (.ok (), deed)) :
    ∃ e, (job.visit superstep node).outcome d = (.ok (), e) ∧
      Desk.Serves schema (GraphView.nodeCount job.graph) node d e deed := by
  have start : Desk.Follows schema (GraphView.nodeCount job.graph) node d d (d.board.share node) :=
    Desk.follows_share store votes
  have counted : Desk.Serves schema (GraphView.nodeCount job.graph) node d
      { d with processed := d.processed + 1 } (d.board.share node) :=
    ⟨start.silent (start.toTraces.marked d.sent (d.processed + 1)) rfl rfl, accepts, unmetered⟩
  obtain ⟨_, ready, first, second⟩ := Attempt.outcome_bind_ok ran
  obtain ⟨d₁, setUp, serves₁⟩ := setUp_serves inside counted first
  obtain ⟨awake, woken, third, last⟩ := Attempt.outcome_bind_ok second
  obtain ⟨d₂, wakes, serves₂⟩ := wake_serves inside serves₁ third
  rw [visit_eq, Attempt.outcome_bind_of_ok (Attempt.outcome_change _ _),
    Attempt.outcome_bind_of_ok setUp, Attempt.outcome_bind_of_ok wakes]
  cases awake with
  | true => exact compute_serves inside known serves₂ last
  | false =>
    cases last
    exact ⟨d₂, rfl, serves₂⟩

/-! ## Tasks -/

variable {slot slots : Nat} {b c : Board M}

/-- Nothing can go wrong with the deeds of a superstep: they succeed, do not raise the stop flag and send
to nodes only. -/
structure Unfailing (job : Job γ M) (schema : Schema) (superstep : Nat) (b : Board M) : Prop where
  known : ∀ node < GraphView.nodeCount job.graph, Handler.LeadsInside job.graph node
  acts : ∀ node < GraphView.nodeCount job.graph, job.Acts schema superstep b node
  calm : ∀ node < GraphView.nodeCount job.graph, (job.deed schema superstep b node).raised = false
  inside : ∀ node < GraphView.nodeCount job.graph, ∀ letter ∈ (job.deed schema superstep b node).letters,
    letter.1 < GraphView.nodeCount job.graph

/-- A board on which nothing but a deed can fail. -/
structure Serving (job : Job γ M) (b : Board M) : Prop where
  calm : b.raised = false
  accepts : b.mail.Accepts (GraphView.nodeCount job.graph)
  unmetered : b.progress = none

theorem visitAll_succeeds {todo : List Nat} (unfailing : job.Unfailing schema superstep b)
    (distinct : todo.Nodup) (inside : ∀ node ∈ todo, node < GraphView.nodeCount job.graph)
    (same : ∀ node ∈ todo, b.Same node d.board)
    (store : PropertyStore.Regular schema (GraphView.nodeCount job.graph) d.board.store)
    (votes : BitSet.Regular (GraphView.nodeCount job.graph) d.board.votes)
    (serving : job.Serving d.board) :
    ∃ e, (job.visitAll false superstep todo).outcome d = (.ok (), e) ∧ job.Serving e.board := by
  -- on the nodes to visit: a visit leaves the others as they were, and nothing behind that could fail
  induction todo generalizing d with
  | nil => exact ⟨d, rfl, serving⟩
  | cons node todo inductionHypothesis =>
    have here := inside node (List.mem_cons_self ..)
    have sameHere := same node (List.mem_cons_self ..)
    have acts := unfailing.acts node here
    rw [Acts, ← sameHere.share, ← sameHere.messages] at acts
    obtain ⟨middle, visits, serves⟩ :=
      visit_serves here (unfailing.known node here) store votes serving.accepts serving.unmetered acts
    have worked : d.Worked schema (GraphView.nodeCount job.graph) (job.deed schema superstep b) [node]
        middle := serves.follows.worked
    have onward : job.Serving middle.board := by
      refine ⟨?_, serves.accepts, serves.unmetered⟩
      rw [serves.follows.raised, serving.calm, unfailing.calm node here]
      rfl
    obtain ⟨e, later, still⟩ := inductionHypothesis (List.nodup_cons.mp distinct).2
      (fun other member => inside other (List.mem_cons_of_mem _ member))
      (worked.same_rest distinct inside same) worked.board.store worked.board.votes onward
    refine ⟨e, ?_, still⟩
    rw [visitAll_cons serving.calm, Attempt.outcome_bind_of_ok visits]
    exact later

theorem work_succeeds (slot : Nat) {span : Span} (unfailing : job.Unfailing schema superstep b)
    (inside : ∀ node ∈ span.toList, node < GraphView.nodeCount job.graph)
    (same : ∀ node ∈ span.toList, b.Same node c)
    (store : PropertyStore.Regular schema (GraphView.nodeCount job.graph) c.store)
    (votes : BitSet.Regular (GraphView.nodeCount job.graph) c.votes) (serving : job.Serving c) :
    ∃ e, (job.work false superstep slot span).outcome { board := c } = (.ok (), e) ∧
      job.Serving e.board := by
  obtain ⟨visited, visits, serves⟩ := visitAll_succeeds (d := { board := c }) unfailing
    span.nodup_toList inside same store votes serving
  have logs : (Board.logProgress visited.processed).outcome visited.board = (.ok (), visited.board) := by
    rw [Board.logProgress, Attempt.outcome_of, serves.unmetered]
  rw [work, Attempt.outcome_bind_of_ok visits, handIn_eq, logs]
  exact ⟨_, rfl, serves.calm, serves.accepts.deposit slot visited.outbox, serves.unmetered⟩

/-! ## The superstep -/

theorem Done.succeeds {slots : List Nat} (unfailing : job.Unfailing schema superstep b)
    (done : job.Done schema (GraphView.nodeCount job.graph) superstep b slots c) (serving : job.Serving c)
    (slotInside : slot < job.spans.length)
    (inside : ∀ node ∈ job.nodesOf slot, node < GraphView.nodeCount job.graph)
    (fresh : ∀ node ∈ job.nodesOf slot, node ∉ slots.flatMap job.nodesOf) :
    ∃ after, (job.action superstep slot job.spans[slot]).run .calm c = (none, after) ∧
      job.Serving after := by
  have nodesOf : job.nodesOf slot = job.spans[slot].toList := by
    rw [Job.nodesOf, List.getD_eq_getElem?_getD, List.getElem?_eq_getElem slotInside, Option.getD_some]
  rw [nodesOf] at inside fresh
  have same : ∀ node ∈ job.spans[slot].toList, b.Same node c := fun node member =>
    ⟨done.worked.share (inside node member) (fresh node member),
      (Mail.sameInbox_handInAll done.mail node).1⟩
  obtain ⟨desk, works, still⟩ :=
    work_succeeds slot unfailing inside same done.worked.store done.worked.votes serving
  refine ⟨desk.board, ?_, still⟩
  simp only [Job.action, Action.ofFun, Signals.calm, works]

theorem batch_succeeds (tile : Span.Tile 0 job.spans (GraphView.nodeCount job.graph)) {order : List Nat}
    (all : order.Perm (List.range job.spans.length))
    (store : PropertyStore.Regular schema (GraphView.nodeCount job.graph) b.store)
    (votes : BitSet.Regular (GraphView.nodeCount job.graph) b.votes)
    (unfailing : job.Unfailing schema superstep b) (serving : job.Serving b) :
    ∃ c, inOrder Board.raised order (job.tasks superstep) b = (.ok .finished, c) ∧
      job.Done schema (GraphView.nodeCount job.graph) superstep b order c ∧ job.Serving c := by
  have start : job.Done schema (GraphView.nodeCount job.graph) superstep b [] b :=
    ⟨.nil store votes, rfl, by simp [lettersOf], by simp⟩
  rw [tasks_eq]
  -- what is kept from task to task is that those before have done what their deeds say
  refine inOrder_succeeds (fun slots c =>
    job.Done schema (GraphView.nodeCount job.graph) superstep b slots c ∧ job.Serving c) ?_
    (lt_length_works all) ⟨start, serving⟩ serving.calm
  rintro slots slot todo split inside s ⟨done, serves⟩ down
  obtain ⟨bound, work⟩ := getElem_works inside
  obtain ⟨nodesInside, fresh⟩ := nodesOf_fresh tile all split
  obtain ⟨t, worked, after⟩ := done.succeeds unfailing serves bound nodesInside fresh
  exact ⟨t, work ▸ worked, after.calm, done.action bound nodesInside fresh down worked after.calm, after⟩

theorem Unfailing.opened (unfailing : job.Unfailing schema superstep b) :
    job.Unfailing schema superstep (job.opened b) := by
  refine ⟨unfailing.known, fun node inside => ?_, fun node inside => ?_, fun node inside => ?_⟩
  · rw [Acts, deed_opened, (job.same_opened b node).messages]
    exact unfailing.acts node inside
  · rw [deed_opened]
    exact unfailing.calm node inside
  · rw [deed_opened]
    exact unfailing.inside node inside

/-- A superstep in which nothing can fail comes to a verdict, and the next one can be opened. -/
theorem superstep_succeeds {letters : List (Nat × M)}
    (tile : Span.Tile 0 job.spans (GraphView.nodeCount job.graph))
    (turns : (job.executor superstep).TakesTurns Board.raised)
    (ready : b.Ready schema (GraphView.nodeCount job.graph) slots job.computation.reducer letters)
    (calm : b.raised = false) (unmetered : b.progress = none)
    (total : ∀ r, job.computation.reducer = some r → r.Total)
    (bounded : GraphView.nodeCount job.graph < Word.limit)
    (silent : ∀ c : Board M, (job.consult superstep).outcome c = (.ok false, c))
    (unfailing : job.Unfailing schema superstep b) :
    ∃ verdict after, job.superstep superstep b = (verdict, after) ∧
      (verdict = .settled ∨ verdict = .proceed) ∧ after.raised = false ∧ after.progress = none := by
  obtain ⟨order, all, executed, _⟩ := executed_in_order turns b
  have carries : Mail.Carries (GraphView.nodeCount job.graph) job.spans.length letters
      (fun slot => lettersOf (job.deed schema superstep (job.opened b)) (job.nodesOf slot)) []
      job.computation.reducer (job.opened b).mail := ready.mail.prepare
  have serving : job.Serving (job.opened b) := ⟨calm, carries.accepts total, unmetered⟩
  have store : PropertyStore.Regular schema (GraphView.nodeCount job.graph) (job.opened b).store :=
    ready.store
  have votes : BitSet.Regular (GraphView.nodeCount job.graph) (job.opened b).votes := ready.votes
  obtain ⟨c, finished, done, still⟩ := batch_succeeds tile all store votes unfailing.opened serving
  have inside : ∀ slot < job.spans.length, ∀ letter ∈
      lettersOf (job.deed schema superstep (job.opened b)) (job.nodesOf slot),
        letter.1 < GraphView.nodeCount job.graph := by
    intro slot bound letter member
    obtain ⟨node, visited, sent⟩ := List.mem_flatMap.mp member
    exact unfailing.opened.inside node (nodesOf_inside tile bound visited) letter sent
  obtain ⟨mail, swapped⟩ := (carries.handInAll done.mail).swap_succeeds inside bounded
  rw [superstep_eq, executed, finished]
  simp only [conclude, swapped, silent]
  refine ⟨_, _, rfl, ?_, still.calm, still.unmetered⟩
  split
  · exact .inl rfl
  · exact .inr rfl

end Job
end BulkSync
