import BulkSync.Proofs.Engine.Events
import BulkSync.Proofs.Engine.Master

/-! # What a superstep does

A superstep that is followed by another one, or that is the last one, takes a board on which nothing is
on its way (`Board.Ready`) to the next one of that kind. Everything it does is told by the deeds of the
nodes, by the order in which the tasks were executed, and by the answer of the computation
(`Job.Stepped`): this is the only theorem that opens the code of a superstep (`superstep_stepped`). How the tasks
are executed does not matter, as long as the nodes have done their deeds once all tasks have finished
(`Job.Reliable`). They have if the tasks take turns (`reliable_of_turns`). -/

namespace BulkSync

variable {γ M : Type} [GraphView γ] [Element M]

/-- A board in front of a superstep: nothing is on its way, and the mailboxes hold these letters. -/
structure Board.Ready (schema : Schema) (nodes slots : Nat) (reducer : Option (Reducer M))
    (letters : List (Nat × M)) (b : Board M) : Prop where
  store : PropertyStore.Regular schema nodes b.store
  votes : BitSet.Regular nodes b.votes
  mail : Mail.Holds nodes slots letters reducer b.mail

namespace Job

/-- The board on which the tasks of a superstep start. -/
def opened (job : Job γ M) (b : Board M) : Board M :=
  { b with mail := b.mail.prepare job.spans.length, anySent := false }

omit [GraphView γ] in
theorem same_opened (job : Job γ M) (b : Board M) (node : Nat) : b.Same node (job.opened b) :=
  ⟨rfl, (Mail.sameInbox_prepare b.mail job.spans.length node).1⟩

/-- The board that the tasks of a superstep leave. -/
def left (job : Job γ M) (superstep : Nat) (b : Board M) : Board M :=
  (job.executor superstep (job.tasks superstep) (job.opened b)).2

/-- The letters that are on their way when the tasks were executed in some order. -/
def sent (job : Job γ M) (schema : Schema) (superstep : Nat) (b : Board M) (order : List Nat) :
    List (Nat × M) :=
  arrivals job.computation.reducer job.spans.length order fun slot =>
    lettersOf (job.deed schema superstep b) (job.nodesOf slot)

/-- All nodes have voted to halt and nothing is sent. -/
def Quiet (job : Job γ M) (schema : Schema) (nodes superstep : Nat) (b : Board M) : Prop :=
  ∀ node < nodes, (job.deed schema superstep b node).halted = true ∧
    (job.deed schema superstep b node).letters = []

/-- Behind a superstep the computation is asked once: once the tasks are done and the mail is delivered, its
own code is run on the board, with the properties as the superstep has left them. It gives that answer, and
the board in front of the next superstep is the one that it leaves. -/
def Asks (job : Job γ M) (superstep : Nat) (b : Board M) (stop : Bool) : Prop :=
  ∃ mail next, (job.left superstep b).mail.swap = .ok mail ∧
    ((job.computation.master
        ⟨superstep, GraphView.nodeCount job.graph, GraphView.edgeCount job.graph⟩).run
          (Handler.master job.graph)).outcome
        ({ job.left superstep b with mail := mail }.note
          (.master superstep (job.left superstep b).store)) = (.ok stop, next) ∧
    (job.superstep superstep b).2 = next.note (.answer superstep stop)

/-- What the tasks of a superstep leave when they have all finished: the nodes have done their deeds, one after the
other in some order, and their letters are on their way. They come in the order of their senders if they are
queued, or if the tasks are executed in sequence. -/
structure Finished (job : Job γ M) (schema : Schema) (nodes superstep : Nat) (b : Board M)
    (letters : List (Nat × M)) (c : Board M) : Prop where
  worked : ∃ visited : List Nat, visited.Perm (List.range nodes) ∧
    (job.opened b).Worked schema nodes (job.deed schema superstep b) visited c
  acts : ∀ node < nodes, job.Acts schema superstep b node
  sent : letters.Perm (lettersOf (job.deed schema superstep b) (List.range nodes))
  inOrder : job.computation.reducer = none ∨ (job.executor superstep).InSequence Board.raised →
    letters = lettersOf (job.deed schema superstep b) (List.range nodes)
  anySent : c.anySent = !letters.isEmpty
  calm : c.raised = false
  delivers : ∀ mail, c.mail.swap = .ok mail →
    Mail.Holds nodes job.spans.length letters job.computation.reducer mail

/-- Whenever the tasks of a superstep have all finished, the nodes have done their deeds. -/
def Reliable (job : Job γ M) (schema : Schema) (nodes superstep : Nat) : Prop :=
  ∀ {slots letters b c}, b.Ready schema nodes slots job.computation.reducer letters →
    job.executor superstep (job.tasks superstep) (job.opened b) = (.ok .finished, c) →
      ∃ sent, job.Finished schema nodes superstep b sent c

/-- What a superstep does to a board: the nodes do their deeds, their letters are delivered, the computation
answers, and there is a verdict. The letters come in the order of their senders if they are queued, or if the
tasks are executed in sequence. -/
structure Stepped (job : Job γ M) (schema : Schema) (nodes superstep : Nat) (b : Board M)
    (letters : List (Nat × M)) (stop : Bool) (verdict : Verdict) (after : Board M) : Prop where
  sent : letters.Perm (lettersOf (job.deed schema superstep b) (List.range nodes))
  inOrder : job.computation.reducer = none ∨ (job.executor superstep).InSequence Board.raised →
    letters = lettersOf (job.deed schema superstep b) (List.range nodes)
  acts : ∀ node < nodes, job.Acts schema superstep b node
  left : PropertyStore.Regular schema nodes (job.left superstep b).store
  word : ∀ index, ∀ node < nodes,
    (job.left superstep b).store.word index node = (job.deed schema superstep b node).row index
  ready : after.Ready schema nodes job.spans.length job.computation.reducer letters
  vote : ∀ node < nodes, after.votes.test node = (job.deed schema superstep b node).halted
  record : ∃ acts, job.Recorded schema nodes superstep b acts ∧ after.record.toList = b.record.toList ++
    (acts ++ [.master superstep (job.left superstep b).store, .answer superstep stop])
  asks : job.Asks superstep b stop
  consulted : ∃ before next : Board M, (job.consult superstep).outcome before = (.ok stop, next) ∧
    before.store = (job.left superstep b).store ∧ before.raised = false ∧ next.SameNumbers after
  settled : verdict = .settled ↔ stop = true ∨ job.Quiet schema nodes superstep b
  goesOn : verdict = .settled ∨ verdict = .proceed

variable {job : Job γ M} {schema : Schema} {nodes slots superstep : Nat} {b after : Board M}
  {letters : List (Nat × M)} {verdict : Verdict}

theorem deed_opened (job : Job γ M) (schema : Schema) (superstep : Nat) (b : Board M) :
    job.deed schema superstep (job.opened b) = job.deed schema superstep b :=
  funext fun node => deed_congr (job.same_opened b node) job schema superstep

theorem acts_opened {node : Nat} (acts : job.Acts schema superstep (job.opened b) node) :
    job.Acts schema superstep b node := by
  rw [Acts, deed_opened, (job.same_opened b node).messages] at acts
  exact acts

omit [GraphView γ] [Element M] in
theorem flatMap_lettersOf (job : Job γ M) (deed : Nat → Deed M) (slots : List Nat) :
    (slots.flatMap fun slot => lettersOf deed (job.nodesOf slot)) =
      lettersOf deed (slots.flatMap job.nodesOf) := by
  simp only [lettersOf, List.flatMap_assoc]

/-- The letters of all nodes by ascending sender: queues are emptied slot by slot, and with a reducer the order
of execution decides. -/
theorem sent_eq (tile : Span.Tile 0 job.spans nodes) {order : List Nat}
    (inOrder : job.computation.reducer = none ∨ order = List.range job.spans.length) :
    job.sent schema superstep b order = lettersOf (job.deed schema superstep b) (List.range nodes) := by
  rw [← Job.flatMap_nodesOf tile, ← flatMap_lettersOf, sent]
  rcases inOrder with none | rfl
  · rw [none, arrivals]
  · rw [arrivals_in_order]

/-- The same letters are on their way in any order of execution. -/
theorem sent_perm (tile : Span.Tile 0 job.spans nodes) {order : List Nat}
    (visited : (order.flatMap job.nodesOf).Perm (List.range nodes)) :
    (job.sent schema superstep b order).Perm
      (lettersOf (job.deed schema superstep b) (List.range nodes)) := by
  cases reducer : job.computation.reducer with
  | none => exact .of_eq (sent_eq tile (.inl reducer))
  | some r =>
    rw [sent, reducer, arrivals, flatMap_lettersOf]
    exact lettersOf_perm visited

/-- The votes and the signs of the tasks tell whether the superstep was quiet. -/
theorem Finished.quiet_iff {c : Board M} (finished : job.Finished schema nodes superstep b letters c) :
    (c.votes.isFull && !c.anySent) = true ↔ job.Quiet schema nodes superstep b := by
  obtain ⟨visited, all, worked⟩ := finished.worked
  have vote : ∀ node < nodes, c.votes.test node = (job.deed schema superstep b node).halted :=
    fun node inside => by rw [worked.vote node inside, if_pos (all.mem_iff.mpr (List.mem_range.mpr inside))]
  have silent : c.anySent = false ↔ ∀ node < nodes, (job.deed schema superstep b node).letters = [] := by
    rw [finished.anySent, finished.sent.isEmpty_eq]
    simp only [Bool.not_eq_false', List.isEmpty_iff, lettersOf, List.flatMap_eq_nil_iff, List.mem_range]
  rw [Bool.and_eq_true, worked.votes.isFull_iff, Bool.not_eq_true', silent, Quiet]
  constructor
  · rintro ⟨full, none⟩ node inside
    exact ⟨vote node inside ▸ full node inside, none node inside⟩
  · intro all
    exact ⟨fun node inside => (vote node inside).trans (all node inside).1,
      fun node inside => (all node inside).2⟩

theorem executed_in_order (turns : (job.executor superstep).TakesTurns Board.raised) (b : Board M) :
    ∃ order : List Nat, order.Perm (List.range job.spans.length) ∧
      job.executor superstep (job.tasks superstep) (job.opened b) =
        inOrder Board.raised order (job.tasks superstep) (job.opened b) ∧
      ((job.executor superstep).InSequence Board.raised → order = List.range job.spans.length) := by
  rw [tasks_eq, ← length_works job superstep]
  -- an executor that works in sequence must be given that order, and not another one with the same effect
  by_cases sequential : (job.executor superstep).InSequence Board.raised
  · exact ⟨_, .refl _, sequential (job.works superstep) (job.opened b), fun _ => rfl⟩
  · obtain ⟨order, all, executed⟩ := turns (job.works superstep) (job.opened b)
    exact ⟨order, all, executed, fun yes => absurd yes sequential⟩

/-- What each task keeps holds once they were executed, whether they have all finished or not. -/
theorem left_keeps (turns : (job.executor superstep).TakesTurns Board.raised) (holds : Board M → Prop)
    (kept : ∀ slot (bound : slot < job.spans.length) seen c, holds c →
      holds ((job.action superstep slot job.spans[slot]).run seen c).2)
    (start : holds (job.opened b)) : holds (job.left superstep b) := by
  obtain ⟨order, all, executed, _⟩ := executed_in_order turns b
  rw [left, executed, tasks_eq]
  refine inOrder_keeps holds ?_ (lt_length_works all) start
  intro slot inside seen c held
  obtain ⟨bound, work⟩ := getElem_works inside
  rw [work]
  exact kept slot bound seen c held

theorem superstep_eq (job : Job γ M) (superstep : Nat) (b : Board M) : job.superstep superstep b =
    match job.executor superstep (job.tasks superstep) (job.opened b) with
    | (.error error, b) => (.failed error, b)
    | (.ok .cancelled, b) => (.cancelled, b)
    | (.ok .finished, b) => job.conclude superstep b := rfl

/-- What holds behind the tasks and is kept when a superstep is concluded holds behind the superstep, however it ends. -/
theorem superstep_keeps {holds : Board M → Prop} (worked : holds (job.left superstep b))
    (concludes : ∀ {c}, holds c → holds (job.conclude superstep c).2) : holds (job.superstep superstep b).2 := by
  rw [left] at worked
  rw [superstep_eq]
  split
  · next error c ran =>
    rw [ran] at worked
    exact worked
  · next c ran =>
    rw [ran] at worked
    exact worked
  · next c ran =>
    rw [ran] at worked
    exact concludes worked

/-- The tasks of a superstep that ends well have all finished, one after the other. -/
theorem superstep_finished (ran : job.superstep superstep b = (verdict, after))
    (goesOn : verdict = .settled ∨ verdict = .proceed) :
    job.executor superstep (job.tasks superstep) (job.opened b) =
      (.ok .finished, job.left superstep b) ∧
    job.conclude superstep (job.left superstep b) = (verdict, after) := by
  rw [superstep_eq] at ran
  rw [left]
  generalize job.executor superstep (job.tasks superstep) (job.opened b) = result at ran ⊢
  match result with
  | (.error error, c) =>
    cases ran
    simp at goesOn
  | (.ok .cancelled, c) =>
    cases ran
    simp at goesOn
  | (.ok .finished, c) => exact ⟨rfl, ran⟩

/-- A superstep is cancelled only if the stop flag is raised in the end. -/
theorem superstep_cancelled (turns : (job.executor superstep).TakesTurns Board.raised)
    (ran : job.superstep superstep b = (.cancelled, after)) : after.raised = true := by
  obtain ⟨order, _, executed, _⟩ := executed_in_order turns b
  rw [superstep_eq, executed] at ran
  split at ran
  · cases ran
  · next c cancelled =>
    cases ran
    exact inOrder_cancelled cancelled
  · next c finished =>
    rw [conclude] at ran
    split at ran
    · cases ran
    · dsimp only at ran
      split at ran
      · split at ran <;> cases ran
      · cases ran

/-- The end of a superstep that ends well: the mail is delivered and the computation answers. -/
theorem conclude_ok {c : Board M} (ran : job.conclude superstep c = (verdict, after))
    (goesOn : verdict = .settled ∨ verdict = .proceed) :
    ∃ mail stop next, c.mail.swap = .ok mail ∧
      (job.consult superstep).outcome ({ c with mail := mail }.note (.master superstep c.store)) =
        (.ok stop, next) ∧
      after = next.note (.answer superstep stop) ∧
      verdict = if stop || (c.votes.isFull && !c.anySent) then .settled else .proceed := by
  rw [conclude] at ran
  split at ran
  · cases ran
    simp at goesOn
  · next mail swaps =>
    dsimp only at ran
    split at ran
    · next stop next answered =>
      obtain ⟨rfl, rfl⟩ := Prod.mk.inj ran
      exact ⟨mail, stop, next, swaps, answered, rfl, rfl⟩
    · cases ran
      simp at goesOn

/-- Behind tasks that have all finished the mail is delivered and the computation is asked. -/
theorem Finished.stepped (finished : job.Finished schema nodes superstep b letters (job.left superstep b))
    (ran : job.superstep superstep b = (verdict, after)) (goesOn : verdict = .settled ∨ verdict = .proceed) :
    ∃ stop, job.Stepped schema nodes superstep b letters stop verdict after := by
  obtain ⟨mail, stop, next, swaps, answered, rfl, judged⟩ := conclude_ok (superstep_finished ran goesOn).2 goesOn
  obtain ⟨visited, all, worked⟩ := finished.worked
  have every : ∀ {node}, node < nodes → node ∈ visited := fun inside => all.mem_iff.mpr (List.mem_range.mpr inside)
  -- the computation can set numbers, and all else is as the tasks and delivery have left it
  have set : Board.Set schema nodes ({ job.left superstep b with mail := mail }.note
      (.master superstep (job.left superstep b).store)) next := by
    have regular : PropertyStore.Regular schema nodes ({ job.left superstep b with mail := mail }.note
        (.master superstep (job.left superstep b).store)).store := worked.store
    have frame := job.consult_frame superstep regular
    rw [answered] at frame
    exact frame
  exact ⟨stop,
    { sent := finished.sent
      inOrder := finished.inOrder
      acts := finished.acts
      left := worked.store
      word := fun index node inside => by rw [worked.word index node inside, if_pos (every inside)]
      ready := by
        rw [set.rest]
        exact ⟨set.store, worked.votes, finished.delivers mail swaps⟩
      vote := fun node inside => by
        rw [set.rest]
        exact (worked.vote node inside).trans (if_pos (every inside))
      record := by
        refine ⟨_, recorded_visited all finished.acts, ?_⟩
        rw [set.rest]
        simp [Board.note, worked.record, opened]
      asks := ⟨mail, next, swaps, answered, by rw [ran]⟩
      consulted := ⟨_, next, answered, rfl, finished.calm, rfl, rfl⟩
      settled := by
        rw [judged, ← finished.quiet_iff, ← Bool.or_eq_true]
        split <;> simp_all
      goesOn }⟩

/-- Tasks that take turns do what the deeds say. -/
theorem reliable_of_turns (tile : Span.Tile 0 job.spans nodes)
    (turns : (job.executor superstep).TakesTurns Board.raised) : job.Reliable schema nodes superstep := by
  intro slots letters b c ready ran
  obtain ⟨order, all, executed, sequential⟩ := executed_in_order turns b
  rw [ran] at executed
  have votes : BitSet.Regular nodes (job.opened b).votes := ready.votes
  have store : PropertyStore.Regular schema nodes (job.opened b).store := ready.store
  obtain ⟨done, calm, visited⟩ := batch_done tile all store votes executed.symm
  obtain ⟨worked, handedIn, anySent, acts⟩ := done
  rw [deed_opened] at worked handedIn anySent
  have sent : (job.sent schema superstep b order).Perm
      (lettersOf (job.deed schema superstep b) (List.range nodes)) := sent_perm tile visited
  exact ⟨job.sent schema superstep b order,
    { worked := ⟨_, visited, worked⟩
      acts := fun node inside => acts_opened (acts node (visited.mem_iff.mpr (List.mem_range.mpr inside)))
      sent
      inOrder := fun one => sent_eq tile (one.imp_right sequential)
      anySent := by
        rw [anySent, sent.isEmpty_eq, (lettersOf_perm visited).isEmpty_eq]
        exact Bool.false_or _
      calm
      delivers := fun mail => (ready.mail.prepare.handInAll handedIn).swap
        fun _ inside absent => absurd (all.mem_iff.mpr (List.mem_range.mpr inside)) absent }⟩

/-- A superstep in which nothing fails and the stop flag is not raised does what the deeds say. -/
theorem superstep_stepped (reliable : job.Reliable schema nodes superstep)
    (ready : b.Ready schema nodes slots job.computation.reducer letters)
    (ran : job.superstep superstep b = (verdict, after))
    (goesOn : verdict = .settled ∨ verdict = .proceed) :
    ∃ letters stop, job.Stepped schema nodes superstep b letters stop verdict after := by
  obtain ⟨letters, finished⟩ := reliable ready (superstep_finished ran goesOn).1
  exact ⟨letters, finished.stepped ran goesOn⟩

end Job
end BulkSync
