import BulkSync.Proofs.Engine.Frame
import BulkSync.Proofs.Partition.Tiling
import BulkSync.Proofs.Task.Turns

/-! # What the tasks of a superstep do to the board

Every node has its deed of a superstep, which depends on nothing but what the board in front of the
superstep holds of the node and for it (`Job.deed`). What nodes have been visited, in tasks or in whole
batches, the board has become what their deeds say, in any order of the visits, and what belongs to
other nodes is untouched (`Board.Worked`).

A task that succeeds has visited its nodes up to the first one that raises the stop flag (`Job.work_walked`), and the
board tells how many that are and whether the flag is up (`Board.Walked`). As the tasks tile the nodes, a batch that
finishes has visited every node once (`Job.batch_done`). -/

namespace BulkSync

variable {γ M : Type} [GraphView γ]

/-! ## Deeds -/

/-- What a node does in a superstep that starts from a board. -/
def Job.deed [Element M] (job : Job γ M) (schema : Schema) (superstep : Nat) (b : Board M) (node : Nat) :
    Deed M :=
  ((Deed.visit job.graph job.computation schema superstep node (b.mail.messages node)).outcome
    (b.share node)).2

/-- Nothing goes wrong while the node is visited. -/
def Job.Acts [Element M] (job : Job γ M) (schema : Schema) (superstep : Nat) (b : Board M) (node : Nat) :
    Prop :=
  (Deed.visit job.graph job.computation schema superstep node (b.mail.messages node)).outcome
    (b.share node) = (.ok (), job.deed schema superstep b node)

/-- The letters of some nodes, node after node. -/
def lettersOf (deed : Nat → Deed M) (visited : List Nat) : List (Nat × M) :=
  visited.flatMap fun node => (deed node).letters

theorem lettersOf_append (deed : Nat → Deed M) (first second : List Nat) :
    lettersOf deed (first ++ second) = lettersOf deed first ++ lettersOf deed second := List.flatMap_append

theorem some_lettersOf_append (deed : Nat → Deed M) (first second : List Nat) :
    (!(lettersOf deed (first ++ second)).isEmpty) =
      (!(lettersOf deed first).isEmpty || !(lettersOf deed second).isEmpty) := by
  rw [lettersOf_append]
  cases lettersOf deed first <;> simp

theorem lettersOf_singleton (deed : Nat → Deed M) (node : Nat) : lettersOf deed [node] = (deed node).letters := by
  simp [lettersOf]

theorem lettersOf_perm {deed : Nat → Deed M} {visited other : List Nat} (same : visited.Perm other) :
    (lettersOf deed visited).Perm (lettersOf deed other) := same.flatMap_right _

/-- Boards that hold the same of a node and for it. -/
structure Board.Same [Element M] (node : Nat) (b c : Board M) : Prop where
  share : c.share node = b.share node
  messages : c.mail.messages node = b.mail.messages node

theorem Job.deed_congr [Element M] {node : Nat} {b c : Board M} (same : b.Same node c) (job : Job γ M)
    (schema : Schema) (superstep : Nat) :
    job.deed schema superstep c node = job.deed schema superstep b node := by
  rw [deed, deed, same.share, same.messages]

/-! ## Boards and desks -/

/-- What becomes of a board when nodes are visited: their numbers and votes are those of their deeds,
all others are as before, and the events of the deeds stand behind those of the record. -/
structure Board.Worked (schema : Schema) (nodes : Nat) (deed : Nat → Deed M) (visited : List Nat)
    (before after : Board M) : Prop where
  store : PropertyStore.Regular schema nodes after.store
  word : ∀ index, ∀ node < nodes, after.store.word index node =
    if node ∈ visited then (deed node).row index else before.store.word index node
  votes : BitSet.Regular nodes after.votes
  vote : ∀ node < nodes, after.votes.test node =
    if node ∈ visited then (deed node).halted else before.votes.test node
  record : after.record.toList = before.record.toList ++ visited.flatMap fun node => (deed node).events

/-- What becomes of a desk when nodes are visited: their letters are folded, or collected. -/
structure Desk.Worked [Element M] (schema : Schema) (nodes : Nat) (deed : Nat → Deed M) (visited : List Nat)
    (before after : Desk M) : Prop where
  board : before.board.Worked schema nodes deed visited after.board
  mail : before.board.mail.foldAll (lettersOf deed visited) = .ok after.board.mail
  outbox : after.outbox = before.board.mail.collectAll (lettersOf deed visited) before.outbox
  sent : after.sent = (before.sent || !(lettersOf deed visited).isEmpty)
  anySent : after.board.anySent = before.board.anySent

section Worked

variable {schema : Schema} {nodes : Nat} {deed : Nat → Deed M} {first second visited : List Nat}

theorem Board.Worked.nil {b : Board M} (store : PropertyStore.Regular schema nodes b.store)
    (votes : BitSet.Regular nodes b.votes) : b.Worked schema nodes deed [] b :=
  ⟨store, by simp, votes, by simp, by simp⟩

theorem Board.Worked.trans {b c d : Board M} (one : b.Worked schema nodes deed first c)
    (two : c.Worked schema nodes deed second d) : b.Worked schema nodes deed (first ++ second) d where
  store := two.store
  word index node inside := by
    rw [two.word index node inside, one.word index node inside]
    by_cases late : node ∈ second <;> simp [late]
  votes := two.votes
  vote node inside := by
    rw [two.vote node inside, one.vote node inside]
    by_cases late : node ∈ second <;> simp [late]
  record := by simp [two.record, one.record]

theorem Board.Worked.share {b c : Board M} (worked : b.Worked schema nodes deed visited c) {node : Nat}
    (inside : node < nodes) (absent : node ∉ visited) : c.share node = b.share node := by
  rw [Board.share, Board.share, worked.vote node inside, if_neg absent]
  congr 1
  funext index
  rw [worked.word index node inside, if_neg absent]

variable [Element M]

theorem Desk.Follows.worked {node : Nat} {d e : Desk M}
    (follows : Desk.Follows schema nodes node d e (deed node)) :
    Desk.Worked schema nodes deed [node] d e := by
  have letters : lettersOf deed [node] = (deed node).letters := lettersOf_singleton deed node
  refine ⟨⟨follows.store, fun index other inside => ?_, follows.votes, fun other inside => ?_, ?_⟩,
    ?_, ?_, ?_, follows.anySent⟩
  · rw [follows.word index other inside]
    by_cases here : other = node <;> simp [here]
  · rw [follows.vote other inside]
    by_cases here : other = node <;> simp [here]
  · simpa using follows.record
  · rw [letters]
    exact follows.mail
  · rw [letters]
    exact follows.outbox
  · rw [letters]
    exact follows.sent

theorem Desk.Worked.nil {d : Desk M} (store : PropertyStore.Regular schema nodes d.board.store)
    (votes : BitSet.Regular nodes d.board.votes) : d.Worked schema nodes deed [] d :=
  ⟨.nil store votes, rfl, rfl, by simp [lettersOf], rfl⟩

theorem Desk.Worked.trans {d e f : Desk M} (one : d.Worked schema nodes deed first e)
    (two : e.Worked schema nodes deed second f) : d.Worked schema nodes deed (first ++ second) f := by
  have letters : lettersOf deed (first ++ second) = lettersOf deed first ++ lettersOf deed second :=
    lettersOf_append deed first second
  refine ⟨one.board.trans two.board, ?_, ?_, ?_, two.anySent.trans one.anySent⟩
  · rw [letters, Mail.foldAll_append, one.mail]
    exact two.mail
  · rw [letters, Mail.collectAll_append, ← one.outbox, two.outbox, Mail.collectAll, Mail.collectAll,
      Mail.collect_foldAll one.mail]
  · rw [some_lettersOf_append, two.sent, one.sent, Bool.or_assoc]

/-- A node that is not visited keeps what the board holds of it and for it. -/
theorem Desk.Worked.same {d e : Desk M} (worked : d.Worked schema nodes deed visited e) {node : Nat}
    (inside : node < nodes) (absent : node ∉ visited) : d.board.Same node e.board :=
  ⟨worked.board.share inside absent, (Mail.sameInbox_foldAll worked.mail node).1⟩

/-- Nodes that are still to be visited are as they were before the superstep. -/
theorem Desk.Worked.same_rest {b : Board M} {d e : Desk M} {node : Nat} {todo : List Nat}
    (worked : d.Worked schema nodes deed [node] e) (distinct : (node :: todo).Nodup)
    (inside : ∀ other ∈ node :: todo, other < nodes) (same : ∀ other ∈ node :: todo, b.Same other d.board) :
    ∀ other ∈ todo, b.Same other e.board := by
  intro other member
  have before := same other (List.mem_cons_of_mem _ member)
  have kept := worked.same (inside other (List.mem_cons_of_mem _ member)) (fun here =>
    (List.nodup_cons.mp distinct).1 (List.mem_singleton.mp here ▸ member))
  exact ⟨kept.share.trans before.share, kept.messages.trans before.messages⟩

end Worked

/-! ## Visits up to the stop flag -/

/-- The nodes up to the first one that raises the stop flag. -/
def untilRaised (deed : Nat → Deed M) : List Nat → List Nat
  | [] => []
  | node :: nodes => node :: if (deed node).raised then [] else untilRaised deed nodes

/-- Whether one of the nodes raises the stop flag. -/
def raisedIn (deed : Nat → Deed M) (nodes : List Nat) : Bool := nodes.any fun node => (deed node).raised

section Raised

variable {deed : Nat → Deed M} {first second nodes : List Nat}

theorem untilRaised_append_of_raised (up : raisedIn deed first = true) :
    untilRaised deed (first ++ second) = untilRaised deed first := by
  induction first with
  | nil => cases up
  | cons node first inductionHypothesis =>
    rw [List.cons_append, untilRaised, untilRaised]
    cases here : (deed node).raised with
    | true => rfl
    | false =>
      rw [raisedIn, List.any_cons, here, Bool.false_or] at up
      simp [inductionHypothesis up]

theorem untilRaised_append (down : raisedIn deed first = false) :
    untilRaised deed (first ++ second) = first ++ untilRaised deed second := by
  induction first with
  | nil => rfl
  | cons node first inductionHypothesis =>
    rw [raisedIn, List.any_cons, Bool.or_eq_false_iff] at down
    rw [List.cons_append, untilRaised, down.1, List.cons_append]
    simp [inductionHypothesis down.2]

theorem untilRaised_eq_self (down : raisedIn deed nodes = false) : untilRaised deed nodes = nodes := by
  have all : untilRaised deed (nodes ++ []) = nodes ++ untilRaised deed [] := untilRaised_append down
  simpa [untilRaised] using all

theorem raisedIn_untilRaised (deed : Nat → Deed M) (nodes : List Nat) :
    raisedIn deed (untilRaised deed nodes) = raisedIn deed nodes := by
  induction nodes with
  | nil => rfl
  | cons node nodes inductionHypothesis =>
    rw [untilRaised, raisedIn, List.any_cons]
    cases here : (deed node).raised with
    | true => simp [raisedIn, here]
    | false => simpa [raisedIn, here] using inductionHypothesis

end Raised

/-- What becomes of a board when nodes are visited by tasks that hand in and report what they have done. -/
structure Board.Walked [Element M] (schema : Schema) (nodes : Nat) (deed : Nat → Deed M) (visited : List Nat)
    (before after : Board M) : Prop where
  worked : before.Worked schema nodes deed visited after
  raised : after.raised = (before.raised || raisedIn deed visited)
  inbox : before.mail.SameInbox after.mail
  progress : Counted visited.length before.progress after.progress

/-- What becomes of a desk when nodes are visited: they are counted, but nothing is reported yet. -/
structure Desk.Walked [Element M] (schema : Schema) (nodes : Nat) (deed : Nat → Deed M) (visited : List Nat)
    (before after : Desk M) : Prop where
  worked : before.Worked schema nodes deed visited after
  raised : after.board.raised = (before.board.raised || raisedIn deed visited)
  progress : after.board.progress = before.board.progress
  processed : after.processed = before.processed + visited.length

section Walked

variable [Element M] {schema : Schema} {nodes : Nat} {deed : Nat → Deed M} {first second : List Nat}

theorem Board.Walked.nil {b : Board M} (store : PropertyStore.Regular schema nodes b.store)
    (votes : BitSet.Regular nodes b.votes) : b.Walked schema nodes deed [] b :=
  ⟨.nil store votes, by simp [raisedIn], .refl b.mail, .zero b.progress⟩

theorem Board.Walked.trans {b c d : Board M} (one : b.Walked schema nodes deed first c)
    (two : c.Walked schema nodes deed second d) : b.Walked schema nodes deed (first ++ second) d where
  worked := one.worked.trans two.worked
  raised := by rw [two.raised, one.raised, raisedIn, raisedIn, raisedIn, List.any_append, Bool.or_assoc]
  inbox := one.inbox.trans two.inbox
  progress := by
    rw [List.length_append]
    exact one.progress.trans two.progress

theorem Desk.Walked.nil {d : Desk M} (store : PropertyStore.Regular schema nodes d.board.store)
    (votes : BitSet.Regular nodes d.board.votes) : d.Walked schema nodes deed [] d :=
  ⟨.nil store votes, by simp [raisedIn], rfl, rfl⟩

theorem Desk.Walked.trans {d e f : Desk M} (one : d.Walked schema nodes deed first e)
    (two : e.Walked schema nodes deed second f) : d.Walked schema nodes deed (first ++ second) f where
  worked := one.worked.trans two.worked
  raised := by rw [two.raised, one.raised, raisedIn, raisedIn, raisedIn, List.any_append, Bool.or_assoc]
  progress := two.progress.trans one.progress
  processed := by rw [two.processed, one.processed, List.length_append, Nat.add_assoc]

end Walked

/-! ## Tasks -/

namespace Job

variable [Element M] {job : Job γ M} {schema : Schema} {nodes superstep slot : Nat} {b c : Board M}
  {d e : Desk M}

theorem visit_walked {node : Nat} (inside : node < nodes) (same : b.Same node d.board)
    (store : PropertyStore.Regular schema nodes d.board.store) (votes : BitSet.Regular nodes d.board.votes)
    (ran : (job.visit superstep node).outcome d = (.ok (), e)) :
    d.Walked schema nodes (job.deed schema superstep b) [node] e ∧ job.Acts schema superstep b node := by
  obtain ⟨deed, acts, follows⟩ := visit_follows inside store votes ran
  rw [same.share, same.messages] at acts
  have isDeed : job.deed schema superstep b node = deed := by rw [Job.deed, acts]
  have framed := job.visit_framed superstep node d
  rw [ran] at framed
  subst isDeed
  refine ⟨⟨follows.worked, ?_, framed.board.progress, framed.processed⟩, by rw [Acts, acts]⟩
  simp [raisedIn, follows.raised]

omit [Element M] in
/-- What a task sees of the stop flag in front of a node. -/
theorem outcome_stopped (d : Desk M) :
    (Attempt.inspect fun d : Desk M => Except.ok (false || d.board.raised)).outcome d = (.ok d.board.raised, d) := by
  simp

/-- Once the flag is up no node is visited any more. -/
theorem visitAll_raised (up : d.board.raised = true) (todo : List Nat) :
    (job.visitAll false superstep todo).outcome d = (.ok (), d) := by
  cases todo with
  | nil => rfl
  | cons node todo =>
    rw [visitAll, Attempt.outcome_bind_of_ok (outcome_stopped d), up]
    rfl

theorem visitAll_cons (down : d.board.raised = false) (node : Nat) (todo : List Nat) :
    (job.visitAll false superstep (node :: todo)).outcome d =
      (job.visit superstep node >>= fun _ => job.visitAll false superstep todo).outcome d := by
  rw [visitAll, Attempt.outcome_bind_of_ok (outcome_stopped d), down]
  rfl

/-- Nodes that are visited one after the other do their deeds, up to the first one that raises the flag. -/
theorem visitAll_walked {todo : List Nat} (distinct : todo.Nodup) (inside : ∀ node ∈ todo, node < nodes)
    (same : ∀ node ∈ todo, b.Same node d.board)
    (store : PropertyStore.Regular schema nodes d.board.store)
    (votes : BitSet.Regular nodes d.board.votes) (down : d.board.raised = false)
    (ran : (job.visitAll false superstep todo).outcome d = (.ok (), e)) :
    d.Walked schema nodes (job.deed schema superstep b) (untilRaised (job.deed schema superstep b) todo) e ∧
      ∀ node ∈ untilRaised (job.deed schema superstep b) todo, job.Acts schema superstep b node := by
  induction todo generalizing d with
  | nil =>
    cases ran
    exact ⟨.nil store votes, nofun⟩
  | cons node todo inductionHypothesis =>
    rw [visitAll_cons down] at ran
    obtain ⟨_, middle, visits, later⟩ := Attempt.outcome_bind_ok ran
    have here := inside node (List.mem_cons_self ..)
    obtain ⟨walked, acts⟩ := visit_walked here (same node (List.mem_cons_self ..)) store votes visits
    have flag := walked.raised
    rw [down, Bool.false_or] at flag
    rw [untilRaised]
    split
    · next up =>
      rw [visitAll_raised (by simp [flag, raisedIn, up])] at later
      cases later
      exact ⟨walked, fun other member => List.mem_singleton.mp member ▸ acts⟩
    · next calm =>
      obtain ⟨walkedRest, actsRest⟩ := inductionHypothesis (List.nodup_cons.mp distinct).2
        (fun other member => inside other (List.mem_cons_of_mem _ member))
        (walked.worked.same_rest distinct inside same) walked.worked.board.store walked.worked.board.votes
        (by simp [flag, raisedIn, calm]) later
      refine ⟨walked.trans walkedRest, fun other member => ?_⟩
      rcases List.mem_cons.mp member with rfl | member
      · exact acts
      · exact actsRest other member

omit [Element M] in
theorem handIn_eq (slot : Nat) (d : Desk M) : (handIn slot).outcome d =
    match (Board.logProgress d.processed).outcome d.board with
    | (.error fault, b) => (.error fault, { d with board := b })
    | (.ok (), b) => (.ok (), { d with board :=
        { b with anySent := b.anySent || d.sent, mail := b.mail.deposit slot d.outbox } }) := by
  have counts : (Attempt.inspect fun d : Desk M => .ok d.processed).outcome d = (.ok d.processed, d) := rfl
  rw [handIn, Attempt.outcome_bind_of_ok counts, Attempt.outcome_bind, Desk.atBoard, Attempt.outcome_within]
  rcases (Board.logProgress d.processed).outcome d.board with ⟨fault | ⟨⟩, b⟩
  · rfl
  · rfl

omit [Element M] in
theorem handIn_ok (ran : (handIn slot).outcome d = (.ok (), e)) : ∃ meter,
    Counted d.processed d.board.progress meter ∧
      e = { d with board := { d.board with
        progress := meter, anySent := d.board.anySent || d.sent, mail := d.board.mail.deposit slot d.outbox } } := by
  rw [handIn_eq] at ran
  split at ran
  · cases ran
  · next b logged =>
    cases ran
    obtain ⟨meter, rfl, reports⟩ := Board.logProgress_ok logged
    exact ⟨meter, reports, rfl⟩

theorem work_walked {span : Span} (inside : ∀ node ∈ span.toList, node < nodes)
    (same : ∀ node ∈ span.toList, b.Same node c) (store : PropertyStore.Regular schema nodes c.store)
    (votes : BitSet.Regular nodes c.votes) (down : c.raised = false)
    (ran : (job.work false superstep slot span).outcome { board := c } = (.ok (), e))
    {visited : List Nat} (cut : untilRaised (job.deed schema superstep b) span.toList = visited) :
    c.Walked schema nodes (job.deed schema superstep b) visited e.board ∧
      c.mail.handIn slot (lettersOf (job.deed schema superstep b) visited) = .ok e.board.mail ∧
      e.board.anySent = (c.anySent || !(lettersOf (job.deed schema superstep b) visited).isEmpty) ∧
      ∀ node ∈ visited, job.Acts schema superstep b node := by
  rw [work] at ran
  obtain ⟨_, toured, visits, closed⟩ := Attempt.outcome_bind_ok ran
  obtain ⟨meter, reports, rfl⟩ := handIn_ok closed
  obtain ⟨walked, acts⟩ := visitAll_walked span.nodup_toList inside same store votes down visits
  rw [cut] at walked acts
  have worked := walked.worked
  have folded : c.mail.foldAll (lettersOf (job.deed schema superstep b) visited) = .ok toured.board.mail := worked.mail
  have handed : c.mail.handIn slot (lettersOf (job.deed schema superstep b) visited) =
      .ok (toured.board.mail.deposit slot toured.outbox) := by
    rw [Mail.handIn, folded]
    change Except.ok (Mail.deposit _ slot _) = Except.ok (Mail.deposit _ slot toured.outbox)
    rw [worked.outbox, Mail.collectAll, Mail.collectAll, Mail.collect_foldAll folded]
  refine ⟨⟨⟨worked.board.store, worked.board.word, worked.board.votes, worked.board.vote, worked.board.record⟩,
    walked.raised, Mail.sameInbox_handIn handed, ?_⟩, handed, ?_, acts⟩
  · have amount : visited.length = toured.processed := by rw [walked.processed, Nat.zero_add]
    rw [amount, ← walked.progress]
    exact reports
  · simp only [worked.anySent, worked.sent]
    rfl

/-! ## Batches -/

/-- The nodes of the task with a slot. -/
def nodesOf (job : Job γ M) (slot : Nat) : List Nat := (job.spans.getD slot ⟨0, 0⟩).toList

/-- What the tasks of a superstep do. -/
def works (job : Job γ M) (superstep : Nat) : List (Work (Board M)) :=
  job.spans.zipIdx.map fun (span, slot) => (job.action superstep slot span).run

theorem tasks_eq (job : Job γ M) (superstep : Nat) :
    job.tasks superstep = singles (job.works superstep) := by
  rw [tasks, works, singles, List.map_map]
  rfl

theorem length_works (job : Job γ M) (superstep : Nat) :
    (job.works superstep).length = job.spans.length := by
  simp [works]

theorem getElem_works (inside : slot < (job.works superstep).length) : ∃ bound : slot < job.spans.length,
    (job.works superstep)[slot] = (job.action superstep slot job.spans[slot]).run :=
  ⟨by rwa [length_works] at inside, by simp [works]⟩

theorem lt_length_works {order : List Nat} (all : order.Perm (List.range job.spans.length)) :
    ∀ slot ∈ order, slot < (job.works superstep).length := fun slot member => by
  rw [length_works]
  exact List.mem_range.mp (all.mem_iff.mp member)

omit [GraphView γ] [Element M] in
theorem nodesOf_eq (inside : slot < job.spans.length) : job.nodesOf slot = job.spans[slot].toList := by
  rw [nodesOf, List.getD_eq_getElem?_getD, List.getElem?_eq_getElem inside, Option.getD_some]

omit [GraphView γ] [Element M] in
theorem flatMap_nodesOf (tile : Span.Tile 0 job.spans nodes) :
    (List.range job.spans.length).flatMap job.nodesOf = List.range nodes := by
  have spans : (List.range job.spans.length).map (fun slot => job.spans.getD slot ⟨0, 0⟩) =
      job.spans := by
    apply List.ext_getElem
    · simp
    · intro slot _ there
      simp [there]
  have walked := tile.flatMap_toList
  rw [← spans, List.flatMap_map, Nat.sub_zero, ← List.range_eq_range'] at walked
  exact walked

omit [GraphView γ] [Element M] in
theorem nodesOf_inside (tile : Span.Tile 0 job.spans nodes) (slotInside : slot < job.spans.length) {node : Nat}
    (member : node ∈ job.nodesOf slot) : node < nodes := by
  have among : node ∈ (List.range job.spans.length).flatMap job.nodesOf :=
    List.mem_flatMap.mpr ⟨slot, List.mem_range.mpr slotInside, member⟩
  rw [flatMap_nodesOf tile] at among
  exact List.mem_range.mp among

/-- The board once the tasks with some slots are done, since the superstep started. -/
structure Done (job : Job γ M) (schema : Schema) (nodes superstep : Nat) (before : Board M)
    (slots : List Nat) (after : Board M) : Prop where
  worked : before.Worked schema nodes (job.deed schema superstep before) (slots.flatMap job.nodesOf) after
  mail : before.mail.handInAll
    (fun slot => lettersOf (job.deed schema superstep before) (job.nodesOf slot)) slots = .ok after.mail
  anySent : after.anySent = (before.anySent ||
    !(lettersOf (job.deed schema superstep before) (slots.flatMap job.nodesOf)).isEmpty)
  acts : ∀ node ∈ slots.flatMap job.nodesOf, job.Acts schema superstep before node

theorem action_walked {after : Board M} (slotInside : slot < job.spans.length)
    (inside : ∀ node ∈ job.nodesOf slot, node < nodes) (same : ∀ node ∈ job.nodesOf slot, b.Same node c)
    (store : PropertyStore.Regular schema nodes c.store) (votes : BitSet.Regular nodes c.votes)
    (down : c.raised = false) (ran : (job.action superstep slot job.spans[slot]).run .calm c = (none, after))
    {visited : List Nat} (cut : untilRaised (job.deed schema superstep b) (job.nodesOf slot) = visited) :
    c.Walked schema nodes (job.deed schema superstep b) visited after ∧
      c.mail.handIn slot (lettersOf (job.deed schema superstep b) visited) = .ok after.mail ∧
      after.anySent = (c.anySent || !(lettersOf (job.deed schema superstep b) visited).isEmpty) ∧
      ∀ node ∈ visited, job.Acts schema superstep b node := by
  rw [nodesOf_eq slotInside] at inside same cut
  simp only [Job.action, Action.ofFun, Signals.calm] at ran
  split at ran
  · next desk works =>
    cases ran
    exact work_walked inside same store votes down works cut
  · cases ran

/-- One more task is done: its nodes have not been visited before. -/
theorem Done.action {slots : List Nat} {after : Board M}
    (done : job.Done schema nodes superstep b slots c) (slotInside : slot < job.spans.length)
    (inside : ∀ node ∈ job.nodesOf slot, node < nodes)
    (fresh : ∀ node ∈ job.nodesOf slot, node ∉ slots.flatMap job.nodesOf) (down : c.raised = false)
    (ran : (job.action superstep slot job.spans[slot]).run .calm c = (none, after))
    (calm : after.raised = false) : job.Done schema nodes superstep b (slots ++ [slot]) after := by
  -- no task before this one has visited its nodes, and the inboxes do not change meanwhile
  have same : ∀ node ∈ job.nodesOf slot, b.Same node c := fun node member =>
    ⟨done.worked.share (inside node member) (fresh node member),
      (Mail.sameInbox_handInAll done.mail node).1⟩
  obtain ⟨walked, mail, anySent, acts⟩ :=
    action_walked slotInside inside same done.worked.store done.worked.votes down ran rfl
  -- the flag is down in the end, so that no node has been left out
  have none : raisedIn (job.deed schema superstep b) (job.nodesOf slot) = false := by
    have raised := walked.raised
    rw [calm, down, raisedIn_untilRaised] at raised
    exact raised.symm
  rw [untilRaised_eq_self none] at walked mail anySent acts
  have visited : (slots ++ [slot]).flatMap job.nodesOf = slots.flatMap job.nodesOf ++ job.nodesOf slot := by
    simp
  refine ⟨?_, Mail.handInAll_concat done.mail mail, ?_, ?_⟩
  · rw [visited]
    exact done.worked.trans walked.worked
  · rw [visited, anySent, done.anySent, some_lettersOf_append, Bool.or_assoc]
  · intro node member
    rw [visited] at member
    rcases List.mem_append.mp member with old | new
    · exact done.acts node old
    · exact acts node new

omit [GraphView γ] [Element M] in
theorem visited_perm (tile : Span.Tile 0 job.spans nodes) {order : List Nat}
    (all : order.Perm (List.range job.spans.length)) :
    (order.flatMap job.nodesOf).Perm (List.range nodes) :=
  (all.flatMap_right _).trans (.of_eq (flatMap_nodesOf tile))

omit [GraphView γ] [Element M] in
/-- The nodes of a task are nodes, and none of the tasks before it has visited them. -/
theorem nodesOf_fresh (tile : Span.Tile 0 job.spans nodes) {order slots todo : List Nat}
    (all : order.Perm (List.range job.spans.length)) (split : order = slots ++ slot :: todo) :
    (∀ node ∈ job.nodesOf slot, node < nodes) ∧
      ∀ node ∈ job.nodesOf slot, node ∉ slots.flatMap job.nodesOf := by
  have visited := visited_perm tile all
  have distinct : (order.flatMap job.nodesOf).Nodup := visited.nodup_iff.mpr List.nodup_range
  rw [split] at visited
  rw [split, List.flatMap_append, List.flatMap_cons, List.nodup_append] at distinct
  refine ⟨fun node member => ?_, fun node member earlier => ?_⟩
  · exact List.mem_range.mp (visited.mem_iff.mp (List.mem_flatMap.mpr ⟨slot, by simp, member⟩))
  · exact distinct.2.2 node earlier node (List.mem_append_left _ member) rfl

/-- A batch that finishes has visited every node once, whatever order its tasks were executed in. -/
theorem batch_done (tile : Span.Tile 0 job.spans nodes) {order : List Nat}
    (all : order.Perm (List.range job.spans.length))
    (store : PropertyStore.Regular schema nodes b.store) (votes : BitSet.Regular nodes b.votes)
    (ran : inOrder Board.raised order (job.tasks superstep) b = (.ok .finished, c)) :
    job.Done schema nodes superstep b order c ∧ c.raised = false ∧
      (order.flatMap job.nodesOf).Perm (List.range nodes) := by
  rw [tasks_eq] at ran
  have start : job.Done schema nodes superstep b [] b :=
    ⟨.nil store votes, rfl, by simp [lettersOf], by simp⟩
  -- each task of the batch adds its deeds to those that are done
  suffices finished : job.Done schema nodes superstep b order c ∧ c.raised = false from
    ⟨finished.1, finished.2, visited_perm tile all⟩
  refine inOrder_finished (job.Done schema nodes superstep b) ?_ (lt_length_works all) start ran
  intro slots slot todo split inside s t done down worked calm
  obtain ⟨bound, work⟩ := getElem_works inside
  rw [work] at worked
  obtain ⟨nodesInside, fresh⟩ := nodesOf_fresh tile all split
  exact done.action bound nodesInside fresh down worked calm

end Job
end BulkSync
