import BulkSync.Proofs.BitSet
import BulkSync.Proofs.Engine.Moves
import BulkSync.Proofs.Message.Mail
import BulkSync.Proofs.Vertex.Deed

/-! # What a visit does to a desk

A visit does to the desk of a task what the deed of the node says, and nothing else (`visit_follows`):
the numbers and the vote of the node become those of the deed, its events stand in the record, and its
letters are folded or collected one after the other. Call for call, what succeeds on the desk succeeds
on the deed with the same answer. -/

namespace BulkSync

variable {M : Type}

/-- What a node has of a board before it is visited. -/
def Board.share (b : Board M) (node : Nat) : Deed M :=
  ⟨fun index => b.store.word index node, b.votes.test node, false, []⟩

namespace Desk

variable [Element M]

/-- A desk on which a node that is visited has left the traces of a deed, since the visit started. -/
structure Traces (schema : Schema) (nodes node : Nat) (start d : Desk M) (deed : Deed M) : Prop where
  store : PropertyStore.Regular schema nodes d.board.store
  word : ∀ index, ∀ other < nodes, d.board.store.word index other =
    if other = node then deed.row index else start.board.store.word index other
  votes : BitSet.Regular nodes d.board.votes
  vote : ∀ other < nodes, d.board.votes.test other =
    if other = node then deed.halted else start.board.votes.test other
  raised : d.board.raised = (start.board.raised || deed.raised)
  record : d.board.record.toList = start.board.record.toList ++ deed.events
  mail : start.board.mail.foldAll deed.letters = .ok d.board.mail
  outbox : d.outbox = start.board.mail.collectAll deed.letters start.outbox
  anySent : d.board.anySent = start.board.anySent

/-- A desk at which a node that is visited has come to a deed: every call that has sent something has also come to
its end, where the task is marked as one that has sent. -/
structure Follows (schema : Schema) (nodes node : Nat) (start d : Desk M) (deed : Deed M) : Prop extends
    Traces schema nodes node start d deed where
  sent : d.sent = (start.sent || !deed.letters.isEmpty)

variable {schema : Schema} {nodes node : Nat} {start d e : Desk M} {deed next : Deed M}

theorem follows_share (store : PropertyStore.Regular schema nodes d.board.store)
    (votes : BitSet.Regular nodes d.board.votes) :
    Follows schema nodes node d d (d.board.share node) where
  store := store
  word index other _ := by
    split
    · next here => rw [here]; rfl
    · rfl
  votes := votes
  vote other _ := by
    split
    · next here => rw [here]; rfl
    · rfl
  raised := by simp [Board.share]
  record := by simp [Board.share]
  mail := rfl
  outbox := rfl
  sent := by simp [Board.share, Deed.letters]
  anySent := rfl

/-! ## Changes -/

namespace Traces

variable (traces : Traces schema nodes node start d deed)
include traces

/-- Neither what a task remembers of its sending nor what it counts is a trace. -/
theorem marked (sent : Bool) (processed : Nat) :
    Traces schema nodes node start { d with sent := sent, processed := processed } deed :=
  ⟨traces.store, traces.word, traces.votes, traces.vote, traces.raised, traces.record, traces.mail,
    traces.outbox, traces.anySent⟩

theorem note {event : Event M} (other : event.letter? = none) :
    Traces schema nodes node start (d.onBoard (·.note event)) (deed.note event) := by
  refine ⟨traces.store, traces.word, traces.votes, traces.vote, traces.raised, ?_, ?_, ?_, traces.anySent⟩
  · simp [onBoard, Board.note, Deed.note, traces.record]
  · rw [deed.letters_note other]
    exact traces.mail
  · rw [deed.letters_note other]
    exact traces.outbox

theorem putWord (inside : node < nodes) {index : Nat} (declared : index < schema.properties.length)
    (word : UInt64) :
    Traces schema nodes node start
      { d with board := d.board.setStore (d.board.store.putWord index node word) }
      (deed.putWord index word) := by
  refine ⟨traces.store.putWord index inside word, fun column other otherInside => ?_, traces.votes,
    traces.vote, traces.raised, traces.record, traces.mail, traces.outbox, traces.anySent⟩
  simp only [Board.setStore, traces.store.word_putWord declared inside, Deed.putWord,
    traces.word column other otherInside]
  split <;> simp_all

theorem raise : Traces schema nodes node start { d with board := { d.board with raised := true } }
    { deed with raised := true } :=
  ⟨traces.store, traces.word, traces.votes, traces.vote, by simp, traces.record, traces.mail,
    traces.outbox, traces.anySent⟩

theorem putVote (inside : node < nodes) :
    Traces schema nodes node start
      { d with board := { d.board with votes := d.board.votes.put node } }
      { deed with halted := true } := by
  refine ⟨traces.store, traces.word, traces.votes.put inside, fun other otherInside => ?_,
    traces.raised, traces.record, traces.mail, traces.outbox, traces.anySent⟩
  simp only [traces.votes.test_put inside, traces.vote other otherInside]
  by_cases here : other = node <;> simp [here]

theorem dropVote (inside : node < nodes) :
    Traces schema nodes node start
      { d with board := { d.board with votes := d.board.votes.drop node } }
      { deed with halted := false } := by
  refine ⟨traces.store, traces.word, traces.votes.drop inside, fun other otherInside => ?_,
    traces.raised, traces.record, traces.mail, traces.outbox, traces.anySent⟩
  simp only [traces.votes.test_drop inside, traces.vote other otherInside]
  by_cases here : other = node <;> simp [here]

theorem post {superstep source target : Nat} {message : M} {answer : Unit}
    (ran : (Desk.post superstep source target message).outcome d = (.ok answer, e)) :
    Traces schema nodes node start e (deed.note (.send superstep source target message)) := by
  rw [Desk.post, Attempt.outcome_of] at ran
  split at ran
  · simp at ran
  · next mail folded =>
    obtain rfl := (Prod.mk.inj ran).2
    refine ⟨traces.store, traces.word, traces.votes, traces.vote, traces.raised, ?_, ?_, ?_, traces.anySent⟩
    · simp [Deed.note, traces.record]
    · rw [Deed.letters_note_send, Mail.foldAll_append, traces.mail]
      change Mail.foldAll d.board.mail [(target, message)] = _
      rw [Mail.foldAll, List.foldlM_cons, folded]
      rfl
    · have collect : mail.collect = start.board.mail.collect := by
        refine (Mail.collect_foldAll (?_ : d.board.mail.foldAll [(target, message)] = .ok mail)).trans
          (Mail.collect_foldAll traces.mail)
        rw [Mail.foldAll, List.foldlM_cons, folded]
        rfl
      rw [Deed.letters_note_send, Mail.collectAll_append, ← traces.outbox, collect]
      rfl

theorem posts {superstep source : Nat} {message : M} (targets : List Nat) {answer : Unit}
    (ran : (targets.forM fun target => Desk.post superstep source target message).outcome d =
      (.ok answer, e)) :
    Traces schema nodes node start e (deed.sends superstep source (targets.map (·, message))) := by
  induction targets generalizing d deed with
  | nil =>
    cases ran
    simpa using traces
  | cons target targets inductionHypothesis =>
    obtain ⟨_, middle, first, rest⟩ := Attempt.outcome_bind_ok ran
    simpa using inductionHypothesis (traces.post first) rest

end Traces

/-! ## The mark of a task that has sent something -/

section Marks

variable {superstep source : Nat} {message : M} {targets : List Nat} {answer : Unit}

theorem post_sent {target : Nat}
    (ran : (Desk.post superstep source target message).outcome d = (.ok answer, e)) : e.sent = d.sent := by
  rw [Desk.post, Attempt.outcome_of] at ran
  split at ran
  · cases ran
  · obtain rfl := (Prod.mk.inj ran).2
    rfl

theorem posts_sent (ran : (targets.forM fun target => Desk.post superstep source target message).outcome d =
    (.ok answer, e)) : e.sent = d.sent := by
  induction targets generalizing d with
  | nil =>
    cases ran
    rfl
  | cons target targets inductionHypothesis =>
    obtain ⟨_, middle, first, rest⟩ := Attempt.outcome_bind_ok ran
    exact (inductionHypothesis rest).trans (post_sent first)

/-- A call that sends something marks the task when it has come to its end. -/
theorem send_sent (ran : (Desk.send superstep source targets message).outcome d = (.ok answer, e)) :
    e.sent = (d.sent || !targets.isEmpty) := by
  obtain ⟨_, middle, posts, marks⟩ := Attempt.outcome_bind_ok ran
  obtain rfl := (Prod.mk.inj marks).2
  simp only [posts_sent posts]

end Marks

namespace Follows

/-- A change that sends nothing. -/
theorem silent (follows : Follows schema nodes node start d deed) (traces : Traces schema nodes node start e next)
    (sent : e.sent = d.sent) (letters : next.letters = deed.letters) : Follows schema nodes node start e next :=
  ⟨traces, by rw [sent, letters, follows.sent]⟩

theorem note (follows : Follows schema nodes node start d deed) {event : Event M}
    (other : event.letter? = none) :
    Follows schema nodes node start (d.onBoard (·.note event)) (deed.note event) :=
  follows.silent (follows.toTraces.note other) rfl (deed.letters_note other)

theorem putWord (follows : Follows schema nodes node start d deed) (inside : node < nodes) {index : Nat}
    (declared : index < schema.properties.length) (word : UInt64) :
    Follows schema nodes node start
      { d with board := d.board.setStore (d.board.store.putWord index node word) }
      (deed.putWord index word) :=
  follows.silent (follows.toTraces.putWord inside declared word) rfl rfl

theorem raise (follows : Follows schema nodes node start d deed) :
    Follows schema nodes node start { d with board := { d.board with raised := true } }
      { deed with raised := true } :=
  follows.silent follows.toTraces.raise rfl rfl

theorem putVote (follows : Follows schema nodes node start d deed) (inside : node < nodes) :
    Follows schema nodes node start
      { d with board := { d.board with votes := d.board.votes.put node } }
      { deed with halted := true } :=
  follows.silent (follows.toTraces.putVote inside) rfl rfl

theorem dropVote (follows : Follows schema nodes node start d deed) (inside : node < nodes) :
    Follows schema nodes node start
      { d with board := { d.board with votes := d.board.votes.drop node } }
      { deed with halted := false } :=
  follows.silent (follows.toTraces.dropVote inside) rfl rfl

theorem send (follows : Follows schema nodes node start d deed) {superstep source : Nat} {message : M}
    {targets : List Nat} {answer : Unit}
    (ran : (Desk.send superstep source targets message).outcome d = (.ok answer, e)) :
    Follows schema nodes node start e (deed.sends superstep source (targets.map (·, message))) := by
  obtain ⟨_, middle, posts, marks⟩ := Attempt.outcome_bind_ok ran
  have traces := follows.toTraces.posts targets posts
  refine ⟨(Prod.mk.inj marks).2 ▸ traces.marked _ _, ?_⟩
  rw [send_sent ran, follows.sent, Deed.letters_sends]
  cases targets <;> simp

/-! ## Calls -/

/-- A number that is set in the store is set in the deed. -/
theorem write (follows : Follows schema nodes node start d deed) (inside : node < nodes)
    (change : PropertyStore → Except Fault PropertyStore) {kind : PropertyKind} {key : String}
    {word : UInt64} {b : Board M} {answer : Unit}
    (changes : change d.board.store = ((schema.place kind key).mapError .property).map
      fun index => d.board.store.putWord index node word)
    (ran : (Handler.update change).outcome d.board = (.ok answer, b)) :
    ∃ next, (Deed.write schema kind key word).outcome deed = (.ok answer, next) ∧
      Follows schema nodes node start { d with board := b } next := by
  have wrote := Attempt.outcome_replace_ok ran
  rw [changes] at wrote
  cases place : schema.place kind key with
  | error error => simp [place, mapError_error, Except.map] at wrote
  | ok index =>
    simp only [place, mapError_ok, Except.map, Except.ok.injEq] at wrote
    subst wrote
    refine ⟨deed.putWord index word, ?_, follows.putWord inside (Schema.place_lt place) word⟩
    simp [Deed.write, Attempt.outcome_replace, place, mapError_ok, Except.map]

theorem setup {γ : Type} [GraphView γ] (g : γ) (inside : node < nodes) (d : Desk M) (call : SetupCall)
    (b : Board M) (deed : Deed M) (answer : SetupContext.Answer call) (after : Board M)
    (follows : Follows schema nodes node start { d with board := b } deed)
    (ran : (Handler.setup g node call).outcome b = (.ok answer, after)) :
    ∃ next, (Deed.setup g schema node call).outcome deed = (.ok answer, next) ∧
      Follows schema nodes node start { d with board := after } next := by
  cases call with
  | degree =>
    obtain ⟨found, rfl⟩ := Prod.mk.inj ran
    exact ⟨deed, Prod.ext found rfl, follows⟩
  | setLong key value =>
    exact follows.write inside (·.writeLong key node value) (follows.store.writeLong key inside value) ran
  | setDouble key value =>
    exact follows.write inside (·.writeDouble key node value) (follows.store.writeDouble key inside value)
      ran
  | raise =>
    cases ran
    exact ⟨_, rfl, follows.raise⟩

theorem vertex {γ : Type} [GraphView γ] (g : γ) (superstep : Nat) (inside : node < nodes)
    (call : VertexCall M) (d : Desk M) (deed : Deed M) (answer : (VertexContext M).Answer call)
    (e : Desk M) (follows : Follows schema nodes node start d deed)
    (ran : (Handler.vertex g superstep node call).outcome d = (.ok answer, e)) :
    ∃ next, (Deed.vertex g schema superstep node call).outcome deed = (.ok answer, next) ∧
      Follows schema nodes node start e next := by
  have own : ∀ index, d.board.store.word index node = deed.row index := fun index => by
    simpa using follows.word index node inside
  cases call with
  | degree | neighbors more | weightedNeighbors more =>
    obtain ⟨found, rfl⟩ := Prod.mk.inj ran
    exact ⟨deed, Prod.ext found rfl, follows⟩
  | getLong key =>
    obtain ⟨found, rfl⟩ := Prod.mk.inj ran
    have read := (follows.store.readLong key inside).symm.trans found
    simp only [own] at read
    exact ⟨deed, Prod.ext read rfl, follows⟩
  | getDouble key =>
    obtain ⟨found, rfl⟩ := Prod.mk.inj ran
    have read := (follows.store.readDouble key inside).symm.trans found
    simp only [own] at read
    exact ⟨deed, Prod.ext read rfl, follows⟩
  | setLong key value =>
    obtain ⟨result, rfl⟩ := Prod.mk.inj ran
    exact follows.write inside (·.writeLong key node value) (follows.store.writeLong key inside value)
      (Prod.ext result rfl)
  | setDouble key value =>
    obtain ⟨result, rfl⟩ := Prod.mk.inj ran
    exact follows.write inside (·.writeDouble key node value) (follows.store.writeDouble key inside value)
      (Prod.ext result rfl)
  | send target message =>
    simp only [Handler.vertex] at ran
    split at ran
    · next targetInside =>
      obtain rfl : answer = () := rfl
      exact ⟨_, by simp [Deed.vertex, targetInside, Deed.sends, Deed.note], follows.send ran⟩
    · simp at ran
  | sendToNeighbors message =>
    obtain ⟨targets, middle, first, rest⟩ := Attempt.outcome_bind_ok ran
    obtain ⟨found, rfl⟩ := Prod.mk.inj first
    have asked : (Attempt.lift (Handler.targets g node)).outcome deed = (.ok targets, deed) :=
      Prod.ext found rfl
    exact ⟨_, (Attempt.outcome_bind_of_ok asked).trans (Deed.outcome_sends superstep node message _ deed),
      follows.send rest⟩
  | halt =>
    cases ran
    exact ⟨_, rfl, (follows.putVote inside).note rfl⟩
  | raise =>
    cases ran
    exact ⟨_, rfl, follows.raise⟩

end Follows
end Desk

/-! ## The visit -/

namespace Job

variable {γ : Type} [GraphView γ] [Element M] {job : Job γ M} {superstep node nodes : Nat}
  {schema : Schema} {start d e : Desk M} {deed : Deed M}

theorem setUp_follows (inside : node < nodes)
    (follows : Desk.Follows schema nodes node start d deed)
    (ran : (if superstep = 0 then job.setUp node else pure ()).outcome d = (.ok (), e)) :
    ∃ next, (Deed.setUp job.graph job.computation schema superstep node).outcome deed = (.ok (), next) ∧
      Desk.Follows schema nodes node start e next := by
  rw [Deed.setUp]
  split at ran
  · next zero =>
    rw [if_pos zero]
    obtain ⟨_, noted, first, rest⟩ := Attempt.outcome_bind_ok ran
    cases first
    obtain ⟨result, rfl⟩ := Prod.mk.inj rest
    obtain ⟨next, finished, final⟩ := Program.run_simulates
      (fun b deed => Desk.Follows schema nodes node start { d with board := b } deed)
      (Desk.Follows.setup job.graph inside d) _ _ _ _ _
      (follows.note (rfl : (Event.setup node : Event M).letter? = none)) (Prod.ext result rfl)
    exact ⟨next, (Attempt.outcome_bind_of_ok (Attempt.outcome_change _ _)).trans finished, final⟩
  · next later =>
    rw [if_neg later]
    cases ran
    exact ⟨deed, rfl, follows⟩

theorem wake_follows (inside : node < nodes) (follows : Desk.Follows schema nodes node start d deed)
    {awake : Bool} (ran : (wake node).outcome d = (.ok awake, e)) :
    ∃ next, (Deed.wake (start.board.mail.messages node)).outcome deed = (.ok awake, next) ∧
      Desk.Follows schema nodes node start e next := by
  have vote : d.board.votes.test node = deed.halted := by simpa using follows.vote node inside
  have any : d.board.mail.hasMessages node = !(start.board.mail.messages node).isEmpty := by
    rw [(Mail.sameInbox_foldAll follows.mail node).2, Mail.hasMessages_eq]
  -- the desk and the deed decide alike, as they agree on the vote and on the messages
  rw [wake, Attempt.outcome_of, vote, any] at ran
  rw [Deed.wake, Attempt.outcome_of]
  split at ran
  · next up =>
    cases ran
    exact ⟨deed, by rw [if_pos up], follows⟩
  · next down =>
    rw [if_neg down]
    split at ran
    · next some =>
      cases ran
      exact ⟨_, by rw [if_pos some], follows.dropVote inside⟩
    · next none =>
      cases ran
      exact ⟨deed, by rw [if_neg none], follows⟩

theorem compute_follows (inside : node < nodes) (follows : Desk.Follows schema nodes node start d deed)
    (ran : (job.compute superstep node).outcome d = (.ok (), e)) :
    ∃ next, (Deed.compute job.graph job.computation schema superstep node
        (start.board.mail.messages node)).outcome deed = (.ok (), next) ∧
      Desk.Follows schema nodes node start e next := by
  obtain ⟨messages, _, first, rest⟩ := Attempt.outcome_bind_ok ran
  cases first
  obtain ⟨_, noted, second, runs⟩ := Attempt.outcome_bind_ok rest
  cases second
  rw [(Mail.sameInbox_foldAll follows.mail node).1] at runs
  obtain ⟨next, finished, final⟩ := Program.run_simulates (Desk.Follows schema nodes node start)
    (Desk.Follows.vertex job.graph superstep inside) _ _ _ _ _
    (follows.note (rfl : (Event.compute superstep node (start.board.mail.messages node)).letter? = none))
    runs
  exact ⟨next, (Attempt.outcome_bind_of_ok (Attempt.outcome_change _ _)).trans finished, final⟩

/-- A visit that succeeds has done to the desk what the deed of the node says. -/
theorem visit_follows (inside : node < nodes) (store : PropertyStore.Regular schema nodes d.board.store)
    (votes : BitSet.Regular nodes d.board.votes)
    (ran : (job.visit superstep node).outcome d = (.ok (), e)) :
    ∃ deed, (Deed.visit job.graph job.computation schema superstep node
        (d.board.mail.messages node)).outcome (d.board.share node) = (.ok (), deed) ∧
      Desk.Follows schema nodes node d e deed := by
  have start : Desk.Follows schema nodes node d d (d.board.share node) := Desk.follows_share store votes
  rw [visit_eq] at ran
  obtain ⟨_, counted, first, rest⟩ := Attempt.outcome_bind_ok ran
  cases first
  have startCounted : Desk.Follows schema nodes node d { d with processed := d.processed + 1 }
      (d.board.share node) :=
    start.silent (start.toTraces.marked d.sent (d.processed + 1)) rfl rfl
  obtain ⟨_, ready, second, later⟩ := Attempt.outcome_bind_ok rest
  obtain ⟨deed₁, setUp, follows₁⟩ := setUp_follows inside startCounted second
  obtain ⟨awake, woken, third, last⟩ := Attempt.outcome_bind_ok later
  obtain ⟨deed₂, wakes, follows₂⟩ := wake_follows inside follows₁ third
  rw [Deed.visit, Attempt.outcome_bind_of_ok setUp, Attempt.outcome_bind_of_ok wakes]
  cases awake with
  | true => exact compute_follows inside follows₂ last
  | false =>
    cases last
    exact ⟨deed₂, rfl, follows₂⟩

end Job
end BulkSync
