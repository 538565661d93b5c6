import BulkSync.Proofs.Engine.Letters

/-! # Boards at rest

A board is at rest if all nodes have voted to halt and the mailboxes hold no letter (`Job.Resting`). A
superstep that starts from such a board, other than the first one, lets no node compute: its tasks leave
nothing but the progress meter behind (`left_resting`), and delivery finds nothing to deliver
(`pass_resting`). A run that has converged without being asked to stop has come to such a board, and any
number of further supersteps would leave it as it is (`converged_at_rest`).

The computation is asked behind a superstep, when that is over. It may set numbers then, also of a board at
rest, and no one else does: the properties in front of the next superstep are those that its own code makes
of the properties that the superstep has left, which are the ones it has found (`Job.Idles`). -/

namespace BulkSync

variable {γ M : Type} [GraphView γ] [Element M]

/-- A board on which all nodes have voted to halt and no letter is held. -/
structure Job.Resting (job : Job γ M) (schema : Schema) (nodes : Nat) (b : Board M) : Prop where
  ready : b.Ready schema nodes job.spans.length job.computation.reducer []
  full : ∀ node < nodes, b.votes.test node = true

/-- What a superstep makes of a board: its tasks are executed and the mail is delivered. The computation is
asked behind it. -/
def Job.pass (job : Job γ M) (superstep : Nat) (b : Board M) : Except Fault (Board M) :=
  (job.left superstep b).mail.swap.map fun mail => { job.left superstep b with mail := mail }

/-- So many supersteps in a row, from that number on. -/
def Job.passes (job : Job γ M) (first : Nat) (b : Board M) : Nat → Except Fault (Board M)
  | 0 => .ok b
  | count + 1 => job.passes first b count >>= job.pass (first + count)

/-- A board on which no number, no vote and no mailbox is different from another one, and on which nothing has
been done since. -/
structure Board.Untouched (b after : Board M) : Prop where
  store : after.store = b.store
  votes : after.votes = b.votes
  mail : after.mail = b.mail
  record : after.record = b.record

/-- What a superstep, and the question behind it, do to a board at rest. The superstep leaves the board as it
is, and all that becomes different behind it is what the computation's own code sets. -/
structure Job.Idles (job : Job γ M) (superstep : Nat) (b after : Board M) : Prop where
  passes : ∃ passed, job.pass superstep b = .ok passed ∧ b.Untouched passed ∧ passed.anySent = false
  votes : after.votes = b.votes
  mail : after.mail = b.mail
  anySent : after.anySent = false
  record : ∃ events, after.record.toList = b.record.toList ++ events ∧ ∀ event ∈ events, event.node? = none
  store : after.store = b.store ∨ ∃ asked : Board M, asked.store = b.store ∧
    after.store = (((job.computation.master
      ⟨superstep, GraphView.nodeCount job.graph, GraphView.edgeCount job.graph⟩).run
        (Handler.master job.graph)).outcome asked).2.store

namespace Job

variable {job : Job γ M} {schema : Schema} {nodes superstep node slot : Nat} {b c : Board M} {d : Desk M}

omit [GraphView γ] in
theorem Resting.hasMessages (resting : job.Resting schema nodes b) (inside : node < nodes) :
    b.mail.hasMessages node = false := by
  rw [resting.ready.mail.hasMessages_iff inside]
  rfl

/-! ## Tasks -/

omit [GraphView γ] in
/-- A board with the votes and the mail of one at rest is at rest, whatever its numbers are. -/
theorem Resting.same {after : Board M} (resting : job.Resting schema nodes b)
    (store : PropertyStore.Regular schema nodes after.store) (votes : after.votes = b.votes)
    (mail : after.mail = b.mail) : job.Resting schema nodes after :=
  ⟨⟨store, votes ▸ resting.ready.votes, mail ▸ resting.ready.mail⟩, votes ▸ resting.full⟩

theorem Idles.resting {after : Board M} (idles : job.Idles superstep b after)
    (resting : job.Resting schema nodes b) : job.Resting schema nodes after := by
  refine resting.same ?_ idles.votes idles.mail
  rcases idles.store with same | ⟨asked, same, set⟩
  · rw [same]
    exact resting.ready.store
  · rw [set]
    exact (job.consult_frame superstep (same ▸ resting.ready.store)).store

/-! ## Courses -/

/-- What any number of supersteps, and the questions behind them, do to a board at rest: they let no node do
anything. -/
structure Stays (b after : Board M) : Prop where
  votes : after.votes = b.votes
  mail : after.mail = b.mail
  record : ∃ events, after.record.toList = b.record.toList ++ events ∧ ∀ event ∈ events, event.node? = none

theorem Idles.stays {middle after : Board M} (stays : Stays b middle)
    (idles : job.Idles superstep middle after) : Stays b after where
  votes := idles.votes.trans stays.votes
  mail := idles.mail.trans stays.mail
  record := by
    obtain ⟨early, before, quiet⟩ := stays.record
    obtain ⟨late, behind, quietToo⟩ := idles.record
    refine ⟨early ++ late, by rw [behind, before, List.append_assoc], fun event member => ?_⟩
    rcases List.mem_append.mp member with old | new
    · exact quiet event old
    · exact quietToo event new

end Job

/-! ## Runs that have converged -/

namespace Engine

variable {e after : Engine γ M} {executor : Nat → Executor (Board M)} {result : RunResult}
  {schema : Schema} {job : Job γ M} {board : Board M}

/-- A run that has converged without being asked to stop has come to a board at rest. -/
theorem Account.resting (account : e.Account executor result after schema job board)
    (steps : job.Steps schema (GraphView.nodeCount e.graph) board result.supersteps)
    (converged : result.outcome = .converged)
    (unasked : .answer (result.supersteps - 1) false ∈ after.record.toList) :
    0 < result.supersteps ∧ job.Resting schema (GraphView.nodeCount e.graph)
      (job.boardAt board result.supersteps) := by
  obtain ⟨s, last, _, settled⟩ := account.reached.last converged
  rw [← last, Nat.add_sub_cancel] at unasked
  rw [← last]
  obtain ⟨letters, stop, stepped⟩ := steps s (by omega)
  obtain rfl : false = stop := (account.answer_mem_record steps (by omega) stepped false).mp unasked
  -- the last superstep has settled the run, and not by its answer
  have quiet := (stepped.settled.mp settled).resolve_left Bool.false_ne_true
  have silent : lettersOf (job.deed schema s (job.boardAt board s))
      (List.range (GraphView.nodeCount e.graph)) = [] :=
    List.flatMap_eq_nil_iff.mpr fun node member => (quiet node (List.mem_range.mp member)).2
  obtain rfl : letters = [] := List.perm_nil.mp (silent ▸ stepped.sent)
  exact ⟨Nat.succ_pos s, stepped.ready, fun node inside =>
    (stepped.vote node inside).trans (quiet node inside).1⟩

end Engine
end BulkSync
