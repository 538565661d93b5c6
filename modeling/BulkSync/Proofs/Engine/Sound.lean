import BulkSync.Proofs.Engine.Course
import BulkSync.Proofs.Engine.Keeping

/-! # Boards in order

The board of a run has a store of the schema, a set of votes with one bit per node, and mailboxes whose sides each
hold the fold of some letters (`Board.Sound`). Whatever is done to it keeps that up, whether it succeeds or fails.
So all boards that arise in a run are sound (`Job.Arises.sound`), and so is the desk at which a node computes
(`Job.Computes.sound`). -/

namespace BulkSync

open Attempt (Keeps)

variable {γ M : Type} [Element M] {schema : Schema} {nodes node : Nat}

/-- Mailboxes of which each side holds the fold of some letters to nodes. Of queues nothing is asked. -/
def Mail.Sound (nodes : Nat) : Mail M → Prop
  | .queue _ => True
  | .reduced r => ∃ letters old, r.sending.Holds r.reducer nodes letters ∧ r.receiving.Holds r.reducer nodes old

structure Board.Sound (schema : Schema) (nodes : Nat) (b : Board M) : Prop where
  filed : b.Filed schema nodes
  votes : BitSet.Regular nodes b.votes
  mail : b.mail.Sound nodes

def Desk.Sound (schema : Schema) (nodes : Nat) (d : Desk M) : Prop := d.board.Sound schema nodes

/-! ## Mailboxes -/

namespace Mail

variable {mail full : Mail M}

theorem sound_new {reducer : Option (Reducer M)} (made : Mail.new nodes reducer = .ok mail) : mail.Sound nodes := by
  have holds := holds_new made
  cases holds with
  | queue inside => trivial
  | reduced same blank holds =>
    subst same
    exact ⟨[], [], blank ▸ MailSide.holds_blank _ _, holds⟩

theorem Sound.foldAll (sound : mail.Sound nodes) {letters : List (Nat × M)}
    (ran : mail.foldAll letters = .ok full) : full.Sound nodes := by
  cases mail with
  | queue q =>
    rw [foldAll_queue] at ran
    cases ran
    trivial
  | reduced r =>
    obtain ⟨sent, old, sends, receives⟩ := sound
    obtain ⟨folded, rfl, same, inbox, held⟩ := sendAll_holds rfl sends letters ran
    exact ⟨_, old, same ▸ held, same ▸ inbox ▸ receives⟩

theorem Sound.fold (sound : mail.Sound nodes) {target : Nat} {message : M}
    (ran : mail.fold target message = .ok full) : full.Sound nodes := by
  have folds : mail.foldAll [(target, message)] = .ok full := by
    rw [Mail.foldAll, List.foldlM_cons, ran]
    rfl
  exact sound.foldAll folds

theorem Sound.prepare (sound : mail.Sound nodes) (tasks : Nat) : (mail.prepare tasks).Sound nodes := by
  cases mail <;> exact sound

theorem Sound.deposit (sound : mail.Sound nodes) (slot : Nat) (outbox : Outbox M) :
    (mail.deposit slot outbox).Sound nodes := by
  cases mail <;> exact sound

theorem Sound.swap (sound : mail.Sound nodes) (ran : mail.swap = .ok full) : full.Sound nodes := by
  cases mail with
  | queue q =>
    obtain ⟨delivered, _, done⟩ := bind_eq_ok_iff.mp ran
    cases done
    trivial
  | reduced r =>
    obtain ⟨sent, old, sends, receives⟩ := sound
    cases ran
    refine ⟨[], sent, ?_, sends⟩
    rw [ReducedMail.swap, receives.renewed]
    exact MailSide.holds_blank _ _

end Mail

/-! ## Moves -/

section Moves

variable {superstep : Nat} {b c : Board M} {d e : Desk M}

theorem Board.Sound.note (sound : b.Sound schema nodes) (event : Event M) : (b.note event).Sound schema nodes :=
  ⟨sound.filed, sound.votes, sound.mail⟩

theorem Board.Sound.changes (sound : b.Sound schema nodes) (change : b.Changes c) : c.Sound schema nodes := by
  cases change with
  | setLong wrote => exact ⟨sound.filed.writeLong_regular wrote, sound.votes, sound.mail⟩
  | setDouble wrote => exact ⟨sound.filed.writeDouble_regular wrote, sound.votes, sound.mail⟩
  | raise => exact ⟨sound.filed, sound.votes, sound.mail⟩

theorem Desk.Sound.moves (inside : node < nodes) (sound : d.Sound schema nodes) (move : d.Moves superstep node e) :
    e.Sound schema nodes := by
  have board : d.board.Sound schema nodes := sound
  cases move with
  | changes change => exact board.changes change
  | setsUp | computes => exact board.note _
  | marks => exact board
  | wakes => exact ⟨board.filed, board.votes.drop inside, board.mail⟩
  | posts folded => exact ⟨board.filed, board.votes, board.mail.fold folded⟩
  | halts => exact ⟨board.filed, board.votes.put inside, board.mail⟩

theorem Board.logProgress_sound (amount : Nat) :
    Keeps (Board.Sound schema nodes) (Board.logProgress amount : Attempt (Board M) Unit) := by
  intro b sound
  obtain ⟨meter, changed⟩ := b.logProgress_changes amount
  rw [changed]
  exact ⟨sound.filed, sound.votes, sound.mail⟩

end Moves

/-! ## Tasks -/

namespace Job

variable [GraphView γ] {job : Job γ M} {superstep : Nat} {b : Board M}

theorem visit_sound (job : Job γ M) (superstep : Nat) (inside : node < nodes) :
    Keeps (Desk.Sound schema nodes) (job.visit superstep node) :=
  fun d sound => job.visit_keeps (Desk.Sound.moves inside) d sound

theorem action_sound (job : Job γ M) (superstep slot : Nat) {span : Span} (inside : ∀ node ∈ span.toList, node < nodes)
    (seen : Signals) (sound : b.Sound schema nodes) :
    ((job.action superstep slot span).run seen b).2.Sound schema nodes :=
  job.action_keeps (fun node member => job.visit_sound superstep (inside node member)) Board.logProgress_sound
    (fun _ _ _ sound => ⟨sound.filed, sound.votes, sound.mail.deposit _ _⟩) seen sound

theorem conclude_sound (job : Job γ M) (superstep : Nat) (sound : b.Sound schema nodes) :
    (job.conclude superstep b).2.Sound schema nodes :=
  job.conclude_keeps Board.Sound.changes (fun swaps sound => ⟨sound.filed, sound.votes, sound.mail.swap swaps⟩)
    (fun event sound => sound.note event) sound

/-! ## Runs -/

/-- The boards that arise in a run from a board: it is opened for the tasks of a superstep, each of them works on it,
and then the superstep is concluded. -/
inductive Arises (job : Job γ M) (start : Board M) : Board M → Prop
  | start : Arises job start start
  | opened {b : Board M} (before : Arises job start b) : Arises job start (job.opened b)
  | worked {b : Board M} (before : Arises job start b) (superstep : Nat) {slot : Nat} (inside : slot < job.spans.length)
      (seen : Signals) : Arises job start ((job.action superstep slot job.spans[slot]).run seen b).2
  | concluded {b : Board M} (before : Arises job start b) (superstep : Nat) :
      Arises job start (job.conclude superstep b).2

/-- The desk at which a node computes in a superstep of a run: its task has visited the nodes before, the node has been
set up if need be, and it is awake. -/
inductive Computes (job : Job γ M) (start : Board M) (superstep node : Nat) : Desk M → Prop
  | awake {b : Board M} {slot : Nat} {failed : Bool} {visited rest : List Nat} {d ready awake : Desk M}
      (arises : job.Arises start b) (inside : slot < job.spans.length)
      (split : job.spans[slot].toList = visited ++ node :: rest)
      (before : (job.visitAll failed superstep visited).outcome { board := b } = (.ok (), d))
      (prepared : (if superstep = 0 then job.setUp node else pure ()).outcome
        { d with processed := d.processed + 1 } = (.ok (), ready))
      (wakes : (wake node).outcome ready = (.ok true, awake)) :
      Computes job start superstep node
        (awake.onBoard (·.note (.compute superstep node (awake.board.mail.messages node))))

variable {start : Board M} {d : Desk M}

theorem Arises.sound (arises : job.Arises start b) (tile : Span.Tile 0 job.spans nodes)
    (sound : start.Sound schema nodes) : b.Sound schema nodes := by
  induction arises with
  | start => exact sound
  | opened _ inductionHypothesis =>
    exact ⟨inductionHypothesis.filed, inductionHypothesis.votes, inductionHypothesis.mail.prepare _⟩
  | @worked _ _ superstep slot inside seen inductionHypothesis =>
    refine job.action_sound superstep slot (fun node member => ?_) seen inductionHypothesis
    exact tile.lt_of_mem (List.getElem_mem inside) member
  | concluded _ superstep inductionHypothesis => exact job.conclude_sound superstep inductionHypothesis

theorem Computes.sound (computes : job.Computes start superstep node d) (tile : Span.Tile 0 job.spans nodes)
    (sound : start.Sound schema nodes) : node < nodes ∧ d.Sound schema nodes := by
  obtain @⟨b, slot, failed, visited, rest, d, ready, awake, arises, inside, split, before, prepared, wakes⟩ := computes
  have within : ∀ other ∈ visited ++ node :: rest, other < nodes := fun other member =>
    tile.lt_of_mem (List.getElem_mem inside) (split.symm ▸ member)
  have here := within node (by simp)
  have visits := job.visitAll_keeps failed
    (fun other member => job.visit_sound superstep (within other (List.mem_append_left _ member)))
    { board := b } (arises.sound tile sound)
  rw [before] at visits
  have moves {d e : Desk M} : d.Sound schema nodes → d.Moves superstep node e → e.Sound schema nodes :=
    Desk.Sound.moves here
  have ready := job.prepare_keeps moves { d with processed := d.processed + 1 } visits
  rw [prepared] at ready
  have wakened := wake_keeps moves _ ready
  rw [wakes] at wakened
  exact ⟨here, Board.Sound.note wakened _⟩

end Job
end BulkSync
