import BulkSync.Engine.Superstep
import BulkSync.Proofs.Fault

/-! # The moves of a visit

A call of a node or of the computation can fail, and what it has done up to there stays done. However a visit of a node
ends, it consists of a few kinds of moves (`Desk.Moves`), and what the computation does between two supersteps of even
fewer (`Board.Changes`). So what each of these moves keeps is kept in any case (`Attempt.Keeps`). -/

namespace BulkSync

/-! ## Steps -/

namespace Attempt

variable {σ α β : Type} {holds : σ → Prop}

/-- What holds before the step holds behind it, whether it succeeds or fails. -/
def Keeps (holds : σ → Prop) (step : Attempt σ α) : Prop := ∀ s, holds s → holds (step.outcome s).2

theorem keeps_bind {step : Attempt σ α} {next : α → Attempt σ β} (first : Keeps holds step)
    (rest : ∀ a, Keeps holds (next a)) : Keeps holds (step >>= next) := by
  intro s start
  have between := first s start
  rw [outcome_bind]
  split
  · next a t ran =>
    rw [ran] at between
    exact rest a t between
  · next fault t ran =>
    rw [ran] at between
    exact between

theorem keeps_forM {step : α → Attempt σ Unit} (each : ∀ a, Keeps holds (step a)) (items : List α) :
    Keeps holds (items.forM step) := by
  induction items with
  | nil => exact fun _ start => start
  | cons item items inductionHypothesis => exact keeps_bind (each item) fun _ => inductionHypothesis

theorem keeps_run {I : Interface} {handle : (c : I.Call) → Attempt σ (I.Answer c)}
    (each : ∀ c, Keeps holds (handle c)) (p : Program I α) : Keeps holds (p.run handle) :=
  Program.run_always holds each p

end Attempt

open Attempt (Keeps keeps_bind keeps_forM keeps_run)

variable {γ M : Type} {superstep node : Nat}

/-! ## Moves -/

/-- A change that the calls of every context make to a board: a number is set, or the stop flag is raised. -/
inductive Board.Changes : Board M → Board M → Prop
  | setLong {b : Board M} {store : PropertyStore} {key : String} {node : Nat} {value : Int64}
      (wrote : b.store.writeLong key node value = .ok store) : Changes b (b.setStore store)
  | setDouble {b : Board M} {store : PropertyStore} {key : String} {node : Nat} {value : Binary64}
      (wrote : b.store.writeDouble key node value = .ok store) : Changes b (b.setStore store)
  | raise (b : Board M) : Changes b { b with raised := true }

/-- A move of a node that is visited in a superstep. -/
inductive Desk.Moves [Element M] (superstep node : Nat) : Desk M → Desk M → Prop
  | changes {d : Desk M} {b : Board M} (change : d.board.Changes b) : Moves superstep node d { d with board := b }
  | setsUp (d : Desk M) (first : superstep = 0) : Moves superstep node d (d.onBoard (·.note (.setup node)))
  | wakes (d : Desk M) : Moves superstep node d (d.onBoard fun b => { b with votes := b.votes.drop node })
  | computes (d : Desk M) (messages : Messages M) :
      Moves superstep node d (d.onBoard (·.note (.compute superstep node messages)))
  | posts {d : Desk M} {target : Nat} {message : M} {mail : Mail M}
      (folded : d.board.mail.fold target message = .ok mail) : Moves superstep node d { d with
        board := { d.board with
          mail := mail
          record := d.board.record.push (.send superstep node target message) }
        outbox := mail.collect target message d.outbox }
  | marks (d : Desk M) (sent : Bool) : Moves superstep node d { d with sent := sent }
  | halts (d : Desk M) : Moves superstep node d
      (d.onBoard fun b => { b with votes := b.votes.put node }.note (.halt superstep node))

/-! ## Calls -/

namespace Handler

section Boards

variable {holds : Board M → Prop} (kept : ∀ {b c : Board M}, holds b → b.Changes c → holds c)
include kept

theorem update_keeps {change : PropertyStore → Except Fault PropertyStore}
    (changes : ∀ {b : Board M} {store}, change b.store = .ok store → b.Changes (b.setStore store)) :
    Keeps holds (update change) := by
  intro b start
  rw [update, Attempt.outcome_replace]
  cases changed : change b.store with
  | error fault => exact start
  | ok store => exact kept start (changes changed)

variable [GraphView γ]

theorem setup_keeps (g : γ) (node : Nat) (call : SetupCall) : Keeps holds (setup g node call) := by
  cases call with
  | setLong key value => exact update_keeps kept .setLong
  | setDouble key value => exact update_keeps kept .setDouble
  | raise => exact fun b start => kept start (.raise b)
  | degree => exact fun _ start => start

theorem master_keeps (g : γ) (call : MasterCall) : Keeps holds (master g call) := by
  cases call with
  | setLong key node value => exact update_keeps kept .setLong
  | setDouble key node value => exact update_keeps kept .setDouble
  | raise => exact fun b start => kept start (.raise b)
  -- all other calls only look
  | _ => exact fun _ start => start

end Boards

section Desks

variable [Element M] {holds : Desk M → Prop} (kept : ∀ {d e : Desk M}, holds d → d.Moves superstep node e → holds e)
include kept

/-- A step on the board of a desk that keeps whatever every change keeps. -/
theorem atBoard_keeps {α : Type} {step : Attempt (Board M) α}
    (keeps : ∀ {inner : Board M → Prop}, (∀ {b c}, inner b → b.Changes c → inner c) → Keeps inner step) :
    Keeps holds (Desk.atBoard step) := by
  intro d start
  -- seen from the board, the rest of the desk is fixed
  have inner : Keeps (fun b => holds { d with board := b }) step := keeps fun h change => kept h (.changes change)
  exact inner d.board start

theorem post_keeps (target : Nat) (message : M) : Keeps holds (Desk.post superstep node target message) := by
  intro d start
  rw [Desk.post, Attempt.outcome_of]
  split
  · exact start
  · next mail folded => exact kept start (.posts folded)

theorem send_keeps (targets : List Nat) (message : M) : Keeps holds (Desk.send superstep node targets message) :=
  keeps_bind (keeps_forM (fun target => post_keeps kept target message) targets) fun _ =>
    fun d start => kept start (.marks d _)

theorem vertex_keeps [GraphView γ] (g : γ) (call : VertexCall M) : Keeps holds (vertex g superstep node call) := by
  cases call with
  | setLong key value => exact atBoard_keeps kept fun each => update_keeps each .setLong
  | setDouble key value => exact atBoard_keeps kept fun each => update_keeps each .setDouble
  | raise => exact atBoard_keeps kept fun each b start => each start (.raise b)
  | send target message =>
    rw [vertex]
    split
    · exact send_keeps kept [target] message
    · exact fun _ start => start
  | sendToNeighbors message =>
    exact keeps_bind (fun _ start => start) fun targets => send_keeps kept targets.toList message
  | halt => exact fun d start => kept start (.halts d)
  -- all other calls only look
  | _ => exact fun _ start => start

end Desks
end Handler

/-! ## Visits -/

namespace Job

variable [GraphView γ] [Element M]

theorem visit_eq (job : Job γ M) (superstep node : Nat) : job.visit superstep node =
    Attempt.change (fun d => { d with processed := d.processed + 1 }) >>= fun _ =>
      (if superstep = 0 then job.setUp node else pure ()) >>= fun _ =>
        wake node >>= fun awake => if awake then job.compute superstep node else pure () := by
  rw [visit]
  by_cases zero : superstep = 0
  · simp only [if_pos zero]
  · simp only [if_neg zero, pure_bind]

variable (job : Job γ M) {holds : Desk M → Prop}
  (kept : ∀ {d e : Desk M}, holds d → d.Moves superstep node e → holds e)
include kept

theorem prepare_keeps :
    Keeps holds (if superstep = 0 then job.setUp node else pure ()) := by
  split
  · next first =>
    exact keeps_bind (fun d start => kept start (.setsUp d first)) fun _ =>
      Handler.atBoard_keeps kept fun each => keeps_run (Handler.setup_keeps each job.graph node) _
  · exact fun _ start => start

omit [GraphView γ] in
theorem wake_keeps : Keeps holds (wake node) := by
  intro d start
  rw [wake, Attempt.outcome_of]
  split
  · exact start
  · split
    · exact kept start (.wakes d)
    · exact start

theorem compute_keeps : Keeps holds (job.compute superstep node) :=
  keeps_bind (fun _ start => start) fun messages =>
    keeps_bind (fun d start => kept start (.computes d messages)) fun _ =>
      keeps_run (Handler.vertex_keeps kept job.graph) _

/-- A visit has counted its node, and all that it does then are moves. -/
theorem visit_keeps (d : Desk M) (start : holds { d with processed := d.processed + 1 }) :
    holds ((job.visit superstep node).outcome d).2 := by
  rw [visit_eq, Attempt.outcome_bind_of_ok (Attempt.outcome_change _ _)]
  refine keeps_bind (job.prepare_keeps kept) (fun _ => keeps_bind (wake_keeps kept) fun awake => ?_) _ start
  split
  · exact job.compute_keeps kept
  · exact fun _ start => start

/-! ## Tasks -/

omit kept in
theorem visitAll_keeps (failed : Bool) {todo : List Nat} (each : ∀ node ∈ todo, Keeps holds (job.visit superstep node)) :
    Keeps holds (job.visitAll failed superstep todo) := by
  induction todo with
  | nil => exact fun _ start => start
  | cons node todo inductionHypothesis =>
    rw [visitAll]
    refine keeps_bind (fun _ start => start) fun stopped => ?_
    split
    · exact fun _ start => start
    · exact keeps_bind (each node (List.mem_cons_self ..)) fun _ =>
        inductionHypothesis fun node member => each node (List.mem_cons_of_mem _ member)

section Boards

omit kept

variable {holds : Board M → Prop} {b : Board M}

omit [GraphView γ] [Element M] in
/-- What is kept when nodes are reported and when letters are handed in is kept at the end of a task. -/
theorem handIn_keeps (reports : ∀ amount, Keeps holds (Board.logProgress amount))
    (handsIn : ∀ {b : Board M} (slot : Nat) (sent : Bool) (outbox : Outbox M), holds b →
      holds { b with anySent := b.anySent || sent, mail := b.mail.deposit slot outbox }) (slot : Nat) :
    Keeps (fun d => holds d.board) (handIn slot) :=
  keeps_bind (fun _ start => start) fun processed =>
    keeps_bind (fun d start => reports processed d.board start) fun _ => fun d start =>
      handsIn slot d.sent d.outbox start

/-- A task visits the nodes of its run, reports them, and hands in what it has sent. -/
theorem action_keeps {slot : Nat} {span : Span}
    (visits : ∀ node ∈ span.toList, Keeps (fun d => holds d.board) (job.visit superstep node))
    (reports : ∀ amount, Keeps holds (Board.logProgress amount))
    (handsIn : ∀ {b : Board M} (slot : Nat) (sent : Bool) (outbox : Outbox M), holds b →
      holds { b with anySent := b.anySent || sent, mail := b.mail.deposit slot outbox })
    (seen : Signals) (start : holds b) : holds ((job.action superstep slot span).run seen b).2 := by
  have works : Keeps (fun d => holds d.board) (job.work seen.failed superstep slot span) :=
    keeps_bind (job.visitAll_keeps seen.failed visits) fun _ => handIn_keeps reports handsIn slot
  have kept := works { board := b } start
  simp only [action, Action.ofFun]
  split <;> next ran =>
    rw [ran] at kept
    exact kept

/-- Behind the tasks the mail is delivered and the computation is asked. -/
theorem conclude_keeps (changes : ∀ {b c : Board M}, holds b → b.Changes c → holds c)
    (swaps : ∀ {b : Board M} {mail}, b.mail.swap = .ok mail → holds b → holds { b with mail := mail })
    (notes : ∀ {b : Board M} (event : Event M), holds b → holds (b.note event)) (start : holds b) :
    holds (job.conclude superstep b).2 := by
  rw [conclude]
  split
  · exact start
  · next mail delivered =>
    have kept : holds ((job.consult superstep).outcome
        ({ b with mail := mail }.note (.master superstep b.store))).2 :=
      keeps_run (Handler.master_keeps changes job.graph) _ _ (notes _ (swaps delivered start))
    dsimp only
    split
    · next stop c answered =>
      rw [answered] at kept
      exact notes _ kept
    · next fault c answered =>
      rw [answered] at kept
      exact kept

end Boards
end Job
end BulkSync
