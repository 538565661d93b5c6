import BulkSync.Proofs.Engine.Frame

/-! # What a visit sees

Visits do not see the outboxes that tasks have handed in, what has been reported to the progress meter, or how many nodes
a task has looked at. Two desks that differ in nothing else are the same to a visit, whether it succeeds or fails
(`Job.visit_blind`). Which task a node belongs to therefore makes no difference to what its visit comes to, and several
tasks are to the nodes like one (`Job.visitAll_blind`). -/

namespace BulkSync

/-! ## Steps -/

namespace Attempt

variable {σ α β : Type} {alike : σ → σ → Prop}

/-- States that are alike lead to the same answer, and to states that are alike. -/
def Blind (alike : σ → σ → Prop) (step : Attempt σ α) : Prop :=
  ∀ s t, alike s t → (step.outcome s).1 = (step.outcome t).1 ∧ alike (step.outcome s).2 (step.outcome t).2

theorem Blind.follow {step : Attempt σ α} (blind : Blind alike step) {s t s' : σ} {answer : Except Fault α}
    (start : alike s t) (ran : step.outcome s = (answer, s')) : ∃ t', step.outcome t = (answer, t') ∧ alike s' t' := by
  obtain ⟨answers, between⟩ := blind s t start
  rw [ran] at answers between
  exact ⟨(step.outcome t).2, Prod.ext answers.symm rfl, between⟩

theorem Blind.lead {step : Attempt σ α} (blind : Blind alike step) {s t t' : σ} {answer : Except Fault α}
    (start : alike s t) (ran : step.outcome t = (answer, t')) : ∃ s', step.outcome s = (answer, s') ∧ alike s' t' := by
  obtain ⟨answers, between⟩ := blind s t start
  rw [ran] at answers between
  exact ⟨(step.outcome s).2, Prod.ext answers rfl, between⟩

theorem blind_pure (a : α) : Blind alike (pure a) := fun _ _ same => ⟨rfl, same⟩

theorem blind_throw (fault : Fault) : Blind alike (throw fault : Attempt σ α) := fun _ _ same => ⟨rfl, same⟩

theorem blind_lift (result : Except Fault α) : Blind alike (lift result) := fun _ _ same => ⟨rfl, same⟩

theorem blind_inspect {f : σ → Except Fault α} (same : ∀ s t, alike s t → f s = f t) : Blind alike (inspect f) :=
  fun s t start => ⟨same s t start, start⟩

theorem blind_change {f : σ → σ} (kept : ∀ s t, alike s t → alike (f s) (f t)) : Blind alike (change f) :=
  fun s t start => ⟨rfl, kept s t start⟩

theorem blind_bind {step : Attempt σ α} {next : α → Attempt σ β} (first : Blind alike step)
    (rest : ∀ a, Blind alike (next a)) : Blind alike (step >>= next) := by
  intro s t start
  obtain ⟨answers, between⟩ := first s t start
  rw [outcome_bind, outcome_bind]
  generalize step.outcome s = here at answers between ⊢
  generalize step.outcome t = there at answers between ⊢
  obtain ⟨answer, s⟩ := here
  obtain ⟨_, t⟩ := there
  cases answers
  cases answer with
  | ok a => exact rest a s t between
  | error fault => exact ⟨rfl, between⟩

theorem blind_forM {step : α → Attempt σ Unit} (each : ∀ a, Blind alike (step a)) (items : List α) :
    Blind alike (items.forM step) := by
  induction items with
  | nil => exact blind_pure ()
  | cons item items inductionHypothesis => exact blind_bind (each item) fun _ => inductionHypothesis

theorem blind_run {I : Interface} {handle : (c : I.Call) → Attempt σ (I.Answer c)} (each : ∀ c, Blind alike (handle c))
    (p : Program I α) : Blind alike (p.run handle) := by
  induction p with
  | done a => exact blind_pure a
  | fail fault => exact blind_throw fault
  | ask c next inductionHypothesis => exact blind_bind (each c) inductionHypothesis

end Attempt

open Attempt

/-! ## Boards and desks -/

variable {γ M : Type}

/-- Mailboxes with nothing in the slots of the tasks. -/
def Mail.shown : Mail M → Mail M
  | .queue q => .queue { q with outboxes := #[] }
  | .reduced r => .reduced r

/-- Boards that a visit cannot tell apart. -/
structure Board.Twin (b c : Board M) : Prop where
  store : b.store = c.store
  votes : b.votes = c.votes
  mail : b.mail.shown = c.mail.shown
  raised : b.raised = c.raised
  record : b.record = c.record

def Desk.Twin (d e : Desk M) : Prop := d.board.Twin e.board

theorem Desk.blind_atBoard {α : Type} {step : Attempt (Board M) α} (blind : Blind Board.Twin step) :
    Blind Desk.Twin (Desk.atBoard step) := fun d e same => blind d.board e.board same

theorem Board.Twin.trans {b c d : Board M} (one : b.Twin c) (two : c.Twin d) : b.Twin d :=
  ⟨one.store.trans two.store, one.votes.trans two.votes, one.mail.trans two.mail, one.raised.trans two.raised,
    one.record.trans two.record⟩

theorem Board.Twin.note {b c : Board M} (same : b.Twin c) (event : Event M) : (b.note event).Twin (c.note event) :=
  ⟨same.store, same.votes, same.mail, same.raised, congrArg (fun record => record.push event) same.record⟩

theorem Mail.shown_prepare (mail : Mail M) (tasks : Nat) : (mail.prepare tasks).shown = mail.shown := by
  cases mail <;> rfl

theorem Mail.shown_deposit (mail : Mail M) (slot : Nat) (outbox : Outbox M) :
    (mail.deposit slot outbox).shown = mail.shown := by
  cases mail <;> rfl

theorem Mail.hasMessages_shown (mail : Mail M) (node : Nat) : mail.shown.hasMessages node = mail.hasMessages node := by
  cases mail <;> rfl

theorem Mail.messages_shown [Element M] (mail : Mail M) (node : Nat) :
    mail.shown.messages node = mail.messages node := by
  cases mail <;> rfl

theorem Mail.fold_shown [Element M] (mail : Mail M) (target : Nat) (message : M) :
    mail.shown.fold target message = (mail.fold target message).map Mail.shown := by
  cases mail with
  | queue q => rfl
  | reduced r =>
    simp only [Mail.shown, Mail.fold]
    cases r.send target message <;> rfl

/-! ## Calls -/

namespace Handler

theorem blind_update (change : PropertyStore → Except Fault PropertyStore) :
    Blind Board.Twin (update change : Attempt (Board M) Unit) := by
  intro b c same
  rw [update, outcome_replace, outcome_replace, same.store]
  cases change c.store with
  | error fault => exact ⟨rfl, same⟩
  | ok store => exact ⟨rfl, rfl, same.votes, same.mail, same.raised, same.record⟩

theorem blind_raise : Blind Board.Twin (raise : Attempt (Board M) Unit) :=
  blind_change fun _ _ same => ⟨same.store, same.votes, same.mail, rfl, same.record⟩

variable [GraphView γ]

theorem blind_setup (g : γ) (node : Nat) (call : SetupCall) :
    Blind Board.Twin (setup g node call : Attempt (Board M) _) := by
  cases call with
  | degree => exact blind_lift _
  | setLong key value => exact blind_update _
  | setDouble key value => exact blind_update _
  | raise => exact blind_raise

variable [Element M]

theorem blind_post (superstep source target : Nat) (message : M) :
    Blind Desk.Twin (Desk.post superstep source target message) := by
  intro d e same
  -- both folds fail with the same fault, or leave mailboxes that show the same
  have folds : (d.board.mail.fold target message).map Mail.shown =
      (e.board.mail.fold target message).map Mail.shown := by
    rw [← Mail.fold_shown, ← Mail.fold_shown, same.mail]
  rw [Desk.post, outcome_of, outcome_of]
  cases here : d.board.mail.fold target message with
  | error fault =>
    cases there : e.board.mail.fold target message with
    | error other =>
      rw [here, there] at folds
      cases folds
      exact ⟨rfl, same⟩
    | ok mail =>
      rw [here, there] at folds
      cases folds
  | ok mail =>
    cases there : e.board.mail.fold target message with
    | error other =>
      rw [here, there] at folds
      cases folds
    | ok other =>
      rw [here, there] at folds
      have mails : mail.shown = other.shown := Except.ok.inj folds
      have posted : Board.Twin { d.board with mail := mail } { e.board with mail := other } :=
        ⟨same.store, same.votes, mails, same.raised, same.record⟩
      exact ⟨rfl, posted.note _⟩

theorem blind_send (superstep source : Nat) (targets : List Nat) (message : M) :
    Blind Desk.Twin (Desk.send superstep source targets message) :=
  blind_bind (blind_forM (fun target => blind_post superstep source target message) targets) fun _ =>
    blind_change fun _ _ same => same

theorem blind_vertex (g : γ) (superstep node : Nat) (call : VertexCall M) :
    Blind Desk.Twin (vertex g superstep node call) := by
  cases call with
  | degree => exact blind_lift _
  | neighbors more => exact blind_lift _
  | weightedNeighbors more => exact blind_lift _
  | getLong key => exact blind_inspect fun d e same => congrArg (·.readLong key node) same.store
  | getDouble key => exact blind_inspect fun d e same => congrArg (·.readDouble key node) same.store
  | setLong key value => exact Desk.blind_atBoard (blind_update _)
  | setDouble key value => exact Desk.blind_atBoard (blind_update _)
  | send target message =>
    rw [vertex]
    split
    · exact blind_send superstep node [target] message
    · exact blind_throw _
  | sendToNeighbors message =>
    exact blind_bind (blind_lift _) fun targets => blind_send superstep node targets.toList message
  | halt =>
    refine blind_change fun d e same => ?_
    have voted : Board.Twin { d.board with votes := d.board.votes.put node }
        { e.board with votes := e.board.votes.put node } :=
      ⟨same.store, congrArg (·.put node) same.votes, same.mail, same.raised, same.record⟩
    exact voted.note _
  | raise => exact Desk.blind_atBoard blind_raise

end Handler

/-! ## Visits -/

namespace Job

theorem blind_note (event : Event M) :
    Blind Desk.Twin (change (Desk.onBoard (·.note event)) : Attempt (Desk M) Unit) :=
  blind_change fun _ _ same => same.note event

theorem setUp_blind [GraphView γ] (job : Job γ M) (node : Nat) : Blind Desk.Twin (job.setUp node) :=
  blind_bind (blind_note _) fun _ => Desk.blind_atBoard (blind_run (Handler.blind_setup job.graph node) _)

theorem wake_blind (node : Nat) : Blind Desk.Twin (wake node : Attempt (Desk M) Bool) := by
  intro d e same
  have messages : d.board.mail.hasMessages node = e.board.mail.hasMessages node := by
    rw [← Mail.hasMessages_shown, same.mail, Mail.hasMessages_shown]
  rw [wake, outcome_of, outcome_of, same.votes, messages]
  split
  · exact ⟨rfl, same⟩
  · split
    · exact ⟨rfl, same.store, congrArg (·.drop node) same.votes, same.mail, same.raised, same.record⟩
    · exact ⟨rfl, same⟩

variable [GraphView γ] [Element M]

theorem compute_blind (job : Job γ M) (superstep node : Nat) : Blind Desk.Twin (job.compute superstep node) := by
  refine blind_bind (blind_inspect fun d e same => ?_) fun messages =>
    blind_bind (blind_note _) fun _ => blind_run (Handler.blind_vertex job.graph superstep node) _
  rw [← Mail.messages_shown, same.mail, Mail.messages_shown]

theorem visit_blind (job : Job γ M) (superstep node : Nat) : Blind Desk.Twin (job.visit superstep node) := by
  rw [visit_eq]
  refine blind_bind (blind_change fun _ _ same => same) fun _ => blind_bind ?_ fun _ =>
    blind_bind (wake_blind node) fun awake => ?_
  · split
    · exact job.setUp_blind node
    · exact blind_pure ()
  · split
    · exact job.compute_blind superstep node
    · exact blind_pure ()

theorem visitAll_blind (job : Job γ M) (failed : Bool) (superstep : Nat) (todo : List Nat) :
    Blind Desk.Twin (job.visitAll failed superstep todo) := by
  induction todo with
  | nil => exact blind_pure ()
  | cons node todo inductionHypothesis =>
    rw [visitAll]
    refine blind_bind (blind_inspect fun d e same => by rw [same.raised]) fun stopped => ?_
    split
    · exact blind_pure ()
    · exact blind_bind (job.visit_blind superstep node) fun _ => inductionHypothesis

end Job
end BulkSync
