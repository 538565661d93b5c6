import BulkSync.Engine.Run
import BulkSync.Proofs.Engine.Step

/-! # What a course keeps however it ends

Throughout a course the properties are a store of the schema (`Board.Filed`): no visit, no task and nothing behind the
tasks changes that, whether it succeeds or fails, and neither do whole supersteps and courses (`proceed_filed`). -/

namespace BulkSync

open Attempt (Keeps)

variable {γ M : Type} {schema : Schema} {nodes : Nat}

/-! ## Tasks -/

theorem Board.logProgress_filed (amount : Nat) :
    Keeps (Board.Filed schema nodes) (Board.logProgress amount : Attempt (Board M) Unit) := by
  intro b filed
  rw [Board.logProgress, Attempt.outcome_of]
  split <;> exact filed

namespace Job

variable [GraphView γ] [Element M] {job : Job γ M} {superstep : Nat} {b : Board M}

theorem visit_filed (job : Job γ M) (superstep node : Nat) :
    Keeps (Desk.Filed schema nodes) (job.visit superstep node) :=
  fun d filed => (job.visit_framed superstep node d).board.filed filed

theorem action_filed (job : Job γ M) (superstep slot : Nat) (span : Span) (seen : Signals)
    (filed : b.Filed schema nodes) : ((job.action superstep slot span).run seen b).2.Filed schema nodes :=
  job.action_keeps (fun node _ => job.visit_filed superstep node) Board.logProgress_filed (fun _ _ _ filed => filed) seen
    filed

/-- What the tasks leave, whether they all finish or one of them fails. -/
theorem left_filed (turns : (job.executor superstep).TakesTurns Board.raised) (filed : b.Filed schema nodes) :
    (job.left superstep b).Filed schema nodes :=
  left_keeps turns (Board.Filed schema nodes)
    (fun slot _ seen _ filed => job.action_filed superstep slot _ seen filed) filed

/-! ## Supersteps -/

theorem conclude_framed (job : Job γ M) (superstep : Nat) (b : Board M) :
    b.Framed (job.conclude superstep b).2 :=
  job.conclude_keeps Board.Framed.changes (fun _ framed => ⟨framed.filed, framed.progress⟩)
    (fun _ framed => ⟨framed.filed, framed.progress⟩) (.refl b)

theorem superstep_filed (turns : (job.executor superstep).TakesTurns Board.raised)
    (filed : b.Filed schema nodes) : (job.superstep superstep b).2.Filed schema nodes :=
  superstep_keeps (left_filed turns filed) fun kept => (job.conclude_framed superstep _).filed kept

theorem proceed_filed (job : Job γ M) (turns : ∀ s, (job.executor s).TakesTurns Board.raised)
    (remaining number : Nat) (filed : b.Filed schema nodes) :
    (job.proceed remaining number b).board.Filed schema nodes := by
  induction remaining generalizing number b with
  | zero => exact filed
  | succ remaining inductionHypothesis =>
    have kept : (job.superstep number b).2.Filed schema nodes := superstep_filed (turns number) filed
    rw [proceed]
    split
    · exact filed
    · split <;> next ran =>
        rw [ran] at kept
        first | exact inductionHypothesis _ kept | exact kept

end Job
end BulkSync
