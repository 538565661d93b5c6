import BulkSync.Engine.Strand
import BulkSync.Proofs.Engine.Work
import BulkSync.Proofs.Task.Woven

/-! # Tasks side by side, and tasks that take turns

A task that is executed node by node and not disturbed does what it does in a single action (`runAlone_strand`). So
tasks that take turns do the same in both ways, in any order (`inOrder_strands`) and on a pool of threads
(`runOnPool_strands`). If they all finish, they are woven node by node (`weaves_of_turns`), and so they are on
workers that are scheduled in any way (`weaves_interleaved`). -/

namespace BulkSync

open Attempt (Keeps keeps_bind)

variable {γ M : Type}

namespace Office

@[simp] theorem board_leave (o : Office M) (slot : Nat) (d : Desk M) : (o.leave slot d).board = d.board := rfl

@[simp] theorem desk_leave (o : Office M) (slot : Nat) (d : Desk M) : (o.leave slot d).desk slot = d := by
  simp [desk, leave]

@[simp] theorem leave_leave (o : Office M) (slot : Nat) (d e : Desk M) :
    (o.leave slot d).leave slot e = o.leave slot e := by
  simp only [leave, Office.mk.injEq, true_and]
  funext other
  split <;> rfl

theorem drawers_leave {slot other : Nat} (elsewhere : other ≠ slot) (o : Office M) (d : Desk M) :
    (o.leave slot d).drawers other = o.drawers other := if_neg elsewhere

/-- The desk of a task whose drawer is still empty. -/
theorem desk_empty {o : Office M} {slot : Nat} (empty : o.drawers slot = {}) : o.desk slot = { board := o.board } := by
  rw [desk, empty]

theorem action_ok {o : Office M} {slot : Nat} {step : Signals → Attempt (Desk M) Unit} {seen : Signals} {d : Desk M}
    (ran : (step seen).outcome (o.desk slot) = (.ok (), d)) :
    (action slot step).run seen o = (none, o.leave slot d) := by
  simp only [action, Action.ofFun, ran]

theorem action_error {o : Office M} {slot : Nat} {step : Signals → Attempt (Desk M) Unit} {seen : Signals}
    {d : Desk M} {fault : Fault} (ran : (step seen).outcome (o.desk slot) = (.error fault, d)) :
    (action slot step).run seen o = (some (.struck fault), o.leave slot d) := by
  simp only [action, Action.ofFun, ran]

/-- An action that succeeds has left its desk. -/
theorem of_action_ok {o p : Office M} {slot : Nat} {step : Signals → Attempt (Desk M) Unit} {seen : Signals}
    (ran : (action slot step).run seen o = (none, p)) :
    ∃ d, (step seen).outcome (o.desk slot) = (.ok (), d) ∧ p = o.leave slot d := by
  simp only [action, Action.ofFun] at ran
  split at ran
  · next d done => exact ⟨d, done, (Prod.mk.inj ran).2.symm⟩
  · cases ran

theorem action_keepsRaised {slot : Nat} {step : Signals → Attempt (Desk M) Unit}
    (kept : ∀ seen, Keeps (fun d => d.board.raised = true) (step seen)) : (action slot step).KeepsRaised raised := by
  intro seen o up
  have after := kept seen (o.desk slot) up
  simp only [action, Action.ofFun]
  split <;> next ran =>
    rw [ran] at after
    exact after

end Office

variable [Element M]

/-- No move of a visit lowers the stop flag. -/
theorem Desk.Moves.raised {superstep node : Nat} {d e : Desk M} (up : d.board.raised = true)
    (move : d.Moves superstep node e) : e.board.raised = true := by
  cases move with
  | changes change =>
    cases change with
    | setLong | setDouble => exact up
    | raise => rfl
  | _ => exact up

variable [GraphView γ]

namespace Job

variable {job : Job γ M} {superstep slot : Nat} {span : Span} {o : Office M}

/-! ## One task -/

theorem attend_down (job : Job γ M) (superstep node : Nat) {d : Desk M} (down : d.board.raised = false) :
    (job.attend false superstep node).outcome d = (job.visit superstep node).outcome d := by
  rw [attend, Attempt.outcome_bind_of_ok (outcome_stopped d), down]
  rfl

theorem attend_raised (job : Job γ M) (superstep node : Nat) {d : Desk M} (up : d.board.raised = true) :
    (job.attend false superstep node).outcome d = (.ok (), d) := by
  rw [attend, Attempt.outcome_bind_of_ok (outcome_stopped d), up]
  rfl

/-- To visit nodes is to attend to one after the other. -/
theorem visitAll_cons_attend (job : Job γ M) (superstep node : Nat) (todo : List Nat) (d : Desk M) :
    (job.visitAll false superstep (node :: todo)).outcome d =
      (job.attend false superstep node >>= fun _ => job.visitAll false superstep todo).outcome d := by
  cases flag : d.board.raised with
  | true => rw [visitAll_raised flag, Attempt.outcome_bind_of_ok (attend_raised job superstep node flag),
      visitAll_raised flag]
  | false => rw [visitAll_cons flag, Attempt.outcome_bind, Attempt.outcome_bind, attend_down job superstep node flag]

/-- The actions of a task that is not disturbed are what it does in a single one. -/
theorem runAlone_strand (job : Job γ M) (superstep slot : Nat) (span : Span) (o : Office M) :
    Task.runAlone Office.raised (job.strand superstep slot span) o =
      (Office.action slot fun seen => job.work seen.failed superstep slot span).run
        ⟨false, false, o.raised⟩ o := by
  simp only [strand, work]
  generalize span.toList = todo
  induction todo generalizing o with
  | nil =>
    rw [List.map_nil, List.nil_append, Task.runAlone]
    split <;> next ran => exact ran.symm
  | cons node todo inductionHypothesis =>
    rw [List.map_cons, List.cons_append, Task.runAlone]
    have parts := visitAll_cons_attend job superstep node todo (o.desk slot)
    rcases attended : (job.attend false superstep node).outcome (o.desk slot) with ⟨fault | ⟨⟩, d⟩
    · rw [Attempt.outcome_bind_of_error attended] at parts
      rw [Office.action_error attended, Office.action_error (Attempt.outcome_bind_of_error parts)]
    · rw [Attempt.outcome_bind_of_ok attended] at parts
      rw [Office.action_ok attended]
      dsimp only
      rw [inductionHypothesis]
      -- what is left of the task starts from the desk as the visit has left it
      simp only [Office.action, Action.ofFun, Office.desk_leave, Office.leave_leave]
      rw [Attempt.outcome_bind, Attempt.outcome_bind, parts]

/-- A task whose drawer is still empty does the same in both ways. -/
theorem runAlone_strand_empty (job : Job γ M) (superstep : Nat) (span : Span) (empty : o.drawers slot = {}) :
    ∃ d : Desk M, Task.runAlone Office.raised (job.strand superstep slot span) o =
      (((job.action superstep slot span).run ⟨false, false, o.raised⟩ o.board).1, o.leave slot d) ∧
      d.board = ((job.action superstep slot span).run ⟨false, false, o.raised⟩ o.board).2 := by
  rw [runAlone_strand]
  simp only [Office.action, action, Action.ofFun, Office.desk_empty empty]
  rcases (job.work false superstep slot span).outcome { board := o.board } with ⟨fault | ⟨⟩, d⟩
  · exact ⟨d, rfl, rfl⟩
  · exact ⟨d, rfl, rfl⟩

/-! ## One task after the other -/

theorem length_strands (job : Job γ M) (superstep : Nat) : (job.strands superstep).length = job.spans.length := by
  simp [strands]

theorem getElem_strands (inside : slot < (job.strands superstep).length) : ∃ bound : slot < job.spans.length,
    (job.strands superstep)[slot] = job.strand superstep slot job.spans[slot] :=
  ⟨by rwa [length_strands] at inside, by simp [strands]⟩

theorem getD_strands (inside : slot < job.spans.length) :
    (job.strands superstep).getD slot [] = job.strand superstep slot job.spans[slot] := by
  simp [strands, List.getD_eq_getElem?_getD, inside]

theorem getD_tasks (inside : slot < job.spans.length) :
    (job.tasks superstep).getD slot [] = [job.action superstep slot job.spans[slot]] := by
  simp [tasks, List.getD_eq_getElem?_getD, inside]

theorem getD_beyond (beyond : job.spans.length ≤ slot) :
    (job.strands superstep).getD slot [] = [] ∧ (job.tasks superstep).getD slot [] = [] := by
  simp [strands, tasks, List.getD_eq_getElem?_getD, beyond]

/-- Tasks that take turns do the same in both ways, whatever they do and however they end. -/
theorem inOrder_strands (job : Job γ M) (superstep : Nat) {order : List Nat} (distinct : order.Nodup)
    (empty : ∀ slot ∈ order, o.drawers slot = {}) :
    (inOrder Office.raised order (job.strands superstep) o).1 =
        (inOrder Board.raised order (job.tasks superstep) o.board).1 ∧
      (inOrder Office.raised order (job.strands superstep) o).2.board =
        (inOrder Board.raised order (job.tasks superstep) o.board).2 := by
  rw [inOrder, inOrder]
  induction order generalizing o with
  | nil => exact ⟨rfl, rfl⟩
  | cons slot order inductionHypothesis =>
    obtain ⟨absent, distinctRest⟩ := List.nodup_cons.mp distinct
    have raised : Office.raised o = o.board.raised := rfl
    rw [List.map_cons, List.map_cons, runInOrder, runInOrder, raised]
    cases flag : o.board.raised with
    | true => exact ⟨rfl, rfl⟩
    | false =>
      have here := empty slot (List.mem_cons_self ..)
      have emptyRest : ∀ other ∈ order, o.drawers other = {} := fun other member =>
        empty other (List.mem_cons_of_mem _ member)
      rcases Nat.lt_or_ge slot job.spans.length with inside | beyond
      · obtain ⟨d, ran, board⟩ := runAlone_strand_empty job superstep job.spans[slot] here
        rw [getD_strands inside, getD_tasks inside, ran, Task.runAlone]
        rw [raised, flag] at board ⊢
        rcases worked : (job.action superstep slot job.spans[slot]).run ⟨false, false, false⟩ o.board
          with ⟨_ | cause, after⟩
        · -- the drawers of the tasks that follow are still empty
          have rest := inductionHypothesis (o := o.leave slot d) distinctRest fun other member => by
            rw [Office.drawers_leave (ne_of_mem_of_not_mem member absent)]
            exact emptyRest other member
          rw [Office.board_leave, board, worked] at rest
          exact rest
        · rw [worked] at board
          exact ⟨rfl, board⟩
      · rw [(getD_beyond beyond).1, (getD_beyond beyond).2]
        exact inductionHypothesis distinctRest emptyRest

/-- What a task does is to attend to a node, or to hand in. -/
theorem action_of_strands {task : Task (Office M)} {action : Action (Office M)}
    (member : task ∈ job.strands superstep) (among : action ∈ task) :
    (∃ slot node, action = Office.action slot fun seen => job.attend seen.failed superstep node) ∨
      ∃ slot, action = Office.action slot fun _ => handIn slot := by
  simp only [strands, List.mem_map] at member
  obtain ⟨⟨span, slot⟩, -, rfl⟩ := member
  rcases List.mem_append.mp among with visits | last
  · obtain ⟨node, -, rfl⟩ := List.mem_map.mp visits
    exact .inl ⟨slot, node, rfl⟩
  · exact .inr ⟨slot, List.mem_singleton.mp last⟩

/-- No task ever waits. -/
theorem strands_prompt (job : Job γ M) (superstep : Nat) : ∀ task ∈ job.strands superstep, task.Prompt := by
  intro task member action among seen o
  obtain ⟨slot, node, rfl⟩ | ⟨slot, rfl⟩ := action_of_strands member among <;> rfl

/-- On a pool of threads the tasks do the same in both ways. -/
theorem runOnPool_strands (job : Job γ M) (pool : Pool) {concurrency : Nat} (some : 0 < concurrency)
    (superstep : Nat) (b : Board M) :
    (runOnPool pool concurrency Office.raised (job.strands superstep) { board := b }).1 =
        (runOnPool pool concurrency Board.raised (job.tasks superstep) b).1 ∧
      (runOnPool pool concurrency Office.raised (job.strands superstep) { board := b }).2.board =
        (runOnPool pool concurrency Board.raised (job.tasks superstep) b).2 := by
  have sequential := inSequence_runOnPool pool some Board.raised (job.works superstep) b
  rw [← tasks_eq, length_works] at sequential
  rw [Batch.runOnPool_prompt some (job.strands_prompt superstep), length_strands, sequential]
  exact job.inOrder_strands superstep List.nodup_range fun _ _ => rfl

/-! ## Woven tasks -/

/-- No task lowers the stop flag. -/
theorem strands_keepRaised (job : Job γ M) (superstep : Nat) :
    ∀ task ∈ job.strands superstep, ∀ action ∈ task, action.KeepsRaised Office.raised := by
  intro task member action among
  obtain ⟨slot, node, rfl⟩ | ⟨slot, rfl⟩ := action_of_strands member among
  · refine Office.action_keepsRaised fun seen => keeps_bind (fun _ up => up) fun stopped => ?_
    split
    · exact fun _ up => up
    · exact fun d up => job.visit_keeps Desk.Moves.raised d up
  · have reports : ∀ amount, Keeps (fun b : Board M => b.raised = true) (Board.logProgress amount) :=
      fun amount b up => by
        obtain ⟨meter, changed⟩ := Board.logProgress_changes amount b
        rw [changed]
        exact up
    exact Office.action_keepsRaised fun _ => handIn_keeps reports (fun _ _ _ up => up) slot

/-- The tasks of a superstep that all finish are woven: node by node, in any order. -/
def Weaves (job : Job γ M) (superstep : Nat) : Prop :=
  ∀ b c, job.executor superstep (job.tasks superstep) b = (.ok .finished, c) →
    ∃ o, Interwoven Office.raised (job.strands superstep) { board := b } o ∧ o.board = c

/-- Tasks that take turns are woven. -/
theorem weaves_of_turns (turns : (job.executor superstep).TakesTurns Board.raised) : job.Weaves superstep := by
  intro b c finished
  obtain ⟨order, all, executed⟩ := turns (job.works superstep) b
  rw [← tasks_eq, finished] at executed
  rw [length_works] at all
  obtain ⟨same, board⟩ := job.inOrder_strands superstep (o := { board := b })
    (all.nodup_iff.mpr List.nodup_range) fun _ _ => rfl
  rw [← executed] at same board
  rw [← job.length_strands superstep] at all
  exact ⟨_, interwoven_inOrder (job.strands_keepRaised superstep) all (Prod.ext same rfl), board⟩

/-- So are tasks that are executed by workers, whichever of them are chosen to act. -/
theorem weaves_interleaved (e : Engine γ M) {spans : List Span} (choose : Nat → Nat → Nat) (superstep : Nat) :
    Weaves ⟨e.graph, e.computation, spans, e.interleaved spans choose⟩ superstep := by
  intro b c finished
  obtain ⟨ended, rfl⟩ := Prod.mk.inj finished
  exact ⟨_, Batch.interwoven_driveBy e.config.concurrency (choose superstep) (strands_prompt _ superstep)
    (strands_keepRaised _ superstep) rfl ended, rfl⟩

end Job
end BulkSync
