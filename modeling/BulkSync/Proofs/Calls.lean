import BulkSync.Proofs.Fault
import BulkSync.Proofs.Lockstep

/-! # Calls that may fail

Whoever makes a call can go on after a fault has struck it, from the state that the call has left. Calls of any
kinds are made one after the other by `Attempt.fault?`, which answers nothing but the fault. A program that calls
on a context makes such calls, and if it succeeds no fault has struck any of them (`Program.run_calls`). -/

namespace BulkSync

namespace Attempt

variable {σ α β : Type} {step : Attempt σ α} {next : α → Attempt σ β} {s t : σ}

/-- The fault that strikes a step, if any. The state is kept in either case. -/
def fault? (step : Attempt σ α) : StateM σ (Option Fault) := fun s =>
  match step.outcome s with
  | (.ok _, t) => (none, t)
  | (.error fault, t) => (some fault, t)

theorem fault?_of_ok {a : α} (ran : step.outcome s = (.ok a, t)) : step.fault?.run s = (none, t) := by
  simp only [fault?, StateT.run, ran]

theorem fault?_of_error {fault : Fault} (ran : step.outcome s = (.error fault, t)) :
    step.fault?.run s = (some fault, t) := by
  simp only [fault?, StateT.run, ran]

theorem fault?_bind_of_ok {a : α} (ran : step.outcome s = (.ok a, t)) :
    (step >>= next).fault?.run s = (next a).fault?.run t := by
  simp only [fault?, StateT.run, outcome_bind_of_ok ran]

theorem fault?_bind_of_error {fault : Fault} (ran : step.outcome s = (.error fault, t)) :
    (step >>= next).fault?.run s = (some fault, t) :=
  fault?_of_error (outcome_bind_of_error ran)

theorem state_fault? (step : Attempt σ α) (s : σ) : (step.fault?.run s).2 = (step.outcome s).2 := by
  simp only [fault?, StateT.run]
  split <;> next outcome => rw [outcome]

end Attempt

namespace Program

variable {I : Interface} {σ α : Type}

/-- The calls of a program lead to the state that the program leaves. A fault strikes none of them if it
succeeds. -/
theorem run_calls (handle : (c : I.Call) → Attempt σ (I.Answer c)) (p : Program I α) (s : σ) :
    ∃ calls : List I.Call,
      ((calls.mapM fun call => (handle call).fault?).run s).2 = ((p.run handle).outcome s).2 ∧
      ∀ value, ((p.run handle).outcome s).1 = .ok value →
        ∀ struck ∈ ((calls.mapM fun call => (handle call).fault?).run s).1, struck = none := by
  induction p generalizing s with
  | done a => exact ⟨[], rfl, fun _ _ _ member => nomatch member⟩
  | fail fault => exact ⟨[], rfl, fun _ _ _ member => nomatch member⟩
  | ask call next inductionHypothesis =>
    rw [run_ask, Attempt.outcome_bind]
    match called : (handle call).outcome s with
    | (.ok answer, t) =>
      obtain ⟨calls, state, calm⟩ := inductionHypothesis answer t
      refine ⟨call :: calls, ?_, fun value ran struck member => ?_⟩
      · rw [Lockstep.run_mapM_cons, Attempt.fault?_of_ok called]
        exact state
      · rw [Lockstep.run_mapM_cons, Attempt.fault?_of_ok called] at member
        rcases List.mem_cons.mp member with here | later
        · exact here
        · exact calm value ran struck later
    | (.error fault, t) =>
      refine ⟨[call], ?_, fun value ran => nomatch ran⟩
      rw [Lockstep.run_mapM_cons, Attempt.fault?_of_error called]
      rfl

end Program
end BulkSync
