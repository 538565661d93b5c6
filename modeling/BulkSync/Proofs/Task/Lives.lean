import BulkSync.Proofs.Task.Schedule
import Mathlib.Logic.Function.Basic

/-! # The lives of tasks

Each task of a batch goes through the stages of a life: it is untouched until a worker takes it, does its
actions one by one, and ends or fails; a failure is signalled and then handed in. The log tells of each task a
beginning of such a life (`Life`), and a task that is on its way is held by exactly one worker (`Crew`): the
worker brings it from stage to stage, and lets go of it once nothing is left to do (`Crew.advance`). -/

namespace BulkSync.Batch

variable {σ : Type} {cancelled : σ → Bool}

/-! ## Stages -/

/-- How far a task is. A failure is looked after by the worker of the task until it is handed in. -/
inductive Stage (σ : Type) where
  | untouched
  | running (rest : Task σ)
  | ended
  | failed (cause : Failure)
  | signalled (cause : Failure)
  | recorded (cause : Failure)

namespace Stage

/-- Nothing is left to do for the task. -/
def Over : Stage σ → Prop
  | .ended | .recorded _ => True
  | .untouched | .running _ | .failed _ | .signalled _ => False

theorem eq_of_over {stage : Stage σ} (through : stage.Over) : stage = .ended ∨ ∃ cause, stage = .recorded cause := by
  cases stage with
  | ended => exact .inl rfl
  | recorded cause => exact .inr ⟨cause, rfl⟩
  | untouched | running rest | failed cause | signalled cause => exact through.elim

/-- What lies in the slot of a task. -/
def slot (task : Task σ) : Stage σ → Option (Task σ)
  | .untouched => some task
  | .running _ | .ended | .failed _ | .signalled _ | .recorded _ => none

end Stage

/-- The entries about a task that has begun and done some actions, at each of which it saw something. -/
def begins (number : Nat) (seen : List Signals) : List Entry := .begun number :: seen.map (.acted number)

/-- What the log tells of a task that has come to a stage. -/
def Life (number : Nat) (task : Task σ) (own : List Entry) : Stage σ → Prop
  | .untouched => own = []
  | .running rest => ∃ seen, seen.length ≤ task.length ∧ rest = task.drop seen.length ∧ own = begins number seen
  | .ended => ∃ seen, seen.length = task.length ∧ own = begins number seen ++ [.ended number]
  | .failed cause => ∃ seen last, seen.length < task.length ∧
      own = begins number seen ++ [.failed ⟨number, cause⟩ last]
  | .signalled cause => ∃ seen last, seen.length < task.length ∧
      own = begins number seen ++ [.failed ⟨number, cause⟩ last, .signalled ⟨number, cause⟩]
  | .recorded cause => ∃ seen last, seen.length < task.length ∧
      own = begins number seen ++
        [.failed ⟨number, cause⟩ last, .signalled ⟨number, cause⟩, .recorded ⟨number, cause⟩]

namespace Life

variable {number : Nat} {task rest : Task σ} {own : List Entry} {stage : Stage σ} {cause : Failure}

theorem begun (life : Life number task own .untouched) :
    Life number task (own ++ [.begun number]) (.running task) :=
  ⟨[], Nat.zero_le _, rfl, by rw [show own = [] from life]; rfl⟩

/-- A task with an action left has done fewer actions than it has. -/
theorem drop_eq_cons {seen : List Signals} {action : Action σ} (todo : action :: rest = task.drop seen.length) :
    seen.length < task.length ∧ rest = task.drop (seen.length + 1) := by
  have inside : seen.length < task.length := by
    by_contra beyond
    rw [List.drop_eq_nil_of_le (Nat.not_lt.mp beyond)] at todo
    cases todo
  rw [List.drop_eq_getElem_cons inside] at todo
  exact ⟨inside, (List.cons.inj todo).2⟩

theorem acted {action : Action σ} (seen : Signals) (life : Life number task own (.running (action :: rest))) :
    Life number task (own ++ [.acted number seen]) (.running rest) := by
  obtain ⟨before, -, todo, rfl⟩ := life
  obtain ⟨inside, further⟩ := drop_eq_cons todo
  exact ⟨before ++ [seen], by simpa [Nat.succ_le_iff] using inside, by simpa using further, by simp [begins]⟩

theorem finished (life : Life number task own (.running [])) :
    Life number task (own ++ [.ended number]) .ended := by
  obtain ⟨seen, within, todo, rfl⟩ := life
  have done := List.drop_eq_nil_iff.mp todo.symm
  exact ⟨seen, Nat.le_antisymm within done, rfl⟩

theorem failed {action : Action σ} (cause : Failure) (last : Signals)
    (life : Life number task own (.running (action :: rest))) :
    Life number task (own ++ [.failed ⟨number, cause⟩ last]) (.failed cause) := by
  obtain ⟨seen, -, todo, rfl⟩ := life
  exact ⟨seen, last, (drop_eq_cons todo).1, rfl⟩

theorem signalled (life : Life number task own (.failed cause)) :
    Life number task (own ++ [.signalled ⟨number, cause⟩]) (.signalled cause) := by
  obtain ⟨seen, last, inside, rfl⟩ := life
  exact ⟨seen, last, inside, by simp⟩

theorem recorded (life : Life number task own (.signalled cause)) :
    Life number task (own ++ [.recorded ⟨number, cause⟩]) (.recorded cause) := by
  obtain ⟨seen, last, inside, rfl⟩ := life
  exact ⟨seen, last, inside, by simp⟩

/-! ### What can be read off a life -/

theorem begun_once (life : Life number task own stage) : own.count (.begun number) ≤ 1 := by
  cases stage with
  | untouched => simp [show own = [] from life]
  | running rest =>
    obtain ⟨seen, -, -, rfl⟩ := life
    simp [begins, List.count_eq_zero]
  | ended =>
    obtain ⟨seen, -, rfl⟩ := life
    simp [begins, List.count_eq_zero]
  | failed cause | signalled cause | recorded cause =>
    obtain ⟨seen, last, -, rfl⟩ := life
    simp [begins, List.count_eq_zero]

theorem touched (life : Life number task own stage) {entry : Entry} (member : entry ∈ own) :
    stage ≠ .untouched := by
  rintro rfl
  rw [show own = [] from life] at member
  cases member

/-- A task that has begun and is not closed is running. -/
theorem running_of_begun (life : Life number task own stage) (begun : .begun number ∈ own)
    (notClosed : ∀ entry ∈ own, entry.closes number = false) : ∃ rest, stage = .running rest := by
  cases stage with
  | untouched => exact absurd rfl (life.touched begun)
  | running rest => exact ⟨rest, rfl⟩
  | ended =>
    obtain ⟨seen, -, rfl⟩ := life
    simpa [Entry.closes] using notClosed (.ended number)
  | failed cause | signalled cause | recorded cause =>
    obtain ⟨seen, last, -, rfl⟩ := life
    simpa [Entry.closes] using notClosed (.failed ⟨number, cause⟩ last)

/-- The entries about a failure tell how far the task has come with it. -/
theorem failure_mem (life : Life number task own stage) (cause : Failure) :
    ((∃ last, .failed ⟨number, cause⟩ last ∈ own) ↔
      stage = .failed cause ∨ stage = .signalled cause ∨ stage = .recorded cause) ∧
    (.signalled ⟨number, cause⟩ ∈ own ↔ stage = .signalled cause ∨ stage = .recorded cause) ∧
    (.recorded ⟨number, cause⟩ ∈ own ↔ stage = .recorded cause) := by
  cases stage with
  | untouched => simp [show own = [] from life]
  | running rest =>
    obtain ⟨seen, -, -, rfl⟩ := life
    simp [begins]
  | ended =>
    obtain ⟨seen, -, rfl⟩ := life
    simp [begins]
  | failed other | signalled other | recorded other =>
    obtain ⟨seen, last, -, rfl⟩ := life
    simp [begins, eq_comm]

end Life

/-! ## Who holds a task -/

/-- The task that a worker holds at its place in the loop, and the stage to which it has brought it. -/
def load : Worker σ → Option (Nat × Stage σ)
  | .taking index => some (index, .untouched)
  | .running index rest => some (index, .running rest)
  | .signalling index cause => some (index, .failed cause)
  | .recording index cause => some (index, .signalled cause)
  | .looking | .claiming | .retired => none

/-- The workers hold tasks that are claimed, and each at the stage that it is at; no two hold the same. A task
that is claimed is held until nothing is left to do for it, and one that is not is untouched. -/
structure Crew (size next : Nat) (stages : Nat → Stage σ) (holds : Nat → Option (Nat × Stage σ)) : Prop where
  held : ∀ worker index stage, holds worker = some (index, stage) →
    index < next ∧ index < size ∧ stages index = stage
  apart : ∀ worker other index stage stage', holds worker = some (index, stage) →
    holds other = some (index, stage') → worker = other
  kept : ∀ index < size, index < next → (stages index).Over ∨ ∃ worker, holds worker = some (index, stages index)
  fresh : ∀ index, next ≤ index → stages index = .untouched

namespace Crew

variable {size next : Nat} {stages : Nat → Stage σ} {holds : Nat → Option (Nat × Stage σ)} {worker : Nat}

theorem overshoot (crew : Crew size next stages holds) (gone : size ≤ next) : Crew size (next + 1) stages holds where
  held other index stage found := by
    obtain ⟨claimed, inside, at_⟩ := crew.held other index stage found
    exact ⟨Nat.lt_succ_of_lt claimed, inside, at_⟩
  apart := crew.apart
  kept index inside _ := crew.kept index inside (Nat.lt_of_lt_of_le inside gone)
  fresh index beyond := crew.fresh index (Nat.le_of_succ_le beyond)

theorem claim (crew : Crew size next stages holds) (free : holds worker = none) (left : next < size) :
    Crew size (next + 1) stages (Function.update holds worker (some (next, .untouched))) where
  held other index stage found := by
    by_cases here : other = worker
    · rw [here, Function.update_self, Option.some_inj, Prod.mk.injEq] at found
      obtain ⟨rfl, rfl⟩ := found
      exact ⟨Nat.lt_succ_self _, left, crew.fresh next (Nat.le_refl _)⟩
    · rw [Function.update_of_ne here] at found
      obtain ⟨claimed, inside, same⟩ := crew.held other index stage found
      exact ⟨Nat.lt_succ_of_lt claimed, inside, same⟩
  apart other another index stage stage' found foundToo := by
    -- the number that is claimed is no one's yet
    have new : ∀ other stage, holds other ≠ some (next, stage) := fun other stage taken =>
      Nat.lt_irrefl next (crew.held other next stage taken).1
    rw [Function.update_apply] at found foundToo
    split at found <;> split at foundToo
    · next here hereToo => rw [here, hereToo]
    · cases found
      exact absurd foundToo (new another stage')
    · cases foundToo
      exact absurd found (new other stage)
    · exact crew.apart other another index stage stage' found foundToo
  kept index inside claimed := by
    rcases Nat.lt_succ_iff_lt_or_eq.mp claimed with before | rfl
    · refine (crew.kept index inside before).imp_right fun ⟨other, found⟩ => ⟨other, ?_⟩
      have apart : other ≠ worker := by
        rintro rfl
        rw [free] at found
        cases found
      rw [Function.update_of_ne apart, found]
    · refine .inr ⟨worker, ?_⟩
      rw [Function.update_self, crew.fresh index (Nat.le_refl _)]
  fresh index beyond := crew.fresh index (Nat.le_of_succ_le beyond)

/-- A worker brings the task that it holds to another stage, and lets go of it once nothing is left to do. -/
theorem advance (crew : Crew size next stages holds) {index : Nat} {stage stage' : Stage σ}
    (found : holds worker = some (index, stage)) {after : Option (Nat × Stage σ)}
    (going : after = some (index, stage') ∨ after = none ∧ stage'.Over) :
    Crew size next (Function.update stages index stage') (Function.update holds worker after) := by
  obtain ⟨claimed, inside, -⟩ := crew.held worker index stage found
  have elsewhere : ∀ other number stage, other ≠ worker → holds other = some (number, stage) → number ≠ index := by
    rintro other number stage apart taken rfl
    exact apart (crew.apart other worker number stage _ taken found)
  have here : ∀ number stage, after = some (number, stage) → number = index ∧ stage = stage' := by
    rintro number stage rfl
    rcases going with same | ⟨gone, -⟩
    · cases same
      exact ⟨rfl, rfl⟩
    · cases gone
  refine ⟨fun other number stage taken => ?_, fun other another number stage stage' taken takenToo => ?_,
    fun number numberInside before => ?_, fun number beyond => ?_⟩
  · rw [Function.update_apply] at taken
    split at taken
    · obtain ⟨rfl, rfl⟩ := here number stage taken
      exact ⟨claimed, inside, Function.update_self ..⟩
    · next apart =>
      rw [Function.update_of_ne (elsewhere other number stage apart taken)]
      exact crew.held other number stage taken
  · rw [Function.update_apply] at taken takenToo
    split at taken <;> split at takenToo
    · next same sameToo => rw [same, sameToo]
    · next apart => exact absurd (here number stage taken).1 (elsewhere another number stage' apart takenToo)
    · next apart _ => exact absurd (here number stage' takenToo).1 (elsewhere other number stage apart taken)
    · exact crew.apart other another number stage stage' taken takenToo
  · by_cases same : number = index
    · rw [same, Function.update_self]
      rcases going with rfl | ⟨-, through⟩
      · exact .inr ⟨worker, Function.update_self ..⟩
      · exact .inl through
    · rw [Function.update_of_ne same]
      refine (crew.kept number numberInside before).imp_right fun ⟨other, taken⟩ => ⟨other, ?_⟩
      rw [Function.update_of_ne, taken]
      rintro rfl
      rw [found] at taken
      cases taken
      exact same rfl
  · rw [Function.update_of_ne (by omega)]
    exact crew.fresh number beyond

end Crew

end BulkSync.Batch
