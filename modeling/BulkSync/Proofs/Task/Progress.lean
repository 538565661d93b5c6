import BulkSync.Proofs.Task.Consistency
import Mathlib.Algebra.BigOperators.Group.Finset.Basic
import Mathlib.Algebra.GroupWithZero.Nat
import Mathlib.Algebra.Order.BigOperators.Group.Finset

/-! # Batches come to an end

The tasks that lie in their slots and the workers in their loops are good for so many steps (`steps`), and every
step uses one up: no run is longer than `enoughSteps`, whatever the schedule (`Run.length_le`). -/

namespace BulkSync.Batch

variable {σ : Type} {cancelled : σ → Bool} {b next : Batch σ}

/-- The steps that a task in its slot is good for, once it is claimed: to take it, its actions, and what follows
a failure or leads back into the loop. -/
def stepsOfSlot : Option (Task σ) → Nat
  | none => 0
  | some task => task.length + 5

/-- The steps that a worker is good for until it claims another task. -/
def stepsOfWorker : Worker σ → Nat
  | .looking => 3
  | .claiming => 2
  | .taking _ => 1
  | .running _ rest => rest.length + 5
  | .signalling .. => 5
  | .recording .. => 4
  | .retired => 0

def stepsOfSlots (b : Batch σ) : Nat := ∑ index ∈ Finset.range b.slots.size, stepsOfSlot (b.slots.getD index none)

def stepsOfWorkers (b : Batch σ) : Nat := ∑ worker ∈ Finset.range b.workers.size, stepsOfWorker (b.place worker)

def steps (b : Batch σ) : Nat := b.stepsOfSlots + b.stepsOfWorkers

theorem sum_update {α : Type} (weight : α → Nat) (entries : Nat → α) {count place : Nat} (inside : place < count)
    (entry : α) : ∑ i ∈ Finset.range count, weight (Function.update entries place entry i) + weight (entries place) =
      ∑ i ∈ Finset.range count, weight (entries i) + weight entry := by
  have member : place ∈ Finset.range count := Finset.mem_range.mpr inside
  rw [← Finset.add_sum_erase _ _ member, ← Finset.add_sum_erase _ (fun i => weight (entries i)) member,
    Function.update_self, Finset.sum_congr rfl fun i other => by
      rw [Function.update_of_ne (Finset.ne_of_mem_erase other)]]
  omega

/-- A worker that moves uses up the difference of what it was good for there and is good for here. -/
theorem steps_move {worker : Nat} (live : b.place worker ≠ .retired) (there : Worker σ) :
    (b.move worker there).steps + stepsOfWorker (b.place worker) = b.steps + stepsOfWorker there := by
  have inside : worker < b.workers.size := by
    by_contra outside
    exact live (by simp [place, Array.getD, outside])
  have workers : (b.move worker there).stepsOfWorkers + stepsOfWorker (b.place worker) =
      b.stepsOfWorkers + stepsOfWorker there := by
    rw [stepsOfWorkers, stepsOfWorkers, place_move live,
      show (b.move worker there).workers.size = b.workers.size from Array.size_setIfInBounds]
    exact sum_update stepsOfWorker b.place inside there
  have slots : (b.move worker there).stepsOfSlots = b.stepsOfSlots := rfl
  rw [steps, steps, slots]
  omega

theorem steps_take {index : Nat} {task : Task σ} (slot : b.slots.getD index none = some task) :
    { b with slots := b.slots.setIfInBounds index none }.steps + (task.length + 5) = b.steps := by
  have inside : index < b.slots.size := by
    by_contra outside
    simp [Array.getD, outside] at slot
  have taken : (fun i => (b.slots.setIfInBounds index none).getD i none) =
      Function.update (fun i => b.slots.getD i none) index none := by
    funext i
    rw [Array.getD_eq_getD_getElem?, Array.getElem?_setIfInBounds, Function.update_apply]
    by_cases here : index = i
    · subst here
      simp [inside]
    · rw [if_neg here, if_neg (Ne.symm here), Array.getD_eq_getD_getElem?]
  have replaced := sum_update stepsOfSlot (fun i => b.slots.getD i none) inside none
  rw [← taken] at replaced
  have slots : { b with slots := b.slots.setIfInBounds index none }.stepsOfSlots + (task.length + 5) =
      b.stepsOfSlots := by
    rw [stepsOfSlots, stepsOfSlots, Array.size_setIfInBounds]
    simpa only [slot, stepsOfSlot, Nat.add_zero] using replaced
  have workers : { b with slots := b.slots.setIfInBounds index none }.stepsOfWorkers = b.stepsOfWorkers := rfl
  rw [steps, steps, workers]
  omega

variable {tasks : List (Task σ)} {log : List Entry} {stages : Nat → Stage σ}

theorem Consistent.steps_lt (consistent : Consistent tasks log stages b) {worker : Nat}
    {shown : Option Entry} (stepped : Step cancelled b worker shown next) : next.steps < b.steps := by
  -- but for a slot, the fields that change beside the place of the worker do not count
  have moves : ∀ {c : Batch σ} {here there : Worker σ}, c.place worker = here → here ≠ .retired →
      stepsOfWorker there < stepsOfWorker here → (c.move worker there).steps < c.steps := by
    intro c here there placed stays fewer
    have moved := c.steps_move (placed ▸ stays : c.place worker ≠ .retired) there
    rw [placed] at moved
    omega
  cases stepped with
  | look placed =>
    refine moves placed nofun ?_
    split <;> simp [stepsOfWorker]
  | claim placed left => exact moves (c := { b with next := b.next + 1 }) placed nofun (by simp [stepsOfWorker])
  | leave placed gone => exact moves (c := { b with next := b.next + 1 }) placed nofun (by simp [stepsOfWorker])
  | @take index task placed slot =>
    have taken := steps_take slot
    have same : { b with slots := b.slots.setIfInBounds index none }.place worker = .taking index := placed
    have live : { b with slots := b.slots.setIfInBounds index none }.place worker ≠ .retired := by
      rw [same]
      exact nofun
    -- what the slot was good for is handed to the worker
    have moved := steps_move live (.running index task)
    rw [same, stepsOfWorker, stepsOfWorker] at moved
    omega
  | @miss index placed slot =>
    obtain ⟨inside, full⟩ := consistent.slot_of_taking placed
    cases slot.symm.trans full
  | finish placed => exact moves placed nofun (by simp [stepsOfWorker])
  | @act index action rest shared placed ready ran =>
    exact moves (c := { b with shared := shared }) placed nofun (by simp [stepsOfWorker])
  | @fail index action rest cause shared placed ready ran =>
    exact moves (c := { b with shared := shared }) placed nofun (by simp [stepsOfWorker])
  | signal placed => exact moves (c := { b with failed := true }) placed nofun (by simp [stepsOfWorker])
  | @record index cause placed =>
    exact moves (c := { b with firstError := b.firstError.or (some ⟨index, cause⟩) }) placed nofun
      (by simp [stepsOfWorker])

/-- A batch that is good for no more steps takes none. -/
theorem Consistent.stuck_of_steps (consistent : Consistent tasks log stages b) (none : b.steps = 0) (worker : Nat) :
    b.step cancelled worker = .none := by
  cases stepped : b.step cancelled worker with
  | none => rfl
  | some next =>
    have fewer := consistent.steps_lt (step_eq_some stepped)
    omega

theorem sum_getD {α : Type} (weight : α → Nat) (items : List α) (default : α) :
    ∑ i ∈ Finset.range items.length, weight (items.getD i default) = (items.map weight).sum := by
  induction items with
  | nil => rfl
  | cons item items inductionHypothesis =>
    rw [List.length_cons, Finset.sum_range_succ', List.map_cons, List.sum_cons, ← inductionHypothesis, Nat.add_comm]
    rfl

theorem steps_start (concurrency : Nat) (tasks : List (Task σ)) (s : σ) :
    (start concurrency tasks s).steps ≤ enoughSteps concurrency tasks := by
  have slots : (start concurrency tasks s).stepsOfSlots = tasks.flatten.length + 5 * tasks.length := by
    have listed : (start concurrency tasks s).stepsOfSlots = ((tasks.map some).map stepsOfSlot).sum := by
      rw [← sum_getD stepsOfSlot (tasks.map some) none]
      simp only [stepsOfSlots, start, List.size_toArray, Array.getD_eq_getD_getElem?, List.getElem?_toArray,
        List.getD_eq_getElem?_getD]
    rw [listed]
    clear listed
    induction tasks with
    | nil => rfl
    | cons task tasks inductionHypothesis =>
      simp only [List.map_cons, List.sum_cons, stepsOfSlot, List.flatten_cons, List.length_append, List.length_cons]
        at inductionHypothesis ⊢
      omega
  have workers : (start concurrency tasks s).stepsOfWorkers = min concurrency tasks.length * 3 := by
    have looking : ∀ worker ∈ Finset.range (min concurrency tasks.length),
        stepsOfWorker ((start concurrency tasks s).place worker) = 3 := by
      intro worker member
      rw [Finset.mem_range] at member
      simp [place, start, Array.getD_eq_getD_getElem?, member, stepsOfWorker]
    rw [stepsOfWorkers, show (start concurrency tasks s).workers.size = min concurrency tasks.length from
      Array.size_replicate, Finset.sum_const_nat looking, Finset.card_range]
  rw [steps, slots, workers, enoughSteps]
  omega

/-- No run is longer than the steps that its batch is good for. -/
theorem Run.length_le {tasks : List (Task σ)} {concurrency : Nat} {s : σ} {schedule : List Nat}
    (run : Run cancelled (Batch.start concurrency tasks s) schedule log b) :
    schedule.length ≤ enoughSteps concurrency tasks := by
  suffices schedule.length + b.steps ≤ (Batch.start concurrency tasks s).steps from
    (Nat.le_add_right _ _).trans (this.trans (steps_start concurrency tasks s))
  induction run with
  | start => simp
  | step run stepped inductionHypothesis =>
    obtain ⟨stages, consistent⟩ := run.consistent
    have fewer := consistent.steps_lt (step_eq_some stepped)
    rw [List.length_append, List.length_singleton]
    omega
  | outside run kept inductionHypothesis => exact inductionHypothesis

end BulkSync.Batch
