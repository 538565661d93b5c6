import BulkSync.Task.Action
import Mathlib.Data.List.Range

/-! # Tasks one after another

What becomes of the tasks of a batch if each is executed alone, in the order of their numbers, up to the first that
fails or leaves the stop flag raised (`inTurn`). A report says which tasks have been executed and how the batch
has ended: they are a prefix of the batch, and the states between them form a path (`Prefix`, `inTurn_prefix`).
A task that waits while it is alone waits forever, and then there is no report.

Batches that follow one another have nothing in common but the shared state (`serveAll`). -/

namespace BulkSync

variable {σ : Type} {cancelled : σ → Bool}

/-- Runs the actions of a task while no other task acts; nothing comes of it if one of them has to wait. -/
def Task.alone (cancelled : σ → Bool) : Task σ → σ → Option (Option Failure × σ)
  | [], s => some (none, s)
  | action :: rest, s =>
      if action.ready ⟨false, false, cancelled s⟩ s then
        match action.run ⟨false, false, cancelled s⟩ s with
        | (none, s) => Task.alone cancelled rest s
        | (some cause, s) => some (some cause, s)
      else none

def Task.Prompt (task : Task σ) : Prop := ∀ action ∈ task, ∀ seen s, action.ready seen s = true

theorem Task.Prompt.alone {task : Task σ} (prompt : task.Prompt) (s : σ) :
    task.alone cancelled s = some (task.runAlone cancelled s) := by
  induction task generalizing s with
  | nil => rfl
  | cons action rest inductionHypothesis =>
    rw [Task.alone, if_pos (prompt action (List.mem_cons_self ..) _ _), Task.runAlone]
    match action.run ⟨false, false, cancelled s⟩ s with
    | (none, t) => exact inductionHypothesis (fun other member => prompt other (List.mem_cons_of_mem _ member)) t
    | (some cause, t) => rfl

/-- What is seen of a batch from outside once it has ended: the tasks that were executed, in order, and the
result. -/
structure Report where
  executed : List Nat
  result : Except TaskError Completion

/-- The report on what happens after a task was begun, with that task. -/
def Report.begin (number : Nat) (report : Report) : Report :=
  { report with executed := number :: report.executed }

/-- What follows once a task is through: a failure ends the batch. -/
def settle (number : Nat) (rest : σ → Option (Report × σ)) : Option Failure × σ → Option (Report × σ)
  | (none, s) => rest s
  | (some cause, s) => some (⟨[], .error ⟨number, cause⟩⟩, s)

/-- Executes tasks with consecutive numbers one after another, up to the first that fails or leaves the flag
raised. -/
def inTurn (cancelled : σ → Bool) : Nat → List (Task σ) → σ → Option (Report × σ)
  | _, [], s => some (⟨[], .ok (completion (cancelled s))⟩, s)
  | number, task :: rest, s =>
      if cancelled s then some (⟨[], .ok .cancelled⟩, s)
      else ((task.alone cancelled s).bind (settle number (inTurn cancelled (number + 1) rest))).map
        (Prod.map (Report.begin number) id)

/-- Once the flag is raised no task is executed. -/
theorem inTurn_raised {number : Nat} {tasks : List (Task σ)} {s : σ} (up : cancelled s = true) :
    inTurn cancelled number tasks s = some (⟨[], .ok .cancelled⟩, s) := by
  cases tasks <;> simp [inTurn, completion, up]

theorem inTurn_isSome {number : Nat} {tasks : List (Task σ)}
    (ends : ∀ task ∈ tasks, ∀ s, (task.alone cancelled s).isSome) (s : σ) :
    (inTurn cancelled number tasks s).isSome := by
  induction tasks generalizing number s with
  | nil => rfl
  | cons task rest inductionHypothesis =>
    rw [inTurn]
    split
    · rfl
    · obtain ⟨⟨failure, t⟩, alone⟩ := Option.isSome_iff_exists.mp (ends task (List.mem_cons_self ..) s)
      rw [alone, Option.bind_some, Option.isSome_map]
      cases failure with
      | none => exact inductionHypothesis (fun other member => ends other (List.mem_cons_of_mem _ member)) t
      | some cause => rfl

theorem inTurn_prompt (cancelled : σ → Bool) (number : Nat) {tasks : List (Task σ)}
    (prompt : ∀ task ∈ tasks, task.Prompt) (s : σ) :
    ∃ report t, inTurn cancelled number tasks s = some (report, t) ∧
      runInOrder cancelled ((List.range' number tasks.length).zip tasks) s = (report.result, t) := by
  induction tasks generalizing number s with
  | nil => exact ⟨_, _, rfl, rfl⟩
  | cons task rest inductionHypothesis =>
    rw [inTurn, (prompt task (List.mem_cons_self ..)).alone, Option.bind_some, List.length_cons, List.range'_succ,
      List.zip_cons_cons, runInOrder]
    split
    · exact ⟨_, _, rfl, rfl⟩
    · match task.runAlone cancelled s with
      | (some cause, t) => exact ⟨_, _, rfl, rfl⟩
      | (none, t) =>
        obtain ⟨report, last, ran, same⟩ := inductionHypothesis (number + 1)
          (fun other member => prompt other (List.mem_cons_of_mem _ member)) t
        exact ⟨report.begin number, last, by simp [settle, ran], same⟩

/-! ## Prefixes -/

/-- A report on tasks with consecutive numbers that is about the first `count` of them. They are executed one after
the other along a path of states, each alone and while the flag is down. None but the last fails; its failure is the
result, and otherwise the result says whether the flag is raised in the end. That is why it was the last, unless
no task is left. -/
structure Prefix (cancelled : σ → Bool) (number : Nat) (tasks : List (Task σ)) (s : σ) (report : Report) (t : σ)
    (count : Nat) (path : Nat → σ) (failure : Option Failure) : Prop where
  first : path 0 = s
  last : path count = t
  within : count ≤ tasks.length
  executed : report.executed = List.range' number count
  down : ∀ i < count, cancelled (path i) = false
  alone : ∀ i (inside : i < tasks.length), i < count →
    tasks[i].alone cancelled (path i) = some (if i + 1 = count then failure else none, path (i + 1))
  failed : ∀ cause, failure = some cause → 0 < count ∧ report.result = .error ⟨number + count - 1, cause⟩
  completed : failure = none → report.result = .ok (completion (cancelled t)) ∧
    (count < tasks.length → cancelled t = true)

namespace Prefix

variable {number count : Nat} {tasks rest : List (Task σ)} {task : Task σ} {s next t : σ} {report : Report}
  {path : Nat → σ} {failure : Option Failure}

/-- No task is executed if there is none or the flag is raised. -/
theorem nothing (stopped : 0 < tasks.length → cancelled s = true) :
    Prefix cancelled number tasks s ⟨[], .ok (completion (cancelled s))⟩ s 0 (fun _ => s) none :=
  ⟨rfl, rfl, Nat.zero_le _, rfl, nofun, nofun, nofun, fun _ => ⟨rfl, stopped⟩⟩

def prepend (s : σ) (path : Nat → σ) : Nat → σ
  | 0 => s
  | i + 1 => path i

theorem single {cause : Failure} (down : cancelled s = false) (alone : task.alone cancelled s = some (some cause, t)) :
    Prefix cancelled number (task :: rest) s ⟨[number], .error ⟨number, cause⟩⟩ t 1 (prepend s fun _ => t)
      (some cause) where
  first := rfl
  last := rfl
  within := Nat.succ_le_succ (Nat.zero_le _)
  executed := rfl
  down i inside := by
    obtain rfl := Nat.lt_one_iff.mp inside
    exact down
  alone i _ inside := by
    obtain rfl := Nat.lt_one_iff.mp inside
    exact alone
  failed := by
    rintro _ ⟨⟩
    exact ⟨Nat.one_pos, rfl⟩
  completed := nofun

theorem cons (down : cancelled s = false) (alone : task.alone cancelled s = some (none, next))
    (whole : Prefix cancelled (number + 1) rest next report t count path failure) :
    Prefix cancelled number (task :: rest) s (report.begin number) t (count + 1) (prepend s path) failure where
  first := rfl
  last := whole.last
  within := Nat.succ_le_succ whole.within
  executed := by rw [Report.begin, whole.executed, List.range'_succ]
  down
    | 0, _ => down
    | i + 1, inside => whole.down i (Nat.lt_of_succ_lt_succ inside)
  alone
    | 0, _, _ => by
      -- if no task follows, none of those that follow can have failed
      have calm : (if 0 + 1 = count + 1 then failure else none) = none := by
        split
        · next only =>
          obtain rfl : 0 = count := Nat.succ_inj.mp only
          by_contra some
          obtain ⟨cause, here⟩ := Option.ne_none_iff_exists'.mp some
          exact Nat.lt_irrefl 0 (whole.failed cause here).1
        · rfl
      rw [calm, prepend, prepend, whole.first]
      exact alone
    | i + 1, inside, before => by
      simpa [prepend] using whole.alone i (Nat.lt_of_succ_lt_succ inside) (Nat.lt_of_succ_lt_succ before)
  failed cause here := by
    obtain ⟨positive, result⟩ := whole.failed cause here
    refine ⟨Nat.succ_pos _, ?_⟩
    rw [Report.begin, result, show number + 1 + count - 1 = number + (count + 1) - 1 by omega]
  completed calm := by
    obtain ⟨result, stopped⟩ := whole.completed calm
    exact ⟨result, fun more => stopped (Nat.lt_of_succ_lt_succ more)⟩

end Prefix

/-- What is executed in turn is a prefix. -/
theorem inTurn_prefix {number : Nat} {tasks : List (Task σ)} {s t : σ} {report : Report}
    (ran : inTurn cancelled number tasks s = some (report, t)) :
    ∃ count path failure, Prefix cancelled number tasks s report t count path failure := by
  induction tasks generalizing number s report with
  | nil =>
    cases ran
    exact ⟨_, _, _, .nothing nofun⟩
  | cons task rest inductionHypothesis =>
    cases up : cancelled s with
    | true =>
      have whole : Prefix cancelled number (task :: rest) s ⟨[], .ok (completion (cancelled s))⟩ s 0 (fun _ => s)
          none := .nothing fun _ => up
      rw [inTurn_raised up] at ran
      rw [up] at whole
      cases ran
      exact ⟨_, _, _, whole⟩
    | false =>
      rw [inTurn, if_neg (by simp [up])] at ran
      obtain ⟨⟨further, last⟩, settled, whole⟩ := Option.map_eq_some_iff.mp ran
      cases whole
      obtain ⟨⟨failure, next⟩, alone, settled⟩ := Option.bind_eq_some_iff.mp settled
      cases failure with
      | some cause =>
        cases settled
        exact ⟨_, _, _, .single up alone⟩
      | none =>
        obtain ⟨count, path, failure, whole⟩ := inductionHypothesis settled
        exact ⟨_, _, _, .cons up alone whole⟩

/-! ## Batch after batch -/

/-- Serves one batch after another, each from the state that the one before has left. -/
def serveAll (serve : List (Task σ) → σ → Option (Report × σ)) :
    List (List (Task σ)) → σ → Option (List Report × σ)
  | [], s => some ([], s)
  | tasks :: later, s => do
      let (report, s) ← serve tasks s
      let (reports, s) ← serveAll serve later s
      return (report :: reports, s)

section Batches

variable {serve : List (Task σ) → σ → Option (Report × σ)} {batches : List (List (Task σ))} {s t : σ}
  {reports : List Report}

theorem serveAll_cons_eq_some {tasks : List (Task σ)}
    (served : serveAll serve (tasks :: batches) s = some (reports, t)) :
    ∃ report after next, reports = report :: after ∧ serve tasks s = some (report, next) ∧
      serveAll serve batches next = some (after, t) := by
  rw [serveAll] at served
  obtain ⟨⟨report, next⟩, here, served⟩ := Option.bind_eq_some_iff.mp served
  obtain ⟨⟨after, last⟩, there, served⟩ := Option.bind_eq_some_iff.mp served
  cases served
  exact ⟨report, after, next, rfl, here, there⟩

/-- A batch among others is served from the state that the earlier ones have left, and leaves one to the later. -/
theorem serveAll_split {earlier later : List (List (Task σ))} {tasks : List (Task σ)}
    (served : serveAll serve (earlier ++ tasks :: later) s = some (reports, t)) :
    ∃ before report after here there, reports = before ++ report :: after ∧
      serveAll serve earlier s = some (before, here) ∧ serve tasks here = some (report, there) ∧
      serveAll serve later there = some (after, t) := by
  induction earlier generalizing s reports with
  | nil =>
    obtain ⟨report, after, there, rfl, here, further⟩ := serveAll_cons_eq_some served
    exact ⟨[], report, after, s, there, rfl, rfl, here, further⟩
  | cons first earlier inductionHypothesis =>
    obtain ⟨opening, rest, next, rfl, begun, served⟩ := serveAll_cons_eq_some served
    obtain ⟨before, report, after, here, there, rfl, early, now, late⟩ := inductionHypothesis served
    exact ⟨opening :: before, report, after, here, there, rfl, by simp [serveAll, begun, early], now, late⟩

theorem serveAll_isSome (ends : ∀ tasks ∈ batches, ∀ s, (serve tasks s).isSome) :
    (serveAll serve batches s).isSome := by
  induction batches generalizing s with
  | nil => rfl
  | cons tasks batches inductionHypothesis =>
    obtain ⟨⟨report, next⟩, here⟩ := Option.isSome_iff_exists.mp (ends tasks (List.mem_cons_self ..) s)
    obtain ⟨⟨reports, last⟩, there⟩ := Option.isSome_iff_exists.mp
      (inductionHypothesis (s := next) fun other member => ends other (List.mem_cons_of_mem _ member))
    simp [serveAll, here, there]

theorem serveAll_raised (up : cancelled s = true) :
    serveAll (inTurn cancelled 0) batches s = some (batches.map fun _ => ⟨[], .ok .cancelled⟩, s) := by
  induction batches with
  | nil => rfl
  | cons tasks batches inductionHypothesis => simp [serveAll, inTurn_raised up, inductionHypothesis]

end Batches
end BulkSync
