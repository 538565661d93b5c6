import BulkSync.Proofs.Task.Front

/-! # Tasks that take turns

A task of one action is never disturbed, so that executing a batch of such tasks means to choose an
order. What each task keeps holds in the end (`inOrder_keeps`), and of a batch that finishes the tasks
have all been done, none of them has failed, and none has left the stop flag raised
(`inOrder_finished`); a batch of which none does so finishes (`inOrder_succeeds`), and a batch fails just if
one of its tasks does when its turn comes (`inOrder_failed_iff`).

Such tasks never wait, so that on a pool of threads they are executed in sequence
(`inSequence_runOnPool`). -/

namespace BulkSync

variable {σ : Type}

/-- What a task of one action does. -/
abbrev Work (σ : Type) : Type := Signals → σ → Option Failure × σ

/-- The tasks of one action each. -/
def singles (works : List (Work σ)) : List (Task σ) := works.map fun work => [.ofFun work]

/-- What is seen by a task of a batch in which nothing has gone wrong. -/
def Signals.calm : Signals := ⟨false, false, false⟩

namespace Executor

/-- Tasks of one action are executed one after the other, in an order that can be any. -/
def TakesTurns (executor : Executor σ) (cancelled : σ → Bool) : Prop :=
  ∀ works s, ∃ order : List Nat, order.Perm (List.range works.length) ∧
    executor (singles works) s = inOrder cancelled order (singles works) s

/-- Tasks of one action are executed in the order of their numbers. -/
def InSequence (executor : Executor σ) (cancelled : σ → Bool) : Prop :=
  ∀ works s, executor (singles works) s =
    inOrder cancelled (List.range works.length) (singles works) s

theorem InSequence.takesTurns {executor : Executor σ} {cancelled : σ → Bool}
    (sequential : executor.InSequence cancelled) : executor.TakesTurns cancelled :=
  fun works s => ⟨List.range works.length, .refl _, sequential works s⟩

end Executor

/-! ## One after another -/

section InOrder

variable {cancelled : σ → Bool} {works : List (Work σ)}

theorem getD_singles {slot : Nat} (inside : slot < works.length) :
    (singles works).getD slot [] = [.ofFun works[slot]] := by
  simp [singles, List.getD, inside]

theorem runAlone_single (work : Work σ) (s : σ) : Task.runAlone cancelled [.ofFun work] s =
    work ⟨false, false, cancelled s⟩ s := by
  rw [Task.runAlone]
  cases ran : work ⟨false, false, cancelled s⟩ s with
  | mk result t => cases result <;> simp [Action.ofFun, ran, Task.runAlone]

/-- What each task keeps holds in the end, however the batch ends. -/
theorem inOrder_keeps (holds : σ → Prop)
    (kept : ∀ slot (inside : slot < works.length) signals s, holds s →
      holds (works[slot] signals s).2) {order : List Nat}
    (inside : ∀ slot ∈ order, slot < works.length) {s : σ} (start : holds s) :
    holds (inOrder cancelled order (singles works) s).2 := by
  rw [inOrder]
  induction order generalizing s with
  | nil => exact start
  | cons slot order inductionHypothesis =>
    have here := inside slot (List.mem_cons_self ..)
    have step := kept slot here ⟨false, false, cancelled s⟩ s start
    rw [List.map_cons, runInOrder, getD_singles here, runAlone_single]
    split
    · exact start
    · split
      · next t ran =>
        rw [ran] at step
        exact inductionHypothesis (fun other member => inside other (List.mem_cons_of_mem _ member)) step
      · next cause t ran =>
        rw [ran] at step
        exact step

/-- Once the flag is raised no task is executed. -/
theorem inOrder_raised {order : List Nat} {tasks : List (Task σ)} {s : σ} (up : cancelled s = true) :
    inOrder cancelled order tasks s = (.ok .cancelled, s) := by
  rw [inOrder]
  cases order <;> simp [runInOrder, completion, up]

/-- What holds at the start, is kept by each task that succeeds, and does not depend on the tasks that are left out
once the flag is raised, holds of a batch that does not fail. -/
theorem inOrder_ran (holds : List Nat → σ → Prop) {order : List Nat}
    (kept : ∀ done slot todo (_ : order = done ++ slot :: todo) (inside : slot < works.length) s t,
      holds done s → cancelled s = false → works[slot] .calm s = (none, t) → holds (done ++ [slot]) t)
    (skipped : ∀ done slot s, holds done s → cancelled s = true → holds (done ++ [slot]) s)
    (inside : ∀ slot ∈ order, slot < works.length) {s t : σ} {result : Completion} (start : holds [] s)
    (ran : inOrder cancelled order (singles works) s = (.ok result, t)) :
    holds order t ∧ result = completion (cancelled t) := by
  rw [inOrder] at ran
  -- an induction over the tasks that are still to do
  suffices ∀ done todo s, order = done ++ todo → holds done s →
      runInOrder cancelled (todo.map fun index => (index, (singles works).getD index [])) s =
        (.ok result, t) → holds order t ∧ result = completion (cancelled t) from this [] order s rfl start ran
  intro done todo
  induction todo generalizing done with
  | nil =>
    intro s split now ended
    cases ended
    rw [List.append_nil] at split
    exact ⟨split ▸ now, rfl⟩
  | cons slot todo inductionHypothesis =>
    intro s split now ended
    have here := inside slot (by simp [split])
    rw [List.map_cons, runInOrder, getD_singles here, runAlone_single] at ended
    cases flag : cancelled s with
    | true =>
      -- all that are left are skipped alike
      refine inductionHypothesis (done ++ [slot]) s (by simpa using split) (skipped done slot s now flag) ?_
      rw [flag] at ended
      exact (inOrder_raised flag).trans ended
    | false =>
      rw [flag] at ended
      cases worked : works[slot] ⟨false, false, false⟩ s with
      | mk failure u =>
        rw [worked] at ended
        cases failure with
        | some cause => cases ended
        | none =>
          exact inductionHypothesis (done ++ [slot]) u (by simpa using split)
            (kept done slot todo split here s u now flag worked) ended

/-- What holds at the start, and is kept by each task that succeeds and leaves the flag down, holds of
a batch that finishes. -/
theorem inOrder_finished (holds : List Nat → σ → Prop) {order : List Nat}
    (kept : ∀ done slot todo (_ : order = done ++ slot :: todo) (inside : slot < works.length) s t,
      holds done s → cancelled s = false → works[slot] .calm s = (none, t) → cancelled t = false →
      holds (done ++ [slot]) t)
    (inside : ∀ slot ∈ order, slot < works.length) {s t : σ} (start : holds [] s)
    (ran : inOrder cancelled order (singles works) s = (.ok .finished, t)) :
    holds order t ∧ cancelled t = false := by
  -- nothing is claimed of states in which the flag is raised, and the last one is not of that kind
  obtain ⟨now, finished⟩ := inOrder_ran (fun done s => cancelled s = false → holds done s)
    (fun done slot todo split inside s t now calm worked calmAfter =>
      kept done slot todo split inside s t (now calm) calm worked calmAfter)
    (fun done slot s now up calm => absurd up (by simp [calm])) inside (fun _ => start) ran
  cases calm : cancelled t with
  | false => exact ⟨now calm, rfl⟩
  | true => simp [completion, calm] at finished

/-- A batch finishes if each of its tasks succeeds and leaves the flag down, given what the tasks before
it have left. -/
theorem inOrder_succeeds (holds : List Nat → σ → Prop) {order : List Nat}
    (succeeds : ∀ done slot todo (_ : order = done ++ slot :: todo) (inside : slot < works.length) s,
      holds done s → cancelled s = false →
        ∃ t, works[slot] .calm s = (none, t) ∧ cancelled t = false ∧ holds (done ++ [slot]) t)
    (inside : ∀ slot ∈ order, slot < works.length) {s : σ} (start : holds [] s)
    (calm : cancelled s = false) :
    ∃ t, inOrder cancelled order (singles works) s = (.ok .finished, t) ∧ holds order t := by
  rw [inOrder]
  suffices ∀ done todo s, order = done ++ todo → holds done s → cancelled s = false →
      ∃ t, runInOrder cancelled (todo.map fun index => (index, (singles works).getD index [])) s =
        (.ok .finished, t) ∧ holds order t from this [] order s rfl start calm
  intro done todo
  induction todo generalizing done with
  | nil =>
    intro s split now calm
    rw [List.append_nil] at split
    exact ⟨s, by simp [runInOrder, completion, calm], split ▸ now⟩
  | cons slot todo inductionHypothesis =>
    intro s split now calm
    have here := inside slot (by simp [split])
    obtain ⟨t, worked, calmAfter, next⟩ := succeeds done slot todo split here s now calm
    obtain ⟨u, finished, all⟩ :=
      inductionHypothesis (done ++ [slot]) t (by simpa using split) next calmAfter
    refine ⟨u, ?_, all⟩
    rw [List.map_cons, runInOrder, getD_singles here, runAlone_single, calm]
    rw [show (⟨false, false, false⟩ : Signals) = .calm from rfl, worked]
    exact finished

theorem inOrder_cancelled {order : List Nat} {tasks : List (Task σ)} {s t : σ}
    (ran : inOrder cancelled order tasks s = (.ok .cancelled, t)) : cancelled t = true := by
  rw [inOrder] at ran
  induction order generalizing s with
  | nil =>
    rw [List.map_nil, runInOrder, completion] at ran
    obtain ⟨result, rfl⟩ := Prod.mk.inj ran
    cases raised : cancelled s with
    | true => rfl
    | false => simp [raised] at result
  | cons slot order inductionHypothesis =>
    rw [List.map_cons, runInOrder] at ran
    split at ran
    · next raised =>
      obtain ⟨-, rfl⟩ := Prod.mk.inj ran
      exact raised
    · split at ran
      · exact inductionHypothesis ran
      · cases ran

theorem inOrder_cons {slot : Nat} {order : List Nat} (inside : slot < works.length) {s : σ}
    (calm : cancelled s = false) : inOrder cancelled (slot :: order) (singles works) s =
      match works[slot] .calm s with
      | (none, t) => inOrder cancelled order (singles works) t
      | (some cause, t) => (.error ⟨slot, cause⟩, t) := by
  rw [inOrder, List.map_cons, runInOrder, getD_singles inside, runAlone_single, calm]
  rfl

theorem inOrder_append (first rest : List Nat) (s : σ) :
    inOrder cancelled (first ++ rest) (singles works) s =
      match inOrder cancelled first (singles works) s with
      | (.ok .finished, t) => inOrder cancelled rest (singles works) t
      | ended => ended := by
  induction first generalizing s with
  | nil =>
    cases raised : cancelled s with
    | false => simp [inOrder, runInOrder, completion, raised]
    | true => cases rest <;> simp [inOrder, runInOrder, completion, raised]
  | cons slot first inductionHypothesis =>
    simp only [inOrder, List.cons_append, List.map_cons, runInOrder] at inductionHypothesis ⊢
    cases raised : cancelled s with
    | true => rfl
    | false =>
      rcases Task.runAlone cancelled ((singles works).getD slot []) s with ⟨_ | cause, t⟩
      · exact inductionHypothesis t
      · rfl

/-- A batch fails just if one of its tasks does when its turn comes. -/
theorem inOrder_failed_iff {order : List Nat} (inside : ∀ slot ∈ order, slot < works.length) {s t : σ}
    {error : TaskError} : inOrder cancelled order (singles works) s = (.error error, t) ↔
      ∃ done todo before, order = done ++ error.task :: todo ∧
        inOrder cancelled done (singles works) s = (.ok .finished, before) ∧
        ∃ here : error.task < works.length, works[error.task] .calm before = (some error.cause, t) := by
  constructor
  · intro failed
    induction order generalizing s with
    | nil => cases failed
    | cons slot order inductionHypothesis =>
      have here := inside slot (List.mem_cons_self ..)
      cases raised : cancelled s with
      | true => simp [inOrder, runInOrder, raised] at failed
      | false =>
        rw [inOrder_cons here raised] at failed
        cases worked : works[slot] .calm s with
        | mk result after =>
          rw [worked] at failed
          cases result with
          | some cause =>
            cases failed
            refine ⟨[], order, s, rfl, ?_, here, worked⟩
            simp [inOrder, runInOrder, completion, raised]
          | none =>
            obtain ⟨done, todo, before, rfl, finished, struck⟩ := inductionHypothesis
              (fun other member => inside other (List.mem_cons_of_mem _ member)) failed
            refine ⟨slot :: done, todo, before, rfl, ?_, struck⟩
            rw [inOrder_cons here raised, worked]
            exact finished
  · rintro ⟨done, todo, before, rfl, finished, here, worked⟩
    rw [inOrder_append, finished]
    have calm : cancelled before = false :=
      (inOrder_finished (fun _ _ => True) (fun _ _ _ _ _ _ _ _ _ _ _ => trivial)
        (fun slot member => inside slot (List.mem_append_left _ member)) trivial finished).2
    dsimp only
    rw [inOrder_cons here calm, worked]

end InOrder

/-! ## On a pool of threads -/

/-- A pool executes tasks of one action in sequence, whatever its threads and the concurrency. -/
theorem inSequence_runOnPool (pool : Pool) {concurrency : Nat} (some : 0 < concurrency)
    (cancelled : σ → Bool) : (runOnPool pool concurrency cancelled).InSequence cancelled := by
  intro works s
  have prompt : ∀ task ∈ singles works, task.Prompt := by
    simp only [singles, List.mem_map]
    rintro _ ⟨work, -, rfl⟩ action member seen s
    rw [List.mem_singleton.mp member]
    rfl
  rw [Batch.runOnPool_prompt some prompt, singles, List.length_map]

end BulkSync
