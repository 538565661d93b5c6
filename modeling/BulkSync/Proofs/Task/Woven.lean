import BulkSync.Proofs.Task.Outcome
import BulkSync.Proofs.Task.Turns

/-! # Tasks whose actions are interleaved

Tasks are woven if their actions are carried out one by one, each the next one of some task, and in any order
(`Woven`). What one action keeps holds of tasks that are woven to their ends (`Interwoven`). A batch of workers that
finishes has woven its tasks, whatever the schedule (`Batch.interwoven`), and so has one that executes them one
after the other (`interwoven_inOrder`). -/

namespace BulkSync

variable {σ : Type} {cancelled : σ → Bool} {tasks : List (Task σ)} {s t : σ}

/-- So many actions of each task have been carried out, one by one and on what the one before has left. None
of them has failed, and the stop flag was down in front of each. -/
inductive Woven (cancelled : σ → Bool) (tasks : List (Task σ)) (s : σ) : (Nat → Nat) → σ → Prop
  | start : Woven cancelled tasks s (fun _ => 0) s
  | act {done : Nat → Nat} {t u : σ} {slot : Nat} (woven : Woven cancelled tasks s done t)
      (down : cancelled t = false) (inside : slot < tasks.length) (left : done slot < tasks[slot].length)
      (ran : tasks[slot][done slot].run .calm t = (none, u)) :
      Woven cancelled tasks s (Function.update done slot (done slot + 1)) u

/-- All actions of the tasks have been carried out in some order, and the stop flag is down. -/
def Interwoven (cancelled : σ → Bool) (tasks : List (Task σ)) (s t : σ) : Prop :=
  ∃ done, Woven cancelled tasks s done t ∧
    (∀ slot (inside : slot < tasks.length), done slot = tasks[slot].length) ∧ cancelled t = false

/-! ## One task after the other -/

theorem Task.runAlone_raised {task : Task σ} (raised : ∀ action ∈ task, action.KeepsRaised cancelled)
    (up : cancelled s = true) : cancelled (task.runAlone cancelled s).2 = true := by
  induction task generalizing s with
  | nil => exact up
  | cons action rest inductionHypothesis =>
    have kept := raised action (List.mem_cons_self ..) ⟨false, false, cancelled s⟩ s up
    rw [runAlone]
    split
    · next t ran =>
      rw [ran] at kept
      exact inductionHypothesis (fun other member => raised other (List.mem_cons_of_mem _ member)) kept
    · next cause t ran =>
      rw [ran] at kept
      exact kept

/-- A task that is run alone carries out the actions that it has left. -/
theorem Woven.alone {done : Nat → Nat} {u : σ} {slot : Nat} (inside : slot < tasks.length)
    (raised : ∀ action ∈ tasks[slot], action.KeepsRaised cancelled) (woven : Woven cancelled tasks s done t)
    (within : done slot ≤ tasks[slot].length)
    (ran : Task.runAlone cancelled (tasks[slot].drop (done slot)) t = (none, u)) (down : cancelled u = false) :
    Woven cancelled tasks s (Function.update done slot tasks[slot].length) u := by
  generalize rest : tasks[slot].drop (done slot) = todo at ran
  induction todo generalizing done t with
  | nil =>
    cases ran
    rw [← Nat.le_antisymm within (List.drop_eq_nil_iff.mp rest), Function.update_eq_self]
    exact woven
  | cons action todo inductionHypothesis =>
    have keeps : ∀ other ∈ action :: todo, other.KeepsRaised cancelled := fun other member =>
      raised other (List.mem_of_mem_drop (rest ▸ member))
    have left : done slot < tasks[slot].length := by
      by_contra gone
      rw [List.drop_eq_nil_of_le (Nat.not_lt.mp gone)] at rest
      cases rest
    have calm : cancelled t = false := by
      cases up : cancelled t with
      | false => rfl
      | true =>
        have kept := Task.runAlone_raised keeps up
        rw [ran, down] at kept
        cases kept
    rw [List.drop_eq_getElem_cons left] at rest
    obtain ⟨rfl, rest⟩ := List.cons.inj rest
    rw [Task.runAlone, calm] at ran
    split at ran
    · next v acted =>
      have onward := inductionHypothesis (woven.act calm inside left acted)
        (by rwa [Function.update_self, Nat.succ_le_iff]) (by rwa [Function.update_self]) ran
      rwa [Function.update_idem] at onward
    · cases ran

/-- Tasks that are executed one after the other, up to the end, are woven. -/
theorem interwoven_inOrder (raised : ∀ task ∈ tasks, ∀ action ∈ task, action.KeepsRaised cancelled)
    {order : List Nat} (all : order.Perm (List.range tasks.length))
    (ran : inOrder cancelled order tasks s = (.ok .finished, t)) : Interwoven cancelled tasks s t := by
  rw [inOrder] at ran
  -- an induction over the tasks that are still to do
  suffices onward : ∀ earlier todo u, order = earlier ++ todo →
      Woven cancelled tasks s (fun slot => if slot ∈ earlier then (tasks.getD slot []).length else 0) u →
      runInOrder cancelled (todo.map fun index => (index, tasks.getD index [])) u = (.ok .finished, t) →
      Interwoven cancelled tasks s t from
    onward [] order s rfl (by simpa using Woven.start) ran
  intro earlier todo
  induction todo generalizing earlier with
  | nil =>
    intro u split woven ended
    obtain ⟨finished, rfl⟩ := Prod.mk.inj ended
    refine ⟨_, woven, fun slot inside => ?_, ?_⟩
    · have member : slot ∈ earlier := by
        rw [List.append_nil] at split
        exact split ▸ all.mem_iff.mpr (List.mem_range.mpr inside)
      simp [member, inside]
    · cases down : cancelled u with
      | false => rfl
      | true => simp [completion, down] at finished
  | cons slot todo inductionHypothesis =>
    intro u split woven ended
    have inside : slot < tasks.length := List.mem_range.mp (all.mem_iff.mp (split ▸ by simp))
    have fresh : slot ∉ earlier := by
      have distinct := all.nodup_iff.mpr List.nodup_range
      rw [split, List.nodup_append] at distinct
      exact fun member => distinct.2.2 slot member slot (List.mem_cons_self ..) rfl
    have task : tasks.getD slot [] = tasks[slot] := by simp [inside]
    rw [List.map_cons, runInOrder, task] at ended
    split at ended
    · cases ended
    · split at ended
      · next v alone =>
        have down : cancelled v = false := by
          cases up : cancelled v with
          | false => rfl
          | true =>
            have raisedNow : runInOrder cancelled (todo.map fun index => (index, tasks.getD index [])) v =
                (.ok .cancelled, v) := inOrder_raised up
            rw [ended] at raisedNow
            cases raisedNow
        have next := woven.alone inside (raised _ (List.getElem_mem inside)) (by simp [fresh])
          (by simpa [fresh] using alone) down
        refine inductionHypothesis (earlier ++ [slot]) v (by simpa using split) ?_ ended
        convert next using 1
        funext other
        by_cases here : other = slot
        · subst here
          simp [inside]
        · simp [here]
      · cases ended

/-! ## Batches under any schedule -/

namespace Batch

/-- Whether an action of a task has succeeded in an entry. -/
def Entry.isAct (task : Nat) : Entry → Bool
  | .acted number _ => number = task
  | .begun _ | .ended _ | .failed .. | .signalled _ | .recorded _ => false

/-- How many actions of a task have succeeded. -/
def actsOf (log : List Entry) (task : Nat) : Nat := log.countP (Entry.isAct task)

theorem actsOf_concat (log : List Entry) (entry : Entry) (idle : ∀ task, entry.isAct task = false) :
    actsOf (log ++ [entry]) = actsOf log := by
  funext task
  simp [actsOf, idle]

theorem actsOf_concat_acted (log : List Entry) (task : Nat) (seen : Signals) :
    actsOf (log ++ [.acted task seen]) = Function.update (actsOf log) task (actsOf log task + 1) := by
  funext other
  by_cases here : other = task
  · subst here
    simp [actsOf, Entry.isAct]
  · simp [actsOf, Entry.isAct, here, Ne.symm here]

theorem actsOf_logOf (log : List Entry) (task : Nat) : actsOf (logOf task log) task = actsOf log task := by
  rw [actsOf, logOf, List.countP_filter]
  refine congrArg (List.countP · log) (funext fun entry => ?_)
  cases entry <;> simp +contextual [Entry.isAct, Entry.task]

theorem actsOf_begins (number : Nat) (seen : List Signals) : actsOf (begins number seen) number = seen.length := by
  simp [actsOf, begins, Entry.isAct, List.countP_map, Function.comp_def]

variable {b next last : Batch σ} {concurrency : Nat} {before schedule : List Nat} {log further : List Entry}
  {stages : Nat → Stage σ} {worker : Nat}

/-- What a worker does next is the action behind those that have succeeded. -/
theorem Consistent.next_action (consistent : Consistent tasks log stages b) {index : Nat} {action : Action σ}
    {rest : Task σ} (placed : b.place worker = .running index (action :: rest)) :
    ∃ (inside : index < tasks.length) (left : actsOf log index < tasks[index].length),
      tasks[index][actsOf log index] = action := by
  obtain ⟨-, inside, same⟩ := consistent.crew.held worker index _ (congrArg load placed)
  obtain ⟨seen, -, todo, own⟩ := same ▸ consistent.lives index inside
  have count : actsOf log index = seen.length := by rw [← actsOf_logOf, own, actsOf_begins]
  have left := (Life.drop_eq_cons todo).1
  refine ⟨inside, count ▸ left, ?_⟩
  rw [List.drop_eq_getElem_cons left] at todo
  simp only [count]
  exact (List.cons.inj todo).1.symm

/-- As long as nothing fails and the flag is down, a worker sees signals that let it go on. -/
theorem Consistent.signals_calm (consistent : Consistent tasks log stages b)
    (smooth : ∀ error seen, .failed error seen ∉ log) (down : cancelled b.shared = false) :
    b.signals cancelled = .calm := by
  have failed : b.failed = false := by
    rw [consistent.failed, Option.isSome_eq_false_iff, Option.isNone_iff_eq_none, List.findSome?_eq_none_iff]
    intro entry member
    cases entry with
    | signalled error =>
      obtain ⟨seen, failure⟩ := consistent.failed_of_entry (.inl member)
      exact absurd failure (smooth error seen)
    | _ => rfl
  have none : b.firstError = none := by
    cases recorded : b.firstError with
    | none => rfl
    | some error =>
      obtain ⟨seen, failure⟩ := consistent.failed_of_entry (.inr (consistent.recorded_mem recorded))
      exact absurd failure (smooth error seen)
  rw [signals, failed, none, down]
  rfl

/-- A step of a worker carries out one more action, or none. -/
theorem Step.woven {shown : Option Entry} (stepped : Step cancelled b worker shown next)
    (consistent : Consistent tasks log stages b) (woven : Woven cancelled tasks s (actsOf log) b.shared)
    (smooth : ∀ error seen, .failed error seen ∉ log ++ shown.toList) (down : cancelled b.shared = false) :
    Woven cancelled tasks s (actsOf (log ++ shown.toList)) next.shared := by
  cases stepped with
  | act placed ready ran =>
    obtain ⟨inside, left, isNext⟩ := consistent.next_action placed
    have calm := consistent.signals_calm (fun error seen member =>
      smooth error seen (List.mem_append_left _ member)) down
    rw [calm] at ran
    rw [Option.toList_some, actsOf_concat_acted]
    exact woven.act down inside left (isNext ▸ ran)
  | fail placed ready ran => exact absurd (List.mem_append_right _ (List.mem_singleton_self _)) (smooth _ _)
  | look | claim | leave | miss =>
    rw [Option.toList_none, List.append_nil]
    exact woven
  | take | finish | signal | record =>
    rw [Option.toList_some, actsOf_concat _ _ fun _ => rfl]
    exact woven

/-- The steps of a schedule carry out actions one by one. -/
theorem Run.woven (run : Run cancelled (Batch.start concurrency tasks s) before log b)
    (woven : Woven cancelled tasks s (actsOf log) b.shared)
    (followed : b.follow cancelled schedule = some (further, last))
    (smooth : ∀ error seen, .failed error seen ∉ log ++ further)
    (never : NeverRaised cancelled (Batch.start concurrency tasks s) last) :
    Woven cancelled tasks s (actsOf (log ++ further)) last.shared := by
  induction schedule generalizing b before log further with
  | nil =>
    cases followed
    rwa [List.append_nil]
  | cons worker schedule inductionHypothesis =>
    have down := never _ _ _ _ _ run (run_of_follow followed)
    rw [follow] at followed
    obtain ⟨next, stepped, followed⟩ := Option.bind_eq_some_iff.mp followed
    obtain ⟨⟨entries, final⟩, followed, done⟩ := Option.bind_eq_some_iff.mp followed
    cases done
    rw [← List.append_assoc] at smooth ⊢
    obtain ⟨stages, consistent⟩ := run.consistent
    have onward := (step_eq_some stepped).woven consistent woven
      (fun error seen member => smooth error seen (List.mem_append_left _ member)) down
    exact inductionHypothesis (run.step stepped) onward followed smooth

/-- A batch that finishes has woven its tasks, whatever the schedule. -/
theorem interwoven (c : Concurrency) (raised : ∀ task ∈ tasks, ∀ action ∈ task, action.KeepsRaised cancelled)
    (followed : (start c.workers tasks s).follow cancelled schedule = some (log, last)) (through : last.Over)
    (finished : last.result cancelled = .ok .finished) : Interwoven cancelled tasks s last.shared := by
  have run := run_of_follow followed
  have outcome := run.outcome raised c.positive through
  obtain ⟨executed, never⟩ := outcome.finished.mp finished
  have smooth : ∀ error seen, .failed error seen ∉ log := fun error seen failure => by
    obtain ⟨other, failed⟩ := outcome.failed.mpr ⟨error, seen, failure⟩
    cases finished.symm.trans failed
  refine ⟨actsOf log, ?_, fun slot inside => ?_, never _ _ _ _ _ run .start⟩
  · exact Run.start.woven .start followed smooth never
  · obtain ⟨seen, all, own⟩ := executed slot inside
    rw [← actsOf_logOf, own, actsOf_concat _ _ fun _ => rfl, actsOf_begins, all]

/-! ## Batches that are driven in any way -/

/-- As long as some worker can act, one of those that can is chosen. -/
theorem driveBy_cases (cancelled : σ → Bool) (choose : Nat → Nat) (fuel : Nat) (b : Batch σ) :
    ((∀ worker, b.step cancelled worker = none) ∧ b.driveBy cancelled choose (fuel + 1) = b) ∨
      ∃ worker next, b.step cancelled worker = some next ∧
        b.driveBy cancelled choose (fuel + 1) = next.driveBy cancelled choose fuel := by
  rw [driveBy]
  generalize same : (List.range b.workers.size).filter (b.canStep cancelled) = able
  have able_of_step : ∀ {worker next}, b.step cancelled worker = some next → worker ∈ able := by
    intro worker next stepped
    have can : b.canStep cancelled worker = true := by rw [← isSome_step, stepped, Option.isSome_some]
    have inside : worker < b.workers.size := by
      by_contra outside
      simp [canStep, Array.getD, outside] at can
    rw [← same]
    exact List.mem_filter.mpr ⟨List.mem_range.mpr inside, can⟩
  cases stepped : b.step cancelled (able.getD (choose fuel % able.length) b.workers.size) with
  | some next => exact .inr ⟨_, next, stepped, rfl⟩
  | none =>
    refine .inl ⟨fun worker => ?_, rfl⟩
    cases others : b.step cancelled worker with
    | none => rfl
    | some next =>
      -- the one that was chosen could act as well
      have index : choose fuel % able.length < able.length :=
        Nat.mod_lt _ (List.length_pos_of_mem (able_of_step others))
      have member : able.getD (choose fuel % able.length) b.workers.size ∈ able := by
        simp [List.getD_eq_getElem?_getD, index]
      rw [← same] at member
      have can := (List.mem_filter.mp member).2
      rw [← isSome_step, same, stepped] at can
      cases can

/-- The steps that are chosen follow a schedule. -/
theorem exists_follow (cancelled : σ → Bool) (choose : Nat → Nat) (fuel : Nat) (b : Batch σ) :
    ∃ schedule log, b.follow cancelled schedule = some (log, b.driveBy cancelled choose fuel) := by
  induction fuel generalizing b with
  | zero => exact ⟨[], [], rfl⟩
  | succ fuel inductionHypothesis =>
    rcases b.driveBy_cases cancelled choose fuel with ⟨-, stuck⟩ | ⟨worker, next, stepped, onward⟩
    · exact ⟨[], [], congrArg (fun b => some ([], b)) stuck.symm⟩
    · obtain ⟨schedule, log, followed⟩ := inductionHypothesis next
      refine ⟨worker :: schedule, (b.entry cancelled worker).toList ++ log, ?_⟩
      rw [follow, stepped, Option.bind_eq_bind, Option.bind_some, followed, onward]
      rfl

/-- A batch in which no worker can act is over, unless a task has to wait. -/
theorem Consistent.over_of_stuck (consistent : Consistent tasks log stages b)
    (prompt : ∀ task ∈ tasks, task.Prompt) (stuck : ∀ worker, b.step cancelled worker = none) : b.Over := by
  intro worker
  rcases b.place_retired_or cancelled worker with
    retired | ⟨index, action, rest, placed, waits⟩ | ⟨next, stepped⟩
  · exact retired
  · obtain ⟨inside, member⟩ := consistent.action_mem placed
    simp [prompt _ (List.getElem_mem inside) action member] at waits
  · rw [stuck worker] at stepped
    cases stepped

/-- With steps enough all workers come to the end of their loops. -/
theorem Consistent.over_driveBy (consistent : Consistent tasks log stages b) (prompt : ∀ task ∈ tasks, task.Prompt)
    (choose : Nat → Nat) {fuel : Nat} (enough : b.steps ≤ fuel) : (b.driveBy cancelled choose fuel).Over := by
  induction fuel generalizing b log stages with
  | zero =>
    have stuck : ∀ worker, b.step cancelled worker = none := consistent.stuck_of_steps (Nat.le_zero.mp enough)
    exact consistent.over_of_stuck prompt stuck
  | succ fuel inductionHypothesis =>
    rcases b.driveBy_cases cancelled choose fuel with ⟨stuck, same⟩ | ⟨worker, next, stepped, onward⟩
    · rw [same]
      exact consistent.over_of_stuck prompt stuck
    · obtain ⟨stages', after⟩ := consistent.step (step_eq_some stepped)
      have fewer := consistent.steps_lt (step_eq_some stepped)
      rw [onward]
      exact inductionHypothesis after (by omega)

/-- So tasks that never wait are woven if their batch finishes, whichever workers were chosen to act. -/
theorem interwoven_driveBy (c : Concurrency) (choose : Nat → Nat) (prompt : ∀ task ∈ tasks, task.Prompt)
    (raised : ∀ task ∈ tasks, ∀ action ∈ task, action.KeepsRaised cancelled)
    (driven : (start c.workers tasks s).driveBy cancelled choose (enoughSteps c.workers tasks) = last)
    (finished : last.result cancelled = .ok .finished) : Interwoven cancelled tasks s last.shared := by
  obtain ⟨schedule, log, followed⟩ := (start c.workers tasks s).exists_follow cancelled choose _
  rw [driven] at followed
  have through : last.Over := driven ▸
    (consistent_start c.workers tasks s).over_driveBy prompt choose (steps_start c.workers tasks s)
  exact interwoven c raised followed through finished

end Batch
end BulkSync
