import BulkSync.Proofs.Task.Lives

/-! # What is known of a batch after any run

The log of a run tells the lives of the tasks, and slots, workers, signal and record agree with it
(`Consistent`). A step of a worker brings the task that it holds to the next stage and leaves the others alone
(`Consistent.step`), so that this is known after any run (`Run.consistent`). -/

namespace BulkSync.Batch

variable {σ : Type} {cancelled : σ → Bool}
variable {b : Batch σ} {tasks : List (Task σ)} {log : List Entry} {stages : Nat → Stage σ}

/-- The task that a worker holds, and its stage. -/
def held (b : Batch σ) (worker : Nat) : Option (Nat × Stage σ) := load (b.place worker)

theorem place_move {worker : Nat} (live : b.place worker ≠ .retired) (there : Worker σ) :
    (b.move worker there).place = Function.update b.place worker there := by
  have inside : worker < b.workers.size := by
    by_contra outside
    exact live (by simp [place, Array.getD, outside])
  funext other
  simp only [place, move, Array.getD_eq_getD_getElem?, Array.getElem?_setIfInBounds, Function.update_apply]
  by_cases here : worker = other
  · simp [← here, inside]
  · simp [here, Ne.symm here]

theorem held_move {worker : Nat} (live : b.place worker ≠ .retired) (there : Worker σ) :
    (b.move worker there).held = Function.update b.held worker (load there) := by
  change load ∘ (b.move worker there).place = _
  rw [place_move live, Function.comp_update]
  rfl

def Entry.signalled? : Entry → Option TaskError
  | .signalled error => some error
  | .begun _ | .acted .. | .ended _ | .failed .. | .recorded _ => none

def Entry.recorded? : Entry → Option TaskError
  | .recorded error => some error
  | .begun _ | .acted .. | .ended _ | .failed .. | .signalled _ => none

/-- The log tells the lives of the tasks up to the stages that they are at, the slots and the workers agree with
these stages, and the signal and the record with the log. -/
structure Consistent (tasks : List (Task σ)) (log : List Entry) (stages : Nat → Stage σ) (b : Batch σ) : Prop where
  lives : ∀ index (inside : index < tasks.length), Life index tasks[index] (logOf index log) (stages index)
  known : ∀ entry ∈ log, entry.task < tasks.length
  size : b.slots.size = tasks.length
  slots : ∀ index (inside : index < tasks.length), b.slots.getD index none = (stages index).slot tasks[index]
  crew : Crew tasks.length b.next stages b.held
  failed : b.failed = (log.findSome? Entry.signalled?).isSome
  record : b.firstError = log.findSome? Entry.recorded?

theorem consistent_start (concurrency : Nat) (tasks : List (Task σ)) (s : σ) :
    Consistent tasks [] (fun _ => .untouched) (start concurrency tasks s) where
  lives _ _ := rfl
  known := List.forall_mem_nil _
  size := by simp [start]
  slots index inside := by simp [start, Stage.slot, Array.getD_eq_getD_getElem?, inside]
  crew := by
    have none : ∀ worker, (start concurrency tasks s).held worker = none := by
      intro worker
      simp only [held, place, start, Array.getD_eq_getD_getElem?, Array.getElem?_replicate]
      split <;> rfl
    exact ⟨fun worker _ _ found => by simp [none] at found, fun worker _ _ _ _ found => by simp [none] at found,
      fun _ _ claimed => absurd claimed (Nat.not_lt_zero _), fun _ _ => rfl⟩
  failed := rfl
  record := rfl

namespace Consistent

variable {worker index : Nat}

/-- The slot of a task that is claimed and not yet taken is full. -/
theorem slot_of_taking (consistent : Consistent tasks log stages b) (placed : b.place worker = .taking index) :
    ∃ inside : index < tasks.length, b.slots.getD index none = some tasks[index] := by
  obtain ⟨-, inside, same⟩ := consistent.crew.held worker index _ (congrArg load placed)
  have full := consistent.slots index inside
  rw [same] at full
  exact ⟨inside, full⟩

/-- The slot of a task that is past its first stage is empty. -/
theorem emptied (consistent : Consistent tasks log stages b) {stage : Stage σ}
    (found : b.held worker = some (index, stage)) (touched : ∀ task, stage.slot task = none) :
    b.slots.setIfInBounds index none = b.slots := by
  obtain ⟨-, inside, same⟩ := consistent.crew.held worker index stage found
  have empty := consistent.slots index inside
  rw [same, touched] at empty
  apply Array.ext
  · simp
  · intro number _ bound
    rw [Array.getElem_setIfInBounds]
    split
    · next here =>
      subst here
      simpa [Array.getD, bound] using empty.symm
    · rfl

theorem action_mem (consistent : Consistent tasks log stages b) {action : Action σ} {rest : Task σ}
    (placed : b.place worker = .running index (action :: rest)) :
    ∃ inside : index < tasks.length, action ∈ tasks[index] := by
  obtain ⟨-, inside, same⟩ := consistent.crew.held worker index _ (congrArg load placed)
  obtain ⟨before, -, todo, -⟩ := same ▸ consistent.lives index inside
  exact ⟨inside, List.mem_of_mem_drop (todo ▸ List.mem_cons_self ..)⟩

/-- A worker brings its task to the next stage, which shows in the log. -/
theorem advance (consistent : Consistent tasks log stages b) {stage stage' : Stage σ}
    {there : Worker σ} {shown : Entry} {next : Batch σ} (found : b.held worker = some (index, stage))
    (about : shown.task = index)
    (life : ∀ (inside : index < tasks.length) {own}, Life index tasks[index] own stage →
      Life index tasks[index] (own ++ [shown]) stage')
    (going : load there = some (index, stage') ∨ load there = none ∧ stage'.Over)
    (moved : next.workers = (b.move worker there).workers)
    (claimed : next.next = b.next) (slots : next.slots = b.slots.setIfInBounds index none)
    (touched : ∀ task, stage'.slot task = none)
    (failed : next.failed = (b.failed || shown.signalled?.isSome))
    (record : next.firstError = b.firstError.or shown.recorded?) :
    Consistent tasks (log ++ [shown]) (Function.update stages index stage') next := by
  obtain ⟨-, inside, same⟩ := consistent.crew.held worker index stage found
  have live : b.place worker ≠ .retired := by
    intro out
    rw [held, out] at found
    cases found
  have place : next.place = Function.update b.place worker there := by
    rw [← place_move live]
    exact funext fun other => congrArg (·.getD other .retired) moved
  have held : next.held = Function.update b.held worker (load there) := by
    change load ∘ next.place = _
    rw [place, Function.comp_update]
    rfl
  subst about
  refine { lives := fun number numberInside => ?lives, known := fun entry member => ?known, size := ?size,
           slots := fun number numberInside => ?slots, crew := ?crew, failed := ?failed, record := ?record }
  case lives =>
    by_cases here : number = shown.task
    · subst here
      rw [logOf_concat, Function.update_self]
      exact life numberInside (same ▸ consistent.lives shown.task numberInside)
    · rw [logOf_concat_of_ne here, Function.update_of_ne here]
      exact consistent.lives number numberInside
  case known =>
    rcases List.mem_append.mp member with before | last
    · exact consistent.known entry before
    · rw [List.mem_singleton.mp last]
      exact inside
  case size =>
    rw [slots, Array.size_setIfInBounds]
    exact consistent.size
  case slots =>
    rw [slots, Array.getD_eq_getD_getElem?, Array.getElem?_setIfInBounds]
    by_cases here : shown.task = number
    · subst here
      simp [Function.update_self, touched, consistent.size, inside]
    · rw [if_neg here, Function.update_of_ne (Ne.symm here), ← Array.getD_eq_getD_getElem?]
      exact consistent.slots number numberInside
  case crew =>
    rw [claimed, held]
    exact consistent.crew.advance found going
  case failed =>
    rw [failed, consistent.failed, List.findSome?_append, Option.isSome_or]
    cases shown <;> rfl
  case record =>
    rw [record, consistent.record, List.findSome?_append]
    cases shown <;> rfl

theorem idle (consistent : Consistent tasks log stages b) (live : b.place worker ≠ .retired)
    (free : b.held worker = none) {there : Worker σ} (freeToo : load there = none) :
    Consistent tasks log stages (b.move worker there) := by
  have held : (b.move worker there).held = b.held := by
    rw [held_move live, freeToo, ← free, Function.update_eq_self]
  exact { consistent with crew := held ▸ consistent.crew }

theorem claim (consistent : Consistent tasks log stages b) (placed : b.place worker = .claiming)
    (left : b.next < tasks.length) : Consistent tasks log stages
      ({ b with next := b.next + 1 }.move worker (.taking b.next)) := by
  have live : { b with next := b.next + 1 }.place worker ≠ .retired := by
    change b.place worker ≠ .retired
    rw [placed]
    exact nofun
  exact { consistent with crew := held_move live _ ▸ consistent.crew.claim (congrArg load placed) left }

/-- A number that is claimed beyond the tasks is no one's. -/
theorem overshoot (consistent : Consistent tasks log stages b) (gone : tasks.length ≤ b.next) :
    Consistent tasks log stages { b with next := b.next + 1 } :=
  { consistent with crew := consistent.crew.overshoot gone }

/-- One step of a worker keeps all this, with one task at its next stage or none. -/
theorem step (consistent : Consistent tasks log stages b) {shown : Option Entry} {next : Batch σ}
    (stepped : Step cancelled b worker shown next) :
    ∃ stages', Consistent tasks (log ++ shown.toList) stages' next := by
  have live : ∀ {there}, b.place worker = there → there ≠ .retired → b.place worker ≠ .retired :=
    fun placed stays => placed ▸ stays
  have found : ∀ {there}, b.place worker = there → b.held worker = load there := congrArg load
  cases stepped with
  | look placed =>
    refine ⟨stages, ?_⟩
    rw [Option.toList_none, List.append_nil]
    exact consistent.idle (live placed nofun) (found placed) (by split <;> rfl)
  | claim placed left =>
    refine ⟨stages, ?_⟩
    rw [Option.toList_none, List.append_nil]
    exact consistent.claim placed (consistent.size ▸ left)
  | leave placed gone =>
    refine ⟨stages, ?_⟩
    rw [Option.toList_none, List.append_nil]
    exact (consistent.overshoot (consistent.size ▸ gone)).idle (live placed nofun) (found placed) rfl
  | @take index task placed slot =>
    obtain ⟨inside, full⟩ := consistent.slot_of_taking placed
    have here : tasks[index] = task := Option.some.inj (full.symm.trans slot)
    exact ⟨_, consistent.advance (found placed) rfl (fun _ _ life => here ▸ life.begun) (.inl rfl) rfl rfl
      rfl (fun _ => rfl) (Bool.or_false _).symm (Option.or_none).symm⟩
  | @miss index placed slot =>
    obtain ⟨inside, full⟩ := consistent.slot_of_taking placed
    cases slot.symm.trans full
  | finish placed =>
    exact ⟨_, consistent.advance (found placed) rfl (fun _ _ => Life.finished) (.inr ⟨rfl, trivial⟩) rfl rfl
      (consistent.emptied (found placed) fun _ => rfl).symm (fun _ => rfl) (Bool.or_false _).symm
      (Option.or_none).symm⟩
  | act placed ready ran =>
    exact ⟨_, consistent.advance (found placed) rfl (fun _ _ => Life.acted _) (.inl rfl) rfl rfl
      (consistent.emptied (found placed) fun _ => rfl).symm (fun _ => rfl) (Bool.or_false _).symm
      (Option.or_none).symm⟩
  | fail placed ready ran =>
    exact ⟨_, consistent.advance (found placed) rfl (fun _ _ => Life.failed _ _) (.inl rfl) rfl rfl
      (consistent.emptied (found placed) fun _ => rfl).symm (fun _ => rfl) (Bool.or_false _).symm
      (Option.or_none).symm⟩
  | signal placed =>
    exact ⟨_, consistent.advance (found placed) rfl (fun _ _ => Life.signalled) (.inl rfl) rfl rfl
      (consistent.emptied (found placed) fun _ => rfl).symm (fun _ => rfl) (Bool.or_true _).symm
      (Option.or_none).symm⟩
  | record placed =>
    exact ⟨_, consistent.advance (found placed) rfl (fun _ _ => Life.recorded) (.inr ⟨rfl, trivial⟩) rfl rfl
      (consistent.emptied (found placed) fun _ => rfl).symm (fun _ => rfl) (Bool.or_false _).symm rfl⟩

end Consistent

/-- After any run of a batch the lives of its tasks are known. -/
theorem Run.consistent {tasks : List (Task σ)} {concurrency : Nat} {s : σ} {schedule : List Nat} {log : List Entry}
    {b : Batch σ} (run : Run cancelled (Batch.start concurrency tasks s) schedule log b) :
    ∃ stages, Consistent tasks log stages b := by
  induction run with
  | start => exact ⟨_, consistent_start concurrency tasks s⟩
  | step run stepped inductionHypothesis =>
    obtain ⟨stages, consistent⟩ := inductionHypothesis
    exact consistent.step (step_eq_some stepped)
  | outside run kept inductionHypothesis =>
    obtain ⟨stages, consistent⟩ := inductionHypothesis
    exact ⟨stages, { consistent with crew := consistent.crew }⟩

end BulkSync.Batch
