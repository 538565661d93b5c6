import BulkSync.Proofs.Task.Progress
import BulkSync.Proofs.Task.Sequence

/-! # Batches on a pool on which one worker does it all

On a single thread the first worker that is not out of the loop acts until it leaves it, and only then the next
one does; on any pool it goes like this if the tasks never wait. Each worker behind the one in front is still
about to look at the signals (`Queued`).

At any moment it is settled what the rest of the run will show (`Outlook`): a step of the front worker shows the
first of it (`Step.outlook`), so that the pool shows all of it (`Outlook.drive`). Before the first step the outlook is
that the tasks are executed in turn, whatever the number of workers. -/

namespace BulkSync.Batch

variable {σ : Type} {cancelled : σ → Bool} {b next : Batch σ} {worker : Nat}

/-! ## The worker in front -/

def front (b : Batch σ) : Option Nat := (List.range b.workers.size).find? b.isLive

theorem front_eq_some_iff : b.front = some worker ↔
    b.place worker ≠ .retired ∧ ∀ other < worker, b.place other = .retired := by
  have live : ∀ {other}, b.isLive other = true ↔ b.place other ≠ .retired := by
    intro other
    rw [← Bool.not_eq_false, Ne, isLive_eq_false_iff]
  simp only [front, List.find?_range_eq_some, Bool.not_eq_true', isLive_eq_false_iff, live, List.mem_range]
  refine and_congr_right fun here => and_iff_right ?_
  by_contra outside
  exact here (by simp [place, Array.getD, outside])

theorem front_eq_none_iff : b.front = none ↔ b.Over := by
  simp only [front, List.find?_range_eq_none, Bool.not_eq_true', over_iff]

/-- The place of the worker in front; out of the loop if all are. -/
def ahead (b : Batch σ) : Worker σ := b.front.elim .retired b.place

/-- Every worker behind one that is not out of the loop is about to look at the signals. -/
def Queued (b : Batch σ) : Prop :=
  ∀ worker other, b.place worker ≠ .retired → worker < other → other < b.workers.size → b.place other = .looking

theorem ahead_move (front : b.front = some worker) {there : Worker σ} (stays : there ≠ .retired) :
    (b.move worker there).ahead = there := by
  obtain ⟨live, before⟩ := front_eq_some_iff.mp front
  have placed := place_move live there
  have same : (b.move worker there).front = some worker := by
    refine front_eq_some_iff.mpr ⟨?_, fun other earlier => ?_⟩
    · rwa [placed, Function.update_self]
    · rw [placed, Function.update_of_ne (Nat.ne_of_lt earlier)]
      exact before other earlier
  rw [ahead, same, Option.elim_some, placed, Function.update_self]

namespace Queued

theorem move (queued : b.Queued) (front : b.front = some worker) (there : Worker σ) :
    (b.move worker there).Queued := by
  obtain ⟨live, before⟩ := front_eq_some_iff.mp front
  intro one other here behind inside
  have size : (b.move worker there).workers.size = b.workers.size := Array.size_setIfInBounds
  rw [size] at inside
  rw [place_move live] at here ⊢
  have notBefore : worker ≤ one := by
    by_contra earlier
    rw [Function.update_of_ne (Nat.ne_of_lt (Nat.not_le.mp earlier))] at here
    exact here (before one (Nat.not_le.mp earlier))
  rw [Function.update_of_ne (by omega)]
  exact queued worker other live (by omega) inside

/-- Once the worker in front is out of the loop the next one looks at the signals, if there is another. -/
theorem ahead_leave (queued : b.Queued) (front : b.front = some worker) :
    (b.move worker .retired).ahead = .looking ∨ (b.move worker .retired).ahead = .retired := by
  obtain ⟨live, before⟩ := front_eq_some_iff.mp front
  cases further : (b.move worker .retired).front with
  | none => exact .inr (by rw [ahead, further, Option.elim_none])
  | some other =>
    refine .inl ?_
    rw [ahead, further, Option.elim_some]
    obtain ⟨here, -⟩ := front_eq_some_iff.mp further
    have inside : other < b.workers.size := by
      by_contra outside
      exact here (by simp [place, Batch.move, Array.getD, outside])
    rw [place_move live, Function.update_apply] at here ⊢
    split at here
    · exact absurd rfl here
    · next apart =>
      rw [if_neg apart]
      refine queued worker other live (Nat.lt_of_le_of_ne ?_ (Ne.symm apart)) inside
      by_contra earlier
      exact here (before other (Nat.not_le.mp earlier))

end Queued

theorem queued_start (concurrency : Nat) (tasks : List (Task σ)) (s : σ) : (start concurrency tasks s).Queued := by
  intro _ other _ _ inside
  simp only [start, Array.size_replicate] at inside
  simp [place, start, Array.getD_eq_getD_getElem?, inside]

/-! ## What the rest of a run will show -/

def Entry.begun? : Entry → Option Nat
  | .begun task => some task
  | .acted .. | .ended _ | .failed .. | .signalled _ | .recorded _ => none

/-- What is reported on a run, given what is reported on the rest of it after a log. -/
def logged (log : List Entry) : Report × σ → Report × σ :=
  Prod.map (fun report => { report with executed := log.filterMap Entry.begun? ++ report.executed }) id

theorem map_logged_nil (shows : Option (Report × σ)) : shows.map (logged []) = shows := by
  cases shows <;> rfl

theorem logged_append (log further : List Entry) (rest : Report × σ) :
    logged (log ++ further) rest = logged log (logged further rest) := by
  rw [logged, logged, logged, List.filterMap_append]
  simp [Prod.map]

/-- Nothing has gone wrong in a batch. -/
def Calm (b : Batch σ) : Prop := b.failed = false ∧ b.firstError = none

/-- What the rest of a run will show, by the place of the worker in front; nothing if that worker will wait forever. -/
def Outlook (cancelled : σ → Bool) (tasks : List (Task σ)) (b : Batch σ) (shows : Option (Report × σ)) :
    Worker σ → Prop
  | .looking =>
      b.Calm ∧ shows = inTurn cancelled b.next (tasks.drop b.next) b.shared ∨
        b.failed = true ∧ ∃ error, b.firstError = some error ∧ shows = some (⟨[], .error error⟩, b.shared)
  | .claiming =>
      b.Calm ∧ cancelled b.shared = false ∧ shows = inTurn cancelled b.next (tasks.drop b.next) b.shared
  | .taking index =>
      b.Calm ∧ shows = (((tasks.getD index []).alone cancelled b.shared).bind
        (settle index (inTurn cancelled b.next (tasks.drop b.next)))).map (logged [.begun index])
  | .running index rest =>
      b.Calm ∧ shows = (rest.alone cancelled b.shared).bind
        (settle index (inTurn cancelled b.next (tasks.drop b.next)))
  | .signalling index cause => b.Calm ∧ shows = some (⟨[], .error ⟨index, cause⟩⟩, b.shared)
  | .recording index cause =>
      b.failed = true ∧ b.firstError = none ∧ shows = some (⟨[], .error ⟨index, cause⟩⟩, b.shared)
  | .retired => shows = some (⟨[], b.result cancelled⟩, b.shared)

section

variable {tasks : List (Task σ)} {log : List Entry} {stages : Nat → Stage σ} {shown : Option Entry}
  {shows : Option (Report × σ)}

theorem Calm.signals (calm : b.Calm) : b.signals cancelled = ⟨false, false, cancelled b.shared⟩ := by
  rw [Batch.signals, calm.1, calm.2]
  rfl

/-- The workers are in a queue, and the rest of the run will show this. -/
structure Foreseen (cancelled : σ → Bool) (tasks : List (Task σ)) (shows : Option (Report × σ)) (b : Batch σ) :
    Prop where
  queued : b.Queued
  outlook : Outlook cancelled tasks b shows b.ahead

theorem Queued.stay (queued : b.Queued) (front : b.front = some worker) {there : Worker σ}
    (outlook : Outlook cancelled tasks b shows there) (stays : there ≠ .retired) :
    Foreseen cancelled tasks shows (b.move worker there) := by
  refine ⟨queued.move front there, ?_⟩
  rw [ahead_move front stays]
  cases there <;> exact outlook

/-- A worker in front that leaves the loop lets the next one see that nothing is left to do. -/
theorem Queued.leave (queued : b.Queued) (front : b.front = some worker)
    (looking : Outlook cancelled tasks b shows .looking) (retired : Outlook cancelled tasks b shows .retired) :
    Foreseen cancelled tasks shows (b.move worker .retired) := by
  refine ⟨queued.move front .retired, ?_⟩
  rcases queued.ahead_leave front with there | there <;> rw [there]
  · exact looking
  · exact retired

/-- A step of the worker in front shows the first of what was to be shown, and leaves the rest. -/
theorem Step.foreseen (stepped : Step cancelled b worker shown next) (consistent : Consistent tasks log stages b)
    (front : b.front = some worker) (foreseen : Foreseen cancelled tasks shows b) :
    ∃ rest, shows = rest.map (logged shown.toList) ∧ Foreseen cancelled tasks rest next := by
  obtain ⟨queued, outlook⟩ := foreseen
  rw [ahead, front, Option.elim_some] at outlook
  have silent : ∀ {rest : Option (Report × σ)}, rest = rest.map (logged []) := (map_logged_nil _).symm
  cases stepped with
  | look placed =>
    rw [placed] at outlook
    refine ⟨shows, silent, ?_⟩
    split
    · next stop =>
      -- those behind will see the same, so that the result is known
      refine queued.leave front outlook ?_
      rcases outlook with ⟨calm, rfl⟩ | ⟨-, error, recorded, rfl⟩
      · have up : cancelled b.shared = true := by simpa [calm.signals, Signals.shouldStop] using stop
        simp [Outlook, inTurn_raised up, result, calm.2, completion, up]
      · simp [Outlook, result, recorded]
    · next go =>
      rcases outlook with ⟨calm, rfl⟩ | ⟨failed, -⟩
      · have down : cancelled b.shared = false := by simpa [calm.signals, Signals.shouldStop] using go
        exact queued.stay front ⟨calm, down, rfl⟩ (by simp)
      · simp [signals, Signals.shouldStop, failed] at go
  | claim placed left =>
    -- the flag was down when the worker looked, and no one else can have raised it
    rw [placed] at outlook
    obtain ⟨calm, down, rfl⟩ := outlook
    have inside : b.next < tasks.length := consistent.size ▸ left
    refine ⟨_, silent, Queued.stay (b := { b with next := b.next + 1 }) queued front ⟨calm, ?_⟩ (by simp)⟩
    rw [List.drop_eq_getElem_cons inside, inTurn, if_neg (by simp [down]), List.getD_eq_getElem?_getD,
      List.getElem?_eq_getElem inside]
    rfl
  | leave placed gone =>
    rw [placed] at outlook
    obtain ⟨calm, down, rfl⟩ := outlook
    have none : ∀ number, b.next ≤ number → inTurn cancelled number (tasks.drop number) b.shared =
        some (⟨[], .ok .finished⟩, b.shared) := by
      intro number beyond
      rw [List.drop_eq_nil_of_le ((consistent.size ▸ gone).trans beyond), inTurn, down]
      rfl
    rw [none _ (Nat.le_refl _)]
    refine ⟨_, silent, Queued.leave (b := { b with next := b.next + 1 }) queued front (.inl ⟨calm, ?_⟩) ?_⟩
    · exact (none _ (Nat.le_succ _)).symm
    · simp [Outlook, result, calm.2, completion, down]
  | @take index task placed slot =>
    rw [placed] at outlook
    obtain ⟨calm, rfl⟩ := outlook
    obtain ⟨inside, full⟩ := consistent.slot_of_taking placed
    have here : tasks.getD index [] = task := by
      rw [List.getD_eq_getElem?_getD, List.getElem?_eq_getElem inside]
      exact Option.some.inj (full.symm.trans slot)
    rw [here]
    exact ⟨_, rfl, Queued.stay (b := { b with slots := b.slots.setIfInBounds index none }) queued front
      ⟨calm, rfl⟩ (by simp)⟩
  | @miss index placed slot =>
    obtain ⟨inside, full⟩ := consistent.slot_of_taking placed
    cases slot.symm.trans full
  | finish placed =>
    rw [placed] at outlook
    obtain ⟨calm, rfl⟩ := outlook
    exact ⟨_, silent, queued.stay front (.inl ⟨calm, rfl⟩) (by simp)⟩
  | @act index action rest shared placed ready ran | @fail index action rest cause shared placed ready ran =>
    rw [placed] at outlook
    obtain ⟨calm, rfl⟩ := outlook
    rw [calm.signals] at ready ran
    rw [Task.alone, if_pos ready, ran]
    exact ⟨_, silent, Queued.stay (b := { b with shared := shared }) queued front ⟨calm, rfl⟩ (by simp)⟩
  | signal placed =>
    rw [placed] at outlook
    obtain ⟨calm, rfl⟩ := outlook
    exact ⟨_, silent, Queued.stay (b := { b with failed := true }) queued front ⟨rfl, calm.2, rfl⟩ (by simp)⟩
  | @record index cause placed =>
    rw [placed] at outlook
    obtain ⟨failed, none, rfl⟩ := outlook
    refine ⟨_, silent, Queued.stay (b := { b with firstError := b.firstError.or (some ⟨index, cause⟩) }) queued front
      (.inr ⟨failed, ⟨index, cause⟩, ?_, rfl⟩) (by simp)⟩
    rw [none, Option.none_or]

/-- The outlook before the first step is that the tasks are executed in turn. -/
theorem foreseen_start {concurrency : Nat} (positive : 0 < concurrency) (tasks : List (Task σ)) (s : σ) :
    Foreseen cancelled tasks (inTurn cancelled 0 tasks s) (start concurrency tasks s) := by
  refine ⟨queued_start concurrency tasks s, ?_⟩
  cases tasks with
  | nil =>
    have through : (start concurrency ([] : List (Task σ)) s).Over := by
      intro worker
      simp [place, start]
    rw [ahead, front_eq_none_iff.mpr through]
    rfl
  | cons task rest =>
    have looking : (start concurrency (task :: rest) s).place 0 = .looking := by
      simp [place, start, Array.getD_eq_getD_getElem?, positive]
    have front : (start concurrency (task :: rest) s).front = some 0 := by
      rw [front_eq_some_iff, looking]
      exact ⟨by simp, by simp⟩
    rw [ahead, front, Option.elim_some, looking]
    exact .inl ⟨⟨rfl, rfl⟩, rfl⟩

/-! ## On a pool -/

variable {threads : Nat}

theorem pick_of_front (positive : 0 < threads) (front : b.front = some worker)
    (able : b.canStep cancelled worker = true) : b.pick cancelled threads = some worker := by
  rw [Batch.front, ← List.head?_filter] at front
  obtain ⟨others, live⟩ := List.head?_eq_some_iff.mp front
  obtain ⟨more, rfl⟩ := Nat.exists_eq_succ_of_ne_zero (Nat.pos_iff_ne_zero.mp positive)
  rw [pick, live, List.take_succ_cons, List.find?_cons_of_pos able]

theorem front_of_pick_one (picked : b.pick cancelled 1 = some worker) : b.front = some worker := by
  rw [pick, List.take_one, List.head?_filter] at picked
  exact Option.mem_toList.mp (List.mem_of_find?_eq_some picked)

/-- On such a pool, with such tasks, no one but the worker in front acts. -/
def Leads (cancelled : σ → Bool) (threads : Nat) (tasks : List (Task σ)) : Prop :=
  ∀ {log : List Entry} {stages : Nat → Stage σ} {b : Batch σ}, Consistent tasks log stages b →
    ∀ {worker : Nat}, b.pick cancelled threads = some worker → b.front = some worker

theorem leads_single : Leads cancelled 1 tasks := fun _ _ => front_of_pick_one

theorem leads_prompt (positive : 0 < threads) (prompt : ∀ task ∈ tasks, task.Prompt) :
    Leads cancelled threads tasks := by
  intro log stages b consistent worker picked
  cases front : b.front with
  | none =>
    rw [Batch.front, ← List.head?_filter, List.head?_eq_none_iff] at front
    simp [pick, front] at picked
  | some first =>
    have able : b.canStep cancelled first = true := by
      rw [← isSome_step, Option.isSome_iff_exists]
      rcases b.place_retired_or cancelled first with retired | ⟨index, action, rest, placed, waits⟩ | able
      · exact absurd retired (front_eq_some_iff.mp front).1
      · obtain ⟨inside, member⟩ := consistent.action_mem placed
        simp [prompt _ (List.getElem_mem inside) action member] at waits
      · exact able
    rw [pick_of_front positive front able] at picked
    exact picked

/-- The report on a batch that is over. -/
def ended (cancelled : σ → Bool) (b : Batch σ) : Option (Report × σ) :=
  if b.Over then some (⟨[], b.result cancelled⟩, b.shared) else none

/-- What is to be shown once the worker in front cannot act. -/
theorem Foreseen.rest (foreseen : Foreseen cancelled tasks shows b)
    (stuck : ∀ worker, b.front = some worker → b.step cancelled worker = none) : shows = b.ended cancelled := by
  obtain ⟨-, outlook⟩ := foreseen
  cases front : b.front with
  | none =>
    rw [ahead, front] at outlook
    rw [ended, if_pos (front_eq_none_iff.mp front)]
    exact outlook
  | some worker =>
    obtain ⟨live, -⟩ := front_eq_some_iff.mp front
    rw [ended, if_neg fun through => live (through worker)]
    rcases b.place_retired_or cancelled worker with
      retired | ⟨index, action, rest, placed, waits⟩ | ⟨next, stepped⟩
    · exact absurd retired live
    · rw [ahead, front, Option.elim_some, placed] at outlook
      obtain ⟨calm, rfl⟩ := outlook
      rw [calm.signals] at waits
      rw [Task.alone, if_neg (by simp [waits])]
      rfl
    · rw [stuck worker front] at stepped
      cases stepped

/-- With steps enough the pool shows what was to be shown. -/
theorem Foreseen.drive (leads : Leads cancelled threads tasks) (positive : 0 < threads) (fuel : Nat)
    (consistent : Consistent tasks log stages b) (foreseen : Foreseen cancelled tasks shows b)
    (enough : b.steps ≤ fuel) : shows =
      ((b.drive cancelled threads fuel).ended cancelled).map (logged (b.driveLog cancelled threads fuel)) := by
  induction fuel generalizing b log stages shows with
  | zero =>
    rw [foreseen.rest fun worker _ => consistent.stuck_of_steps (Nat.le_zero.mp enough) worker]
    exact (map_logged_nil _).symm
  | succ fuel inductionHypothesis =>
    rw [Batch.drive, driveLog]
    cases picked : b.pick cancelled threads with
    | none =>
      rw [foreseen.rest fun worker front => ?_]
      · exact (map_logged_nil _).symm
      · cases stepped : b.step cancelled worker with
        | none => rfl
        | some next =>
          have able : b.canStep cancelled worker = true := by rw [← isSome_step, stepped]; rfl
          rw [pick_of_front positive front able] at picked
          cases picked
    | some worker =>
      have able : (b.step cancelled worker).isSome := by
        rw [isSome_step]
        exact List.find?_some picked
      obtain ⟨next, stepped⟩ := Option.isSome_iff_exists.mp able
      have step := step_eq_some stepped
      obtain ⟨rest, rfl, further⟩ := step.foreseen consistent (leads consistent picked) foreseen
      obtain ⟨stages', after⟩ := consistent.step step
      have fewer := consistent.steps_lt step
      simp only [stepped]
      rw [inductionHypothesis after further (by omega), Option.map_map]
      exact congrArg (Option.map · _) (funext fun report => (logged_append _ _ report).symm)

end

/-- Serves a batch on a pool with so many workers. A report is there once all of them are out of the loop. -/
def serve (pool : Pool) (concurrency : Nat) (cancelled : σ → Bool) (tasks : List (Task σ)) (s : σ) :
    Option (Report × σ) :=
  let first := start concurrency tasks s
  let fuel := enoughSteps concurrency tasks
  if (first.drive cancelled pool.threads fuel).Over then
    let (result, t) := runOnPool pool concurrency cancelled tasks s
    some (⟨(first.driveLog cancelled pool.threads fuel).filterMap Entry.begun?, result⟩, t)
  else none

variable {pool : Pool} {concurrency : Nat} {tasks : List (Task σ)}

theorem serve_eq (leads : Leads cancelled pool.threads tasks) (positive : 0 < concurrency) (s : σ) :
    serve pool concurrency cancelled tasks s = inTurn cancelled 0 tasks s := by
  rw [Foreseen.drive leads pool.positive (enoughSteps concurrency tasks) (consistent_start concurrency tasks s)
    (foreseen_start positive tasks s) (steps_start concurrency tasks s), serve, ended]
  split
  · simp [runOnPool, logged]
  · rfl

theorem runOnPool_of_serve {s t : σ} {report : Report}
    (served : serve pool concurrency cancelled tasks s = some (report, t)) :
    runOnPool pool concurrency cancelled tasks s = (report.result, t) := by
  rw [serve] at served
  split at served
  · cases served
    rfl
  · cases served

/-- On any pool, and with any number of workers, tasks that never wait are run in order. -/
theorem runOnPool_prompt (positive : 0 < concurrency) (prompt : ∀ task ∈ tasks, task.Prompt) (s : σ) :
    runOnPool pool concurrency cancelled tasks s = inOrder cancelled (List.range tasks.length) tasks s := by
  obtain ⟨report, t, inTurn, inOrder⟩ := inTurn_prompt cancelled 0 prompt s
  have numbered : (List.range' 0 tasks.length).zip tasks =
      (List.range tasks.length).map fun index => (index, tasks.getD index []) := by
    refine List.ext_getElem (by simp) fun index inside _ => ?_
    have inside : index < tasks.length := by simpa using inside
    simp [inside]
  rw [BulkSync.inOrder, ← numbered, inOrder]
  exact runOnPool_of_serve ((serve_eq (leads_prompt pool.positive prompt) positive s).trans inTurn)

/-! ## On a single thread -/

/-- Batches that follow one another on a single thread are executed in turn, whatever the concurrency. Each report is
about a prefix of its batch; a batch leaves nothing to the later ones but the shared state, and once it leaves the
flag raised these are cancelled before their first task. -/
theorem single_thread (single : pool.threads = 1) (c : Concurrency) (batches : List (List (Task σ))) (s : σ) :
    serveAll (serve pool c.workers cancelled) batches s = serveAll (inTurn cancelled 0) batches s ∧
      ((∀ tasks ∈ batches, ∀ task ∈ tasks, ∀ s, (task.alone cancelled s).isSome) →
        (serveAll (serve pool c.workers cancelled) batches s).isSome) ∧
      ∀ earlier tasks later reports t, batches = earlier ++ tasks :: later →
        serveAll (serve pool c.workers cancelled) batches s = some (reports, t) →
        ∃ before report after here there, reports = before ++ report :: after ∧
          serveAll (serve pool c.workers cancelled) earlier s = some (before, here) ∧
          (∃ count path failure, Prefix cancelled 0 tasks here report there count path failure) ∧
          serveAll (serve pool c.workers cancelled) later there = some (after, t) ∧
          (cancelled there = true → t = there ∧ after = later.map fun _ => ⟨[], .ok .cancelled⟩) := by
  have same : serve pool c.workers cancelled = inTurn cancelled 0 := by
    funext tasks s
    exact serve_eq (single ▸ leads_single) c.positive s
  rw [same]
  refine ⟨rfl, fun ends => ?_, ?_⟩
  · exact serveAll_isSome fun tasks member s => inTurn_isSome (ends tasks member) s
  · rintro earlier tasks later reports t rfl served
    obtain ⟨before, report, after, here, there, whole, early, now, late⟩ := serveAll_split served
    refine ⟨before, report, after, here, there, whole, early, inTurn_prefix now, late, fun up => ?_⟩
    rw [serveAll_raised up] at late
    cases late
    exact ⟨rfl, rfl⟩

/-- Three batches on a shared flag: a task of the first fails, one of the second raises the flag. -/
def shift : List (List (Task Bool)) :=
  [[[.ofFun fun _ up => (some (.reported "lost"), up)], [.ofFun fun _ up => (none, up)]],
    [[.ofFun fun _ up => (none, up)], [.ofFun fun _ _ => (none, true)], [.ofFun fun _ up => (none, up)]],
    [[.ofFun fun _ up => (none, up)]]]

theorem single_thread_shift : Pool.single.threads = 1 ∧
    serveAll (serve Pool.single 3 id) shift false =
      some ([⟨[0], .error ⟨0, .reported "lost"⟩⟩, ⟨[0, 1], .ok .cancelled⟩, ⟨[], .ok .cancelled⟩], true) := by
  have single : Pool.single.threads = 1 := rfl
  exact ⟨single, (single_thread single ⟨3, by decide, by decide⟩ shift false).1.trans rfl⟩

end BulkSync.Batch
