import BulkSync.Proofs.Engine.Course
import BulkSync.Proofs.Lockstep

/-! # The life of an engine

A course goes on through supersteps in front of which the stop flag is down, until one of them ends it
(`Job.proceed_ends`). From where it ends follows the state that the engine is left in: it has come to an end or
has failed just if no fault strikes it outside its tasks (`Engine.Sheltered`, `Engine.lifecycle`). Once it has
begun a superstep the engine answers every later call by that state. -/

namespace BulkSync

variable {γ M : Type} [GraphView γ] [Element M]

/-! ## Where a course ends -/

namespace Ending

variable {ending : Ending} {completed : Nat}

@[simp] theorem state_eq_ended_iff {outcome : Outcome} :
    ending.state completed = .ended outcome ↔ ending = .reached outcome := by
  cases ending <;> simp [state]

@[simp] theorem state_eq_failed_iff : ending.state completed = .failed ↔ ∃ error, ending = .failed error := by
  cases ending <;> simp [state]

@[simp] theorem state_eq_running_iff {s : Nat} :
    ending.state completed = .running s ↔ ∃ fault, ending = .struck fault ∧ completed = s := by
  cases ending <;> simp [state]

theorem state_ne_notStarted : ending.state completed ≠ .notStarted := by
  cases ending <;> simp [state]

end Ending

namespace Job

variable {job : Job γ M} {b c : Board M} {s : Nat}

/-- The flag is down in front of the first supersteps, and more is to do behind each of them. -/
def Leads (job : Job γ M) (b : Board M) (s : Nat) : Prop :=
  ∀ t < s, (job.boardAt b t).raised = false ∧ job.verdictAt b t = .proceed

/-- How a course ends at a superstep, and how many are completed then. -/
inductive EndsAt (job : Job γ M) (b : Board M) (limit s : Nat) : Ending → Nat → Prop
  | exhausted (all : s = limit) : EndsAt job b limit s (.reached .maxIterations) s
  | raised (below : s < limit) (up : (job.boardAt b s).raised = true) :
      EndsAt job b limit s (.reached .cancelled) s
  | settled (below : s < limit) (down : (job.boardAt b s).raised = false)
      (verdict : job.verdictAt b s = .settled) : EndsAt job b limit s (.reached .converged) (s + 1)
  | cancelled (below : s < limit) (down : (job.boardAt b s).raised = false)
      (verdict : job.verdictAt b s = .cancelled) : EndsAt job b limit s (.reached .cancelled) s
  | failed (below : s < limit) (down : (job.boardAt b s).raised = false) {error : TaskError}
      (verdict : job.verdictAt b s = .failed error) : EndsAt job b limit s (.failed error) s
  | struck (below : s < limit) (down : (job.boardAt b s).raised = false) {fault : Fault}
      (verdict : job.verdictAt b s = .struck fault) : EndsAt job b limit s (.struck fault) s

theorem superstep_boardAt (job : Job γ M) (b : Board M) (s : Nat) :
    job.superstep s (job.boardAt b s) = (job.verdictAt b s, job.boardAt b (s + 1)) := rfl

theorem proceed_leads (leads : job.Leads b s) (remaining : Nat) :
    job.proceed (s + remaining) 0 b = job.proceed remaining s (job.boardAt b s) := by
  induction s generalizing remaining with
  | zero => rw [Nat.zero_add, boardAt]
  | succ s inductionHypothesis =>
    obtain ⟨down, verdict⟩ := leads s (Nat.lt_succ_self s)
    rw [Nat.add_right_comm, Nat.add_assoc, inductionHypothesis fun t below => leads t (Nat.lt_succ_of_lt below),
      proceed, superstep_boardAt, down, verdict]
    rfl

theorem proceed_ends (job : Job γ M) (b : Board M) (limit : Nat) :
    ∃ s, job.Leads b s ∧
      job.EndsAt b limit s (job.proceed limit 0 b).ending (job.proceed limit 0 b).completed := by
  -- an induction over the supersteps that are still allowed
  suffices ∀ remaining s, s + remaining = limit → job.Leads b s → ∃ s, job.Leads b s ∧
      job.EndsAt b limit s (job.proceed limit 0 b).ending (job.proceed limit 0 b).completed from
    this limit 0 (Nat.zero_add _) fun t below => absurd below (Nat.not_lt_zero t)
  intro remaining
  induction remaining with
  | zero =>
    rintro s rfl leads
    refine ⟨s, leads, ?_⟩
    rw [proceed_leads leads]
    exact .exhausted rfl
  | succ remaining inductionHypothesis =>
    rintro s rfl leads
    have below : s < s + (remaining + 1) := by omega
    -- one more step of the course, and a case for each of its branches
    have rest := proceed_leads leads (remaining + 1)
    rw [proceed, superstep_boardAt] at rest
    cases flag : (job.boardAt b s).raised with
    | true =>
      rw [flag] at rest
      exact ⟨s, leads, rest ▸ .raised below flag⟩
    | false =>
      rw [flag] at rest
      cases verdict : job.verdictAt b s with
      | proceed =>
        refine inductionHypothesis (s + 1) (by omega) fun t earlier => ?_
        rcases Nat.eq_or_lt_of_le (Nat.le_of_lt_succ earlier) with rfl | before
        · exact ⟨flag, verdict⟩
        · exact leads t before
      | settled =>
        rw [verdict] at rest
        exact ⟨s, leads, rest ▸ .settled below flag verdict⟩
      | cancelled =>
        rw [verdict] at rest
        exact ⟨s, leads, rest ▸ .cancelled below flag verdict⟩
      | failed error =>
        rw [verdict] at rest
        exact ⟨s, leads, rest ▸ .failed below flag verdict⟩
      | struck fault =>
        rw [verdict] at rest
        exact ⟨s, leads, rest ▸ .struck below flag verdict⟩

theorem proceed_of_ends {limit : Nat} {ending : Ending} {completed : Nat} (leads : job.Leads b s)
    (ends : job.EndsAt b limit s ending completed) :
    (job.proceed limit 0 b).ending = ending ∧ (job.proceed limit 0 b).completed = completed := by
  have within : s ≤ limit := by cases ends <;> omega
  obtain ⟨remaining, rfl⟩ := Nat.exists_eq_add_of_le within
  rw [proceed_leads leads]
  cases ends with
  | exhausted all =>
    obtain rfl : remaining = 0 := by omega
    exact ⟨rfl, rfl⟩
  | raised below up =>
    obtain ⟨remaining, rfl⟩ := Nat.exists_eq_succ_of_ne_zero (n := remaining) (by omega)
    rw [proceed, up]
    exact ⟨rfl, rfl⟩
  | settled below down verdict | cancelled below down verdict | failed below down verdict
  | struck below down verdict =>
    obtain ⟨remaining, rfl⟩ := Nat.exists_eq_succ_of_ne_zero (n := remaining) (by omega)
    rw [proceed, down, superstep_boardAt, verdict]
    exact ⟨rfl, rfl⟩

/-! ### What strikes a superstep -/

/-- A fault strikes behind the tasks of a superstep, which have left a board: where the mail is delivered or
in the code of the computation. -/
def StruckBehind (job : Job γ M) (s : Nat) (c : Board M) (fault : Fault) : Prop :=
  c.mail.swap = .error fault ∨ ∃ mail d, c.mail.swap = .ok mail ∧
    (job.consult s).outcome ({ c with mail := mail }.note (.master s c.store)) = (.error fault, d)

theorem conclude_struck_iff {fault : Fault} :
    (job.conclude s c).1 = .struck fault ↔ job.StruckBehind s c fault := by
  rw [conclude, StruckBehind]
  cases swaps : c.mail.swap with
  | error other => simp
  | ok mail =>
    cases answered : (job.consult s).outcome ({ c with mail := mail }.note (.master s c.store)) with
    | mk answer d =>
      cases answer with
      | error other => simp [answered]
      | ok stop =>
        simp only [answered, Except.ok.injEq, reduceCtorEq, false_or, exists_and_left]
        split <;> simp [answered]

theorem conclude_ne_failed (job : Job γ M) (s : Nat) (c : Board M) (error : TaskError) :
    (job.conclude s c).1 ≠ .failed error := by
  rw [conclude]
  split
  · simp
  · dsimp only
    split
    · split <;> simp
    · simp

theorem superstep_failed_iff {error : TaskError} : (job.superstep s b).1 = .failed error ↔
    ∃ c, job.executor s (job.tasks s) (job.opened b) = (.error error, c) := by
  rw [superstep_eq]
  generalize job.executor s (job.tasks s) (job.opened b) = ran
  match ran with
  | (.error other, c) => simp
  | (.ok .cancelled, c) => simp
  | (.ok .finished, c) => simp [job.conclude_ne_failed s c error]

theorem superstep_struck_iff {fault : Fault} : (job.superstep s b).1 = .struck fault ↔
    ∃ c, job.executor s (job.tasks s) (job.opened b) = (.ok .finished, c) ∧
      job.StruckBehind s c fault := by
  rw [superstep_eq]
  generalize job.executor s (job.tasks s) (job.opened b) = ran
  match ran with
  | (.error other, c) => simp
  | (.ok .cancelled, c) => simp
  | (.ok .finished, c) => simp [conclude_struck_iff]

/-- A fault strikes a task of a superstep that starts on a board: the tasks whose turn it was before have
finished, and the visits of its nodes come to the fault. -/
def StruckWithin (job : Job γ M) (s : Nat) (b : Board M) (slot : Nat) (fault : Fault) : Prop :=
  ∃ done todo before, ∃ bound : slot < job.spans.length,
    (done ++ slot :: todo).Perm (List.range job.spans.length) ∧
    job.executor s (job.tasks s) (job.opened b) =
      inOrder Board.raised (done ++ slot :: todo) (job.tasks s) (job.opened b) ∧
    inOrder Board.raised done (job.tasks s) (job.opened b) = (.ok .finished, before) ∧
    ∃ desk, (job.work false s slot job.spans[slot]).outcome { board := before } = (.error fault, desk)

theorem action_failed_iff {slot : Nat} {span : Span} {c d : Board M} {cause : Failure} :
    (job.action s slot span).run .calm c = (some cause, d) ↔
      ∃ fault desk, cause = .struck fault ∧
        (job.work false s slot span).outcome { board := c } = (.error fault, desk) ∧ desk.board = d := by
  simp only [action, Action.ofFun, Signals.calm]
  rcases (job.work false s slot span).outcome { board := c } with ⟨fault | ⟨⟩, desk⟩
  · simp [eq_comm]
  · simp

/-- A batch fails just if a fault strikes one of its tasks. -/
theorem executed_failed_iff (turns : (job.executor s).TakesTurns Board.raised) {error : TaskError} :
    (∃ c, job.executor s (job.tasks s) (job.opened b) = (.error error, c)) ↔
      ∃ fault, error.cause = .struck fault ∧ job.StruckWithin s b error.task fault := by
  constructor
  · rintro ⟨c, failed⟩
    -- in the order that the tasks were executed in, the one that fails is the first not to finish
    obtain ⟨order, all, executed, _⟩ := executed_in_order turns b
    rw [executed, tasks_eq, inOrder_failed_iff (lt_length_works all), ← tasks_eq] at failed
    obtain ⟨done, todo, before, rfl, finished, inside, worked⟩ := failed
    obtain ⟨bound, work⟩ := getElem_works inside
    rw [work, action_failed_iff] at worked
    obtain ⟨fault, desk, cause, struck, -⟩ := worked
    exact ⟨fault, cause, done, todo, before, bound, all, executed, finished, desk, struck⟩
  · rintro ⟨fault, cause, done, todo, before, bound, all, executed, finished, desk, struck⟩
    have inside : error.task < (job.works s).length := by rwa [length_works]
    obtain ⟨_, work⟩ := getElem_works inside
    refine ⟨desk.board, ?_⟩
    rw [executed, tasks_eq, inOrder_failed_iff (lt_length_works all), ← tasks_eq]
    refine ⟨done, todo, before, rfl, finished, inside, ?_⟩
    rw [work, action_failed_iff]
    exact ⟨fault, desk, cause, struck, rfl⟩

end Job

/-! ## Runs -/

namespace Engine

/-- A run begins a superstep of a job, with a board in front of it. -/
def Enters (e : Engine γ M) (executor : Nat → Executor (Board M)) (s : Nat) (job : Job γ M) (b : Board M) :
    Prop :=
  ∃ start, e.prepare executor = .ok (job, start) ∧ s < e.config.maxIterations.toNat ∧ job.Leads start s ∧
    b = job.boardAt start s ∧ b.raised = false

/-- A fault strikes a task in one of the supersteps of a run. -/
def FailsBy (e : Engine γ M) (executor : Nat → Executor (Board M)) (error : TaskError) : Prop :=
  ∃ s job b fault, e.Enters executor s job b ∧ error.cause = .struck fault ∧
    job.StruckWithin s b error.task fault

/-- A fault strikes behind the tasks of a superstep of a run. -/
def StruckAt (e : Engine γ M) (executor : Nat → Executor (Board M)) (s : Nat) (fault : Fault) : Prop :=
  ∃ job b c, e.Enters executor s job b ∧
    job.executor s (job.tasks s) (job.opened b) = (.ok .finished, c) ∧ job.StruckBehind s c fault

/-- No fault strikes a run outside its tasks: neither in front of the supersteps nor behind the tasks of
one. -/
structure Sheltered (e : Engine γ M) (executor : Nat → Executor (Board M)) : Prop where
  front : ∀ fault, e.prepare executor ≠ .error fault
  behind : ∀ s fault, ¬ e.StruckAt executor s fault

def call (executor : Nat → Executor (Board M)) : StateM (Engine γ M) (Except RunError RunResult) :=
  fun e => e.runWith executor

variable {e after : Engine γ M} {executor : Nat → Executor (Board M)}
  {returned : Except RunError RunResult}

/-- An engine that has left its initial state stays as it is. -/
theorem run_calls (begun : e.state ≠ .notStarted) (executors : List (Nat → Executor (Board M))) :
    (executors.mapM call).run e = (executors.map fun _ => .error (.alreadyRan e.state), e) := by
  induction executors with
  | nil => rfl
  | cons executor executors inductionHypothesis =>
    have first : (call executor).run e = (.error (.alreadyRan e.state), e) := if_pos begun
    rw [Lockstep.run_mapM_cons, first, inductionHypothesis]
    rfl

/-! ### Where a run is left -/

section Prepared

variable {job : Job γ M} {start : Board M}

theorem ending_failed_iff (prepared : e.prepare executor = .ok (job, start)) {error : TaskError} :
    (job.proceed e.config.maxIterations.toNat 0 start).ending = .failed error ↔
      ∃ s b, e.Enters executor s job b ∧ (job.superstep s b).1 = .failed error := by
  constructor
  · intro failed
    obtain ⟨s, leads, ends⟩ := job.proceed_ends start e.config.maxIterations.toNat
    rw [failed] at ends
    cases ends with
    | failed below down verdict =>
      exact ⟨_, _, ⟨start, prepared, below, leads, rfl, down⟩, verdict⟩
  · rintro ⟨s, _, ⟨_, preparedToo, below, leads, rfl, down⟩, verdict⟩
    cases prepared.symm.trans preparedToo
    exact (Job.proceed_of_ends leads (.failed below down verdict)).1

theorem ending_struck_iff (prepared : e.prepare executor = .ok (job, start)) {s : Nat} {fault : Fault} :
    ((job.proceed e.config.maxIterations.toNat 0 start).ending = .struck fault ∧
      (job.proceed e.config.maxIterations.toNat 0 start).completed = s) ↔
      ∃ b, e.Enters executor s job b ∧ (job.superstep s b).1 = .struck fault := by
  constructor
  · rintro ⟨struck, completed⟩
    obtain ⟨t, leads, ends⟩ := job.proceed_ends start e.config.maxIterations.toNat
    rw [struck, completed] at ends
    cases ends with
    | struck below down verdict =>
      exact ⟨_, ⟨start, prepared, below, leads, rfl, down⟩, verdict⟩
  · rintro ⟨_, ⟨_, preparedToo, below, leads, rfl, down⟩, verdict⟩
    cases prepared.symm.trans preparedToo
    exact Job.proceed_of_ends leads (.struck below down verdict)

theorem Enters.job_eq {s : Nat} {other : Job γ M} {b : Board M} (enters : e.Enters executor s other b)
    (prepared : e.prepare executor = .ok (job, start)) : other = job := by
  obtain ⟨_, preparedToo, -⟩ := enters
  cases prepared.symm.trans preparedToo
  rfl

theorem failsBy_iff (prepared : e.prepare executor = .ok (job, start))
    (turns : ∀ s, (executor s).TakesTurns Board.raised) {error : TaskError} :
    e.FailsBy executor error ↔
      (job.proceed e.config.maxIterations.toNat 0 start).ending = .failed error := by
  have turnsToo : ∀ s, (job.executor s).TakesTurns Board.raised := by
    obtain ⟨_, _, _, -, -, -, rfl, -⟩ := prepare_ok prepared
    exact turns
  simp only [ending_failed_iff prepared, Job.superstep_failed_iff, Job.executed_failed_iff (turnsToo _)]
  constructor
  · rintro ⟨s, other, b, fault, enters, cause, struck⟩
    cases enters.job_eq prepared
    exact ⟨s, b, enters, fault, cause, struck⟩
  · rintro ⟨s, b, enters, fault, cause, struck⟩
    exact ⟨s, job, b, fault, enters, cause, struck⟩

theorem struckAt_iff (prepared : e.prepare executor = .ok (job, start)) {s : Nat} {fault : Fault} :
    e.StruckAt executor s fault ↔
      (job.proceed e.config.maxIterations.toNat 0 start).ending = .struck fault ∧
        (job.proceed e.config.maxIterations.toNat 0 start).completed = s := by
  simp only [ending_struck_iff prepared, Job.superstep_struck_iff]
  constructor
  · rintro ⟨other, b, c, enters, finished, struck⟩
    cases enters.job_eq prepared
    exact ⟨b, enters, c, finished, struck⟩
  · rintro ⟨b, enters, c, finished, struck⟩
    exact ⟨job, b, c, enters, finished, struck⟩

end Prepared

omit [Element M] in
theorem resultOf_task_iff {course : Course M} {error : TaskError} :
    resultOf course = .error (.task error) ↔ course.ending = .failed error := by
  rw [resultOf]
  cases course.ending with
  | reached outcome => cases course.board.store.exposed <;> simp
  | failed other => simp
  | struck fault => simp

/-- What a call of a new engine comes to, and what becomes of the engine. -/
structure Lives (e : Engine γ M) (executor : Nat → Executor (Board M))
    (returned : Except RunError RunResult) (after : Engine γ M) : Prop where
  closed : ((∃ outcome, after.state = .ended outcome) ∨ after.state = .failed) ↔ e.Sheltered executor
  outcome : ∀ result, returned = .ok result → after.state = .ended result.outcome
  error : ∀ error, returned = .error (.task error) ↔ e.FailsBy executor error
  failed : after.state = .failed ↔ ∃ error, e.FailsBy executor error
  running : ∀ s, after.state = .running s ↔ ∃ fault, e.StruckAt executor s fault
  notStarted : after.state = .notStarted ↔ ∃ fault, e.prepare executor = .error fault
  /-- An engine that has not begun is as it was, and can be called again. -/
  unchanged : after.state = .notStarted → after = e
  /-- Any other engine only answers from then on. -/
  later : after.state ≠ .notStarted → ∀ executors : List (Nat → Executor (Board M)),
    (executors.mapM call).run after = (executors.map fun _ => .error (.alreadyRan after.state), after)

theorem lives_of_error (notStarted : e.state = .notStarted) {fault : Fault}
    (prepared : e.prepare executor = .error fault) : e.Lives executor (.error (.struck fault)) e := by
  -- without a board no superstep is begun, so that nothing can strike one
  have never : ∀ s job b, ¬ e.Enters executor s job b := by
    rintro s job b ⟨start, preparedToo, -⟩
    cases prepared.symm.trans preparedToo
  have unfailing : ∀ error, ¬ e.FailsBy executor error :=
    fun error ⟨s, job, b, _, enters, _⟩ => never s job b enters
  have unstruck : ∀ s fault, ¬ e.StruckAt executor s fault :=
    fun s fault ⟨job, b, _, enters, _⟩ => never s job b enters
  have exposed : ¬ e.Sheltered executor := fun sheltered => sheltered.front fault prepared
  exact
    { closed := by simp [notStarted, exposed]
      outcome := by simp
      error := by simp [unfailing]
      failed := by simp [notStarted, unfailing]
      running := by simp [notStarted, unstruck]
      notStarted := by simp [notStarted, prepared]
      unchanged := fun _ => rfl
      later := fun begun => absurd notStarted begun }

theorem lives_of_ok {job : Job γ M} {start : Board M} (turns : ∀ s, (executor s).TakesTurns Board.raised)
    (prepared : e.prepare executor = .ok (job, start)) {course : Course M}
    (ran : job.proceed e.config.maxIterations.toNat 0 start = course) :
    e.Lives executor (resultOf course) (e.after course) := by
  -- the way the course ends tells what has struck it, and the state tells the way it ends
  have fails : ∀ error, e.FailsBy executor error ↔ course.ending = .failed error := fun error => by
    rw [failsBy_iff prepared turns, ran]
  have strikes : ∀ s fault, e.StruckAt executor s fault ↔ course.ending = .struck fault ∧ course.completed = s :=
    fun s fault => by rw [struckAt_iff prepared, ran]
  have state : (e.after course).state = course.ending.state course.completed := rfl
  have begun : (e.after course).state ≠ .notStarted := Ending.state_ne_notStarted
  have sheltered : e.Sheltered executor ↔ ∀ fault, course.ending ≠ .struck fault := by
    constructor
    · intro sheltered fault struck
      exact sheltered.behind _ _ ((strikes course.completed fault).mpr ⟨struck, rfl⟩)
    · intro unstruck
      refine ⟨by simp [prepared], fun s fault struck => ?_⟩
      exact unstruck fault ((strikes s fault).mp struck).1
  exact
    { closed := by
        rw [sheltered, state]
        cases course.ending <;> simp
      outcome := fun result returned => Ending.state_eq_ended_iff.mpr (resultOf_ok returned).1
      error := fun error => by rw [resultOf_task_iff, fails]
      failed := by simp only [fails, state, Ending.state_eq_failed_iff]
      running := fun s => by simp only [strikes, state, Ending.state_eq_running_iff]
      notStarted := by simp [begun, prepared]
      unchanged := fun idle => absurd idle begun
      later := fun _ => run_calls begun }

/-- An engine that is called for the first time comes to an end or fails if no fault strikes outside its tasks,
and only then: it fails just if a fault strikes one of its tasks. A fault behind the tasks of a superstep
leaves it within that superstep, and one in front of the supersteps leaves it as it was. -/
theorem lifecycle (notStarted : e.state = .notStarted) (turns : ∀ s, (executor s).TakesTurns Board.raised)
    (ran : e.runWith executor = (returned, after)) : e.Lives executor returned after := by
  rw [runWith_eq notStarted] at ran
  cases prepared : e.prepare executor with
  | error fault =>
    rw [prepared] at ran
    cases ran
    exact lives_of_error notStarted prepared
  | ok made =>
    obtain ⟨job, start⟩ := made
    rw [prepared] at ran
    cases ran
    exact lives_of_ok turns prepared rfl

/-- The two nodes come to an end, and the engine says so when it is called again. -/
theorem lifecycle_greeting :
    greetingEngine.Lives greetingEngine.onPool greetingEngine.run.1 greetingEngine.run.2 ∧
    greetingEngine.run.2.state = .ended .converged ∧ greetingEngine.Sheltered greetingEngine.onPool ∧
    ([greetingEngine.onPool, greetingEngine.onPool].mapM call).run greetingEngine.run.2 =
      ([.error (.alreadyRan (.ended .converged)), .error (.alreadyRan (.ended .converged))],
        greetingEngine.run.2) := by
  have lives : greetingEngine.Lives greetingEngine.onPool greetingEngine.run.1 greetingEngine.run.2 :=
    lifecycle rfl (fun s => (inSequence_onPool greetingEngine s).takesTurns) greetingEngine.run.eta.symm
  have ended : greetingEngine.run.2.state = .ended .converged := by decide +kernel
  refine ⟨lives, ended, lives.closed.mp (.inl ⟨_, ended⟩), ?_⟩
  rw [lives.later (by simp [ended]), ended]
  rfl

/-! ### Engines that are left on the way -/

/-- A single node, and a computation that gives up behind the first superstep. -/
def givingUp : Engine RowGraph Int64 where
  graph := ⟨Rows.ofLists [[]], none⟩
  computation :=
    { schema := .ok .empty
      compute := fun _ _ => VertexContext.halt
      master := fun _ => .fail (.raised "no answer") }
  config := {}

def undeclared : Engine RowGraph Int64 where
  graph := ⟨Rows.ofLists [[]], none⟩
  computation := { schema := .error (.raised "no schema"), compute := fun _ _ => VertexContext.halt }
  config := {}

/-- An engine can be left within a superstep although its run is over, and as if it had never been called. -/
theorem left_on_the_way :
    givingUp.run.1 = .error (.struck (.raised "no answer")) ∧ givingUp.run.2.state = .running 0 ∧
    givingUp.run.2.run = (.error (.alreadyRan (.running 0)), givingUp.run.2) ∧
    undeclared.run = (.error (.struck (.raised "no schema")), undeclared) ∧
    undeclared.state = .notStarted := by
  have running : givingUp.run.2.state = .running 0 := by decide +kernel
  have answer : (match givingUp.run.1 with | .ok _ => none | .error error => some error) =
      some (.struck (.raised "no answer")) := by decide +kernel
  refine ⟨?_, running, ?_, rfl, rfl⟩
  · cases ran : givingUp.run.1 with
    | ok result => simp [ran] at answer
    | error error =>
      rw [ran] at answer
      exact congrArg Except.error (Option.some.inj answer)
  · rw [run, runWith, if_pos (by simp [running]), running]

end Engine
end BulkSync
