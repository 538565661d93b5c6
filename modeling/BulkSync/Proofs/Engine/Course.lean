import BulkSync.Engine.Run
import BulkSync.Graph.RowGraph
import BulkSync.Proofs.Engine.Step
import BulkSync.Vertex.Calls

/-! # Courses of supersteps

The board in front of each superstep follows from the one before (`Job.boardAt`). A run of an engine that
is not cancelled is told by these boards: it goes on as long as the verdict is to proceed, and every
superstep in it does what the deeds say (`Engine.Account`). -/

namespace BulkSync

variable {γ M : Type} [GraphView γ] [Element M]

namespace Job

/-- The board in front of a superstep. -/
def boardAt (job : Job γ M) (b : Board M) : Nat → Board M
  | 0 => b
  | superstep + 1 => (job.superstep superstep (job.boardAt b superstep)).2

/-- The verdict on a superstep. -/
def verdictAt (job : Job γ M) (b : Board M) (superstep : Nat) : Verdict :=
  (job.superstep superstep (job.boardAt b superstep)).1

/-- A course that comes to an outcome after so many supersteps: of the supersteps from the first one on,
none but the last can be the one that settles it. -/
structure Reached (job : Job γ M) (b : Board M) (first limit : Nat) (outcome : Outcome) (count : Nat) :
    Prop where
  goesOn : ∀ s, first ≤ s → s < count →
    job.verdictAt b s = .settled ∨ job.verdictAt b s = .proceed
  settled : ∀ s, first ≤ s → s < count →
    (job.verdictAt b s = .settled ↔ outcome = .converged ∧ s + 1 = count)
  ends : outcome = .converged ∧ first < count ∧ count ≤ limit ∨ outcome = .maxIterations ∧ count = limit

variable {job : Job γ M} {b : Board M}

theorem Reached.cons {first limit count : Nat} {outcome : Outcome}
    (reached : job.Reached b (first + 1) limit outcome count)
    (verdict : job.verdictAt b first = .proceed) : job.Reached b first limit outcome count where
  goesOn s from_first below := by
    rcases Nat.eq_or_lt_of_le from_first with rfl | later
    · exact .inr verdict
    · exact reached.goesOn s later below
  settled s from_first below := by
    rcases Nat.eq_or_lt_of_le from_first with rfl | later
    · rcases reached.ends with ⟨_, further, _⟩ | ⟨maxIterations, _⟩
      · simp only [verdict, false_iff, reduceCtorEq]
        omega
      · simp [verdict, maxIterations]
    · exact reached.settled s later below
  ends := reached.ends.imp_left fun converged => ⟨converged.1, by omega, converged.2.2⟩

theorem reached_nowhere (first : Nat) : job.Reached b first first .maxIterations first where
  goesOn s from_first below := by omega
  settled s from_first below := by omega
  ends := .inr ⟨rfl, rfl⟩

theorem reached_here {first limit : Nat} (bound : first < limit)
    (verdict : job.verdictAt b first = .settled) : job.Reached b first limit .converged (first + 1) where
  goesOn s from_first below := by
    obtain rfl : s = first := by omega
    exact .inl verdict
  settled s from_first below := by
    obtain rfl : s = first := by omega
    simp [verdict]
  ends := .inl ⟨rfl, by omega, by omega⟩

/-- A course that has converged was settled by its last superstep. -/
theorem Reached.last {limit count : Nat} {outcome : Outcome} (reached : job.Reached b 0 limit outcome count)
    (converged : outcome = .converged) :
    ∃ s, s + 1 = count ∧ s < limit ∧ job.verdictAt b s = .settled := by
  rcases reached.ends with ⟨_, any, bound⟩ | ⟨maxIterations, _⟩
  · refine ⟨count - 1, by omega, by omega, ?_⟩
    exact (reached.settled (count - 1) (Nat.zero_le _) (by omega)).mpr ⟨converged, by omega⟩
  · rw [converged] at maxIterations
    cases maxIterations

/-- A course that is not cancelled has gone through the boards in front of its supersteps. -/
theorem proceed_reached {outcome : Outcome} (calm : outcome ≠ .cancelled) (remaining first : Nat)
    {course : Course M} (ran : job.proceed remaining first (job.boardAt b first) = course)
    (ended : course.ending = .reached outcome) :
    job.Reached b first (first + remaining) outcome course.completed ∧
      course.board = job.boardAt b course.completed := by
  induction remaining generalizing first with
  | zero =>
    subst ran
    cases ended
    exact ⟨reached_nowhere first, rfl⟩
  | succ remaining inductionHypothesis =>
    rw [proceed] at ran
    split at ran
    · subst ran
      cases ended
      exact absurd rfl calm
    · have verdict : job.verdictAt b first = (job.superstep first (job.boardAt b first)).1 := rfl
      have next : job.boardAt b (first + 1) = (job.superstep first (job.boardAt b first)).2 := rfl
      split at ran
      · next after stepped =>
        rw [stepped] at verdict next
        -- the rest of the course starts from the board in front of the next superstep
        obtain ⟨reached, board⟩ := inductionHypothesis (first + 1) (next ▸ ran)
        rw [show first + 1 + remaining = first + (remaining + 1) by omega] at reached
        exact ⟨reached.cons verdict, board⟩
      · next after stepped =>
        rw [stepped] at verdict next
        subst ran
        cases ended
        exact ⟨reached_here (by omega) verdict, next.symm⟩
      · subst ran
        cases ended
        exact absurd rfl calm
      · subst ran
        cases ended
      · subst ran
        cases ended

/-- A course is cancelled only if the stop flag is raised in the end. -/
theorem proceed_cancelled (job : Job γ M) (turns : ∀ s, (job.executor s).TakesTurns Board.raised)
    (remaining number : Nat) {course : Course M} (ran : job.proceed remaining number b = course)
    (ended : course.ending = .reached .cancelled) : course.board.raised = true := by
  induction remaining generalizing number b with
  | zero =>
    subst ran
    cases ended
  | succ remaining inductionHypothesis =>
    rw [proceed] at ran
    split at ran
    · next raised =>
      subst ran
      exact raised
    · split at ran
      · exact inductionHypothesis _ ran
      · subst ran
        cases ended
      · next after stepped =>
        subst ran
        exact superstep_cancelled (turns number) stepped
      · subst ran
        cases ended
      · subst ran
        cases ended

/-- So many supersteps of a course do what the deeds say. -/
def Steps (job : Job γ M) (schema : Schema) (nodes : Nat) (b : Board M) (count : Nat) : Prop :=
  ∀ s < count, ∃ letters stop, job.Stepped schema nodes s (job.boardAt b s) letters stop
    (job.verdictAt b s) (job.boardAt b (s + 1))

/-- Each superstep of a course does what the deeds say. -/
theorem boardAt_stepped {schema : Schema} {nodes slots count : Nat} {letters : List (Nat × M)}
    (reliable : ∀ s, job.Reliable schema nodes s)
    (ready : b.Ready schema nodes slots job.computation.reducer letters)
    (goesOn : ∀ s < count, job.verdictAt b s = .settled ∨ job.verdictAt b s = .proceed) :
    job.Steps schema nodes b count := by
  intro s
  induction s with
  | zero => exact fun below => superstep_stepped (reliable 0) ready rfl (goesOn 0 below)
  | succ s inductionHypothesis =>
    intro below
    -- the board is ready for a superstep because the one before has left it so
    obtain ⟨sent, stop, stepped⟩ := inductionHypothesis (by omega)
    exact superstep_stepped (reliable (s + 1)) stepped.ready rfl (goesOn (s + 1) below)

end Job

/-! ## Runs of an engine -/

namespace Engine

/-- An engine that has been made for a valid configuration and has not run yet. -/
structure Fresh (e : Engine γ M) : Prop where
  valid : e.config.validate = .ok ()
  state : e.state = .notStarted
  record : e.record = #[]

omit [GraphView γ] [Element M] in
theorem fresh_new {graph : γ} {computation : Computation M} {config : Config} {e : Engine γ M}
    (made : new graph computation config = .ok e) : e.Fresh := by
  rw [new] at made
  cases valid : config.validate with
  | error error =>
    rw [valid] at made
    cases made
  | ok value =>
    rw [valid] at made
    cases made
    exact ⟨valid, rfl, rfl⟩

/-- An account of a run that has a result and was not cancelled: the job and the board that it started
from, and what its course was. -/
structure Account (e : Engine γ M) (executor : Nat → Executor (Board M)) (result : RunResult)
    (after : Engine γ M) (schema : Schema) (job : Job γ M) (board : Board M) : Prop where
  prepared : e.prepare executor = .ok (job, board)
  graph : job.graph = e.graph
  computation : job.computation = e.computation
  executor : job.executor = executor
  declared : e.computation.schema = .ok schema
  tile : Span.Tile 0 job.spans (GraphView.nodeCount e.graph)
  ready : board.Ready schema (GraphView.nodeCount e.graph) 0 e.computation.reducer []
  blank : board.record = #[]
  store : board.store = .new schema (GraphView.nodeCount e.graph)
  votes : board.votes = .new (GraphView.nodeCount e.graph)
  mail : Mail.new (GraphView.nodeCount e.graph) e.computation.reducer = .ok board.mail
  reached : job.Reached board 0 e.config.maxIterations.toNat result.outcome result.supersteps
  record : after.record = (job.boardAt board result.supersteps).record
  values : (job.boardAt board result.supersteps).store.exposed = .ok result.values

theorem runWith_eq {e : Engine γ M} (notStarted : e.state = .notStarted)
    (executor : Nat → Executor (Board M)) : e.runWith executor =
      match e.prepare executor with
      | .error fault => (.error (.struck fault), e)
      | .ok (job, b) =>
          (resultOf (job.proceed e.config.maxIterations.toNat 0 b),
            e.after (job.proceed e.config.maxIterations.toNat 0 b)) :=
  if_neg (by simp [notStarted])

theorem prepare_ok {e : Engine γ M} {executor : Nat → Executor (Board M)} {job : Job γ M} {b : Board M}
    (prepared : e.prepare executor = .ok (job, b)) : ∃ schema mail spans,
      e.computation.schema = .ok schema ∧ e.spans = .ok spans ∧
      Mail.new (GraphView.nodeCount e.graph) e.computation.reducer = .ok mail ∧
      job = ⟨e.graph, e.computation, spans, executor⟩ ∧
      b = ⟨.new schema (GraphView.nodeCount e.graph), .new (GraphView.nodeCount e.graph), mail, false,
        e.raised, e.progress, e.record⟩ := by
  obtain ⟨schema, declared, second⟩ := bind_eq_ok_iff.mp prepared
  obtain ⟨mail, made, third⟩ := bind_eq_ok_iff.mp second
  obtain ⟨spans, cut, last⟩ := bind_eq_ok_iff.mp third
  obtain ⟨rfl, rfl⟩ := Prod.mk.inj (Except.ok.inj last)
  exact ⟨schema, mail, spans, declared, cut, made, rfl, rfl⟩

omit [GraphView γ] [Element M] in
theorem resultOf_ok {course : Course M} {result : RunResult} (comes : resultOf course = .ok result) :
    course.ending = .reached result.outcome ∧ course.completed = result.supersteps ∧
      course.board.store.exposed = .ok result.values := by
  rw [resultOf] at comes
  split at comes
  · next outcome ended =>
    split at comes
    · next values exposed =>
      cases comes
      exact ⟨ended, rfl, exposed⟩
    · cases comes
  · cases comes
  · cases comes

theorem account {e after : Engine γ M} {executor : Nat → Executor (Board M)} {result : RunResult}
    (fresh : e.Fresh) (ran : e.runWith executor = (.ok result, after))
    (calm : result.outcome ≠ .cancelled) :
    ∃ schema job board, e.Account executor result after schema job board := by
  rw [runWith_eq fresh.state] at ran
  cases prepared : e.prepare executor with
  | error fault =>
    rw [prepared] at ran
    cases ran
  | ok made =>
    obtain ⟨job, b⟩ := made
    rw [prepared] at ran
    obtain ⟨comes, rfl⟩ := Prod.mk.inj ran
    obtain ⟨ended, completed, exposed⟩ := resultOf_ok comes
    obtain ⟨reached, final⟩ := Job.proceed_reached calm e.config.maxIterations.toNat 0 rfl ended
    rw [Nat.zero_add, Job.boardAt, completed] at reached
    rw [Job.boardAt, completed] at final
    obtain ⟨schema, mail, spans, declared, cut, mailed, rfl, rfl⟩ := prepare_ok prepared
    exact ⟨schema, _, _,
      { prepared, declared, reached
        graph := rfl
        computation := rfl
        executor := rfl
        tile := tile_spans cut
        ready := ⟨PropertyStore.regular_new schema _, BitSet.regular_new _, Mail.holds_new mailed⟩
        blank := fresh.record
        store := rfl
        votes := rfl
        mail := mailed
        record := final ▸ rfl
        values := final ▸ exposed }⟩

namespace Account

variable {e after : Engine γ M} {executor : Nat → Executor (Board M)} {result : RunResult}
  {schema : Schema} {job : Job γ M} {board : Board M}

theorem steps_of_reliable (account : e.Account executor result after schema job board)
    (reliable : ∀ s, job.Reliable schema (GraphView.nodeCount e.graph) s) :
    job.Steps schema (GraphView.nodeCount e.graph) board result.supersteps :=
  Job.boardAt_stepped reliable (account.computation ▸ account.ready) fun s below =>
    account.reached.goesOn s (Nat.zero_le s) below

theorem steps (account : e.Account executor result after schema job board)
    (turns : ∀ s, (executor s).TakesTurns Board.raised) :
    job.Steps schema (GraphView.nodeCount e.graph) board result.supersteps :=
  account.steps_of_reliable fun s => Job.reliable_of_turns account.tile (account.executor ▸ turns s)

/-- A valid configuration allows for a superstep. -/
theorem positive (account : e.Account executor result after schema job board) (fresh : e.Fresh) :
    0 < result.supersteps := by
  rcases account.reached.ends with ⟨_, some, _⟩ | ⟨_, all⟩
  · exact some
  · rw [all, Nat.pos_iff_ne_zero]
    intro none
    have valid := fresh.valid
    rw [Config.validate, if_pos (UInt32.toNat_inj.mp none)] at valid
    cases valid

end Account

omit [GraphView γ] [Element M] in
/-- The pool of an engine executes the tasks of every superstep in sequence. -/
theorem inSequence_onPool (e : Engine γ M) (superstep : Nat) :
    (e.onPool superstep).InSequence Board.raised :=
  inSequence_runOnPool e.pool e.config.concurrency.positive Board.raised

end Engine

/-! ## Two nodes that greet each other -/

/-- In the first superstep each node sends its number along its edges; then it keeps the sum of what it
has heard. It always votes to halt. -/
def greeting : Computation Int64 where
  schema := Schema.ofList [⟨"heard", .long, .exposed⟩]
  compute view messages := do
    if view.superstep = 0 then VertexContext.sendToNeighbors (Int64.ofNat (view.node + 1))
    else VertexContext.setLong "heard" messages.sum
    VertexContext.halt

/-- Two nodes with an edge in each direction, and a task for each of them. -/
def greetingEngine : Engine RowGraph Int64 where
  graph := ⟨Rows.ofLists [[1], [0]], none⟩
  computation := greeting
  config := { concurrency := ⟨2, by decide, by decide⟩, minBatchSize := 1 }

theorem fresh_greeting : greetingEngine.Fresh :=
  Engine.fresh_new (show Engine.new greetingEngine.graph greeting greetingEngine.config = .ok greetingEngine from rfl)

theorem greeting_runs : ∃ result, greetingEngine.run.1 = .ok result ∧ result.supersteps = 2 ∧
    result.outcome = .converged := by
  have evaluated : greetingEngine.run.1.toOption.map (fun r => (r.supersteps, r.outcome)) =
      some (2, .converged) := by decide +kernel
  cases ran : greetingEngine.run.1 with
  | error error => simp [ran, Except.toOption] at evaluated
  | ok result =>
    simp only [ran, Except.toOption, Option.map_some, Option.some.injEq, Prod.mk.injEq] at evaluated
    exact ⟨result, rfl, evaluated⟩

end BulkSync
