import BulkSync.Proofs.Engine.Letters

/-! # Where a run stops

A run that nothing disturbs comes to a result (`undisturbed_runs`). Behind every superstep the computation
is asked once, which is to say that its own code is run on the board (`Job.Asks`). A superstep is conclusive
if the answer is to stop, or if all nodes have voted to halt and nothing was sent in it. The run ends with the
first conclusive superstep, and if there is none, with the last one that is allowed (`stopping_rule`). -/

namespace BulkSync

variable {γ M : Type} [GraphView γ] [Element M]

/-- A superstep of a run behind which the computation is asked and answers to stop, or in which nothing was
sent and after which all nodes have voted to halt. -/
def Job.Conclusive (job : Job γ M) (board : Board M) (nodes : Nat) (record : List (Event M)) (s : Nat) :
    Prop :=
  ∃ stop, .answer s stop ∈ record ∧ job.Asks s (job.boardAt board s) stop ∧
    (stop = true ∨ (∀ node < nodes, (job.boardAt board (s + 1)).votes.test node = true) ∧
      ∀ source target message, .send s source target message ∉ record)

/-- Behind each of so many supersteps, once all nodes are done, the computation is asked once: its own code
is run on what the superstep has left, and what it answers and leaves is what the run goes on with. -/
def Job.Asked (job : Job γ M) (board : Board M) (count : Nat) (record : List (Event M)) : Prop :=
  ∃ (acts : Nat → List (Event M)) (answer : Nat → Bool),
    record = (List.range count).flatMap (fun s =>
      acts s ++ [.master s (job.left s (job.boardAt board s)).store, .answer s (answer s)]) ∧
    ∀ s < count, (∀ event ∈ acts s, event.superstep = s ∧ event.node? ≠ none) ∧
      job.Asks s (job.boardAt board s) (answer s)

/-! ## What the record has of a superstep -/

section Superstep

variable {job : Job γ M} {schema : Schema} {superstep node : Nat} {b : Board M}

theorem Job.Acts.letters_eq_nil_iff (acts : job.Acts schema superstep b node) :
    (job.deed schema superstep b node).letters = [] ↔ ∀ target message,
      .send superstep node target message ∉ (job.deed schema superstep b node).events := by
  rw [Deed.letters, List.filterMap_eq_nil_iff]
  constructor
  · intro silent target message member
    cases silent _ member
  · intro none event member
    have own := Event.isOf_iff.mp (acts.isOf event member)
    cases event with
    | send s source target message =>
      obtain ⟨rfl, source⟩ := own
      cases source
      exact absurd member (none target message)
    | _ => rfl

end Superstep

namespace Engine.Account

variable {e after : Engine γ M} {executor : Nat → Executor (Board M)} {result : RunResult}
  {schema : Schema} {job : Job γ M} {board : Board M}
  (account : e.Account executor result after schema job board)
  (steps : job.Steps schema (GraphView.nodeCount e.graph) board result.supersteps)

include account steps

/-- A superstep is quiet if it leaves all votes set and nothing was sent in it. -/
theorem quiet_iff {s : Nat} (below : s < result.supersteps) :
    job.Quiet schema (GraphView.nodeCount e.graph) s (job.boardAt board s) ↔
      (∀ node < GraphView.nodeCount e.graph, (job.boardAt board (s + 1)).votes.test node = true) ∧
        ∀ source target message, .send s source target message ∉ after.record.toList := by
  obtain ⟨letters, stop, stepped⟩ := steps s below
  have sends : ∀ source < GraphView.nodeCount e.graph, ∀ target message,
      .send s source target message ∈ after.record.toList ↔
        .send s source target message ∈ (job.deed schema s (job.boardAt board s) source).events := by
    intro source inside target message
    rw [← account.eventsOf_record steps below inside, mem_eventsOf]
    simp [Event.superstep, Event.node?]
  constructor
  · intro quiet
    refine ⟨fun node inside => (stepped.vote node inside).trans (quiet node inside).1, ?_⟩
    intro source target message member
    have inside := (account.mem_record steps member).2 source rfl
    exact (stepped.acts source inside).letters_eq_nil_iff.mp (quiet source inside).2 target message
      ((sends source inside target message).mp member)
  · rintro ⟨full, silent⟩ node inside
    refine ⟨(stepped.vote node inside).symm.trans (full node inside), ?_⟩
    exact (stepped.acts node inside).letters_eq_nil_iff.mpr fun target message member =>
      silent node target message ((sends node inside target message).mpr member)

/-- The verdict that settles a run is that of a conclusive superstep. -/
theorem conclusive_iff {s : Nat} (below : s < result.supersteps) :
    job.Conclusive board (GraphView.nodeCount e.graph) after.record.toList s ↔
      job.verdictAt board s = .settled := by
  obtain ⟨letters, stop, stepped⟩ := steps s below
  rw [stepped.settled, account.quiet_iff steps below, Job.Conclusive]
  simp only [account.answer_mem_record steps below stepped, exists_eq_left, stepped.asks, true_and]

/-- A run converges with a conclusive superstep. -/
theorem last_of_conclusive {s : Nat}
    (conclusive : job.Conclusive board (GraphView.nodeCount e.graph) after.record.toList s) :
    result.outcome = .converged ∧ result.supersteps = s + 1 := by
  obtain ⟨stop, member, _⟩ := id conclusive
  have below : s < result.supersteps := (account.mem_record steps member).1
  obtain ⟨converged, last⟩ := (account.reached.settled s (Nat.zero_le s) below).mp
    ((account.conclusive_iff steps below).mp conclusive)
  exact ⟨converged, last.symm⟩

end Engine.Account

/-! ## Runs that nothing disturbs -/

namespace Engine

/-- No task fails in a run, no fault strikes it, and the stop flag is down in the end. -/
structure Undisturbed (e : Engine γ M) (executor : Nat → Executor (Board M)) : Prop where
  unfailing : ∀ error, (e.runWith executor).1 ≠ .error (.task error)
  unstruck : ∀ fault, (e.runWith executor).1 ≠ .error (.struck fault)
  lowered : (e.runWith executor).2.raised = false

/-- No task fails in a run, no fault strikes it, and it is not cancelled. -/
structure Unbroken (e : Engine γ M) (executor : Nat → Executor (Board M)) : Prop where
  unfailing : ∀ error, (e.runWith executor).1 ≠ .error (.task error)
  unstruck : ∀ fault, (e.runWith executor).1 ≠ .error (.struck fault)
  calm : ∀ result, (e.runWith executor).1 = .ok result → result.outcome ≠ .cancelled

/-- A run that is not broken off has a result: there is no third way to fail for an engine that has not
run yet. -/
theorem unbroken_runs {e : Engine γ M} {executor : Nat → Executor (Board M)} (fresh : e.Fresh)
    (unbroken : e.Unbroken executor) :
    ∃ result after, e.runWith executor = (.ok result, after) ∧ result.outcome ≠ .cancelled := by
  obtain ⟨unfailing, unstruck, calm⟩ := unbroken
  cases ran : e.runWith executor with
  | mk comes after =>
    rw [ran] at unfailing unstruck calm
    cases comes with
    | ok result => exact ⟨result, after, rfl, calm result rfl⟩
    | error error =>
      cases error with
      | task error => exact absurd rfl (unfailing error)
      | struck fault => exact absurd rfl (unstruck fault)
      | alreadyRan state =>
        rw [runWith_eq fresh.state] at ran
        split at ran
        · cases ran
        · next job board prepared =>
          have comes := (Prod.mk.inj ran).1
          rw [resultOf] at comes
          split at comes
          · split at comes <;> cases comes
          · cases comes
          · cases comes

/-- A course is cancelled by the flag alone, and the flag would still be raised. -/
theorem Undisturbed.unbroken {e : Engine γ M} {executor : Nat → Executor (Board M)} (fresh : e.Fresh)
    (turns : ∀ s, (executor s).TakesTurns Board.raised) (undisturbed : e.Undisturbed executor) :
    e.Unbroken executor := by
  refine ⟨undisturbed.unfailing, undisturbed.unstruck, fun result ran cancelled => ?_⟩
  have lowered := undisturbed.lowered
  rw [runWith_eq fresh.state] at ran lowered
  cases prepared : e.prepare executor with
  | error fault => simp [prepared] at ran
  | ok made =>
    obtain ⟨job, board⟩ := made
    simp only [prepared] at ran lowered
    obtain ⟨schema, mail, spans, _, _, _, rfl, _⟩ := prepare_ok prepared
    have ended := (resultOf_ok ran).1
    rw [cancelled] at ended
    have raised := Job.proceed_cancelled ⟨e.graph, e.computation, spans, executor⟩ turns _ _ rfl ended
    rw [after, raised] at lowered
    cases lowered

theorem undisturbed_runs {e : Engine γ M} {executor : Nat → Executor (Board M)} (fresh : e.Fresh)
    (turns : ∀ s, (executor s).TakesTurns Board.raised) (undisturbed : e.Undisturbed executor) :
    ∃ result after, e.runWith executor = (.ok result, after) ∧ result.outcome ≠ .cancelled :=
  unbroken_runs fresh (undisturbed.unbroken fresh turns)

/-! ## The theorem -/

/-- Where a run stops, told by its record and by the votes that its supersteps leave. -/
structure Stops (e : Engine γ M) (job : Job γ M) (board : Board M) (result : RunResult)
    (record : List (Event M)) : Prop where
  asks : job.Asked board result.supersteps record
  /-- No superstep follows a conclusive one, also if it is the last that is allowed. -/
  settles : ∀ s, job.Conclusive board (GraphView.nodeCount e.graph) record s →
    s + 1 ≤ e.config.maxIterations.toNat ∧
      (∀ t < s, ¬ job.Conclusive board (GraphView.nodeCount e.graph) record t) ∧
      result.outcome = .converged ∧ result.supersteps = s + 1
  /-- Without a conclusive superstep all supersteps that are allowed are done. -/
  none : (∀ s < e.config.maxIterations.toNat,
      ¬ job.Conclusive board (GraphView.nodeCount e.graph) record s) →
    result.outcome = .maxIterations ∧ result.supersteps = e.config.maxIterations.toNat

theorem Account.asked {e after : Engine γ M} {executor : Nat → Executor (Board M)} {result : RunResult}
    {schema : Schema} {job : Job γ M} {board : Board M}
    (account : e.Account executor result after schema job board)
    (steps : job.Steps schema (GraphView.nodeCount e.graph) board result.supersteps) :
    job.Asked board result.supersteps after.record.toList := by
  -- choose the events and the answer of every superstep at once
  have each : ∀ s, ∃ (acts : List (Event M)) (answer : Bool), s < result.supersteps →
      job.segment board s =
        acts ++ [.master s (job.left s (job.boardAt board s)).store, .answer s answer] ∧
      (∀ event ∈ acts, event.superstep = s ∧ event.node? ≠ Option.none) ∧
      job.Asks s (job.boardAt board s) answer := by
    intro s
    by_cases below : s < result.supersteps
    · obtain ⟨letters, stop, stepped⟩ := steps s below
      obtain ⟨acts, recorded, segment⟩ := stepped.segment_eq
      refine ⟨acts, stop, fun _ => ⟨segment, fun event member => ?_, stepped.asks⟩⟩
      obtain ⟨superstep, node, _, of⟩ := recorded.own event member
      exact ⟨superstep, by simp [of]⟩
    · exact ⟨[], false, fun above => absurd above below⟩
  choose acts answer split using each
  refine ⟨acts, answer, ?_, fun s below => (split s below).2⟩
  rw [account.record_eq steps, List.flatMap_def, List.flatMap_def]
  congr 1
  exact List.map_congr_left fun s member => (split s (List.mem_range.mp member)).1

/-- A run whose supersteps do what the deeds say stops with its first conclusive one, or with the last that is
allowed. -/
theorem Account.stops {e after : Engine γ M} {executor : Nat → Executor (Board M)} {result : RunResult}
    {schema : Schema} {job : Job γ M} {board : Board M}
    (account : e.Account executor result after schema job board)
    (steps : job.Steps schema (GraphView.nodeCount e.graph) board result.supersteps) :
    e.Stops job board result after.record.toList where
  asks := account.asked steps
  settles s conclusive := by
    obtain ⟨converged, counted⟩ := account.last_of_conclusive steps conclusive
    obtain ⟨t, last, allowed, _⟩ := account.reached.last converged
    refine ⟨by omega, fun t earlier before => ?_, converged, counted⟩
    have same := (account.last_of_conclusive steps before).2
    omega
  none inconclusive := by
    rcases account.reached.ends with ⟨converged, _⟩ | all
    · obtain ⟨s, last, allowed, settled⟩ := account.reached.last converged
      exact absurd ((account.conclusive_iff steps (by omega)).mpr settled) (inconclusive s allowed)
    · exact all

/-- A run that nothing disturbs comes to a result, and stops with its first conclusive superstep or with
the last one that is allowed. -/
theorem stopping_rule {e : Engine γ M} {executor : Nat → Executor (Board M)} (fresh : e.Fresh)
    (turns : ∀ s, (executor s).TakesTurns Board.raised) (undisturbed : e.Undisturbed executor) :
    ∃ result after job board, e.runWith executor = (.ok result, after) ∧
      e.prepare executor = .ok (job, board) ∧ e.Stops job board result after.record.toList := by
  obtain ⟨result, after, ran, calm⟩ := undisturbed_runs fresh turns undisturbed
  obtain ⟨schema, job, board, account⟩ := Engine.account fresh ran calm
  exact ⟨result, after, job, board, ran, account.prepared, account.stops (account.steps turns)⟩

theorem undisturbed_greeting : greetingEngine.Undisturbed greetingEngine.onPool := by
  obtain ⟨result, ran, _⟩ := greeting_runs
  have ok : (greetingEngine.runWith greetingEngine.onPool).1 = .ok result := ran
  exact ⟨by simp [ok], by simp [ok], by decide +kernel⟩

/-- Two nodes that greet each other stop, although they could go on. -/
theorem stopping_rule_greeting : greetingEngine.Undisturbed greetingEngine.onPool ∧
    ∃ result after job board, greetingEngine.run = (.ok result, after) ∧
      greetingEngine.prepare greetingEngine.onPool = .ok (job, board) ∧
      greetingEngine.Stops job board result after.record.toList :=
  ⟨undisturbed_greeting, stopping_rule fresh_greeting
    (fun s => (inSequence_onPool _ s).takesTurns) undisturbed_greeting⟩

end Engine
end BulkSync
