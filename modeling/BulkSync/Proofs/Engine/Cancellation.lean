import BulkSync.Proofs.Engine.Lifecycle
import BulkSync.Proofs.Engine.Record
import BulkSync.Proofs.Engine.Values
import BulkSync.Proofs.Property.Refinement

/-! # Supersteps that are cut off

A batch of tasks none of which fails has visited its nodes, in the order of the tasks, up to the first one that raises
the stop flag (`Job.batch_walked`). Executed in sequence these are the first nodes. The run is then cancelled with the
supersteps before, and of the last one it keeps what those nodes have done (`Engine.cancellation`). A superstep that
ends well has visited all nodes, so that the progress meter counts every node in each of them. -/

namespace BulkSync

variable {γ M : Type} [GraphView γ] [Element M]

/-- If a node is the first one to raise the stop flag, then the nodes up to it are the first ones. -/
theorem untilRaised_range {M : Type} {deed : Nat → Deed M} {v n : Nat} (inside : v < n)
    (calm : ∀ u < v, (deed u).raised = false) (raises : (deed v).raised = true) :
    untilRaised deed (List.range n) = List.range (v + 1) := by
  obtain ⟨rest, rfl⟩ := Nat.exists_eq_add_of_le inside
  have before : raisedIn deed (List.range v) = false :=
    List.any_eq_false.mpr fun u member => by simp [calm u (List.mem_range.mp member)]
  have upTo : raisedIn deed (List.range (v + 1)) = true :=
    List.any_eq_true.mpr ⟨v, List.mem_range.mpr (Nat.lt_succ_self v), raises⟩
  rw [List.range_add, untilRaised_append_of_raised upTo, List.range_succ, untilRaised_append before, untilRaised,
    raises]
  rfl

namespace Job

variable {job : Job γ M} {schema : Schema} {nodes superstep : Nat} {b c : Board M} {verdict : Verdict} {after : Board M}

/-! ## Batches -/

/-- A batch that does not fail has visited its nodes up to the first one that raises the stop flag. -/
theorem batch_walked (tile : Span.Tile 0 job.spans nodes) {order : List Nat}
    (all : order.Perm (List.range job.spans.length)) (store : PropertyStore.Regular schema nodes b.store)
    (votes : BitSet.Regular nodes b.votes) (down : b.raised = false) {result : Completion}
    (ran : inOrder Board.raised order (job.tasks superstep) b = (.ok result, c)) :
    b.Walked schema nodes (job.deed schema superstep b)
      (untilRaised (job.deed schema superstep b) (order.flatMap job.nodesOf)) c ∧
    (∀ node ∈ untilRaised (job.deed schema superstep b) (order.flatMap job.nodesOf),
      job.Acts schema superstep b node) ∧
    result = completion c.raised := by
  rw [tasks_eq] at ran
  rw [← and_assoc]
  refine inOrder_ran (fun slots s => b.Walked schema nodes (job.deed schema superstep b)
      (untilRaised (job.deed schema superstep b) (slots.flatMap job.nodesOf)) s ∧
    ∀ node ∈ untilRaised (job.deed schema superstep b) (slots.flatMap job.nodesOf), job.Acts schema superstep b node)
    ?_ ?_ (lt_length_works all) ⟨.nil store votes, nofun⟩ ran
  · rintro slots slot todo split inside s t ⟨walked, acts⟩ calm worked
    obtain ⟨bound, work⟩ := getElem_works inside
    rw [work] at worked
    obtain ⟨nodesInside, fresh⟩ := nodesOf_fresh tile all split
    -- the flag is down, so that all nodes of the tasks before have been visited
    have none : raisedIn (job.deed schema superstep b) (slots.flatMap job.nodesOf) = false := by
      have raised := walked.raised
      rw [calm, down, raisedIn_untilRaised] at raised
      exact raised.symm
    rw [untilRaised_eq_self none] at walked acts
    have same : ∀ node ∈ job.nodesOf slot, b.Same node s := fun node member =>
      ⟨walked.worked.share (nodesInside node member) (fresh node member), (walked.inbox node).1⟩
    obtain ⟨further, -, -, actsToo⟩ :=
      action_walked bound nodesInside same walked.worked.store walked.worked.votes calm worked rfl
    rw [List.flatMap_append, List.flatMap_cons, List.flatMap_nil, List.append_nil, untilRaised_append none]
    exact ⟨walked.trans further, fun node member => (List.mem_append.mp member).elim (acts node) (actsToo node)⟩
  · rintro slots slot s ⟨walked, acts⟩ up
    have some : raisedIn (job.deed schema superstep b) (slots.flatMap job.nodesOf) = true := by
      have raised := walked.raised
      rw [up, down, raisedIn_untilRaised] at raised
      exact raised.symm
    rw [List.flatMap_append, untilRaised_append_of_raised some]
    exact ⟨walked, acts⟩

/-! ## Supersteps -/

/-- What the tasks of a superstep leave, if none of them fails. -/
theorem executed_walked (tile : Span.Tile 0 job.spans nodes) (turns : (job.executor superstep).TakesTurns Board.raised)
    (store : PropertyStore.Regular schema nodes b.store) (votes : BitSet.Regular nodes b.votes)
    (down : b.raised = false)
    (unfailing : ∀ error c, job.executor superstep (job.tasks superstep) (job.opened b) ≠ (.error error, c)) :
    ∃ order : List Nat, order.Perm (List.range job.spans.length) ∧
      ((job.executor superstep).InSequence Board.raised → order = List.range job.spans.length) ∧
      (job.opened b).Walked schema nodes (job.deed schema superstep b)
        (untilRaised (job.deed schema superstep b) (order.flatMap job.nodesOf)) (job.left superstep b) ∧
      (∀ node ∈ untilRaised (job.deed schema superstep b) (order.flatMap job.nodesOf),
        job.Acts schema superstep b node) ∧
      job.executor superstep (job.tasks superstep) (job.opened b) =
        (.ok (completion (job.left superstep b).raised), job.left superstep b) := by
  obtain ⟨order, all, executed, sequential⟩ := executed_in_order turns b
  match ran : job.executor superstep (job.tasks superstep) (job.opened b) with
  | (.error error, c) => exact absurd ran (unfailing error c)
  | (.ok result, c) =>
    have left : job.left superstep b = c := by rw [Job.left, ran]
    rw [ran] at executed
    have storeToo : PropertyStore.Regular schema nodes (job.opened b).store := store
    have votesToo : BitSet.Regular nodes (job.opened b).votes := votes
    obtain ⟨walked, acts, rfl⟩ := batch_walked tile all storeToo votesToo down executed.symm
    rw [deed_opened] at walked acts
    exact ⟨order, all, sequential, left ▸ walked, fun node member => acts_opened (acts node member), by rw [left]⟩

/-- A superstep that ends well counts every node. -/
theorem superstep_counted (tile : Span.Tile 0 job.spans nodes)
    (turns : (job.executor superstep).TakesTurns Board.raised)
    (store : PropertyStore.Regular schema nodes b.store) (votes : BitSet.Regular nodes b.votes)
    (ran : job.superstep superstep b = (verdict, after)) (goesOn : verdict = .settled ∨ verdict = .proceed) :
    Counted nodes b.progress after.progress := by
  obtain ⟨finished, concluded⟩ := superstep_finished ran goesOn
  have down : b.raised = false := by
    obtain ⟨order, -, executed, -⟩ := executed_in_order turns b
    rw [finished] at executed
    cases flag : b.raised with
    | false => rfl
    | true =>
      have up : (job.opened b).raised = true := flag
      rw [inOrder_raised up] at executed
      cases executed
  obtain ⟨order, all, -, walked, -, ended⟩ := executed_walked tile turns store votes down
    fun error c failed => by simp [finished] at failed
  -- the flag is down in the end as well, so that no node has been left out
  have calm : (job.left superstep b).raised = false := by
    rw [finished] at ended
    cases flag : (job.left superstep b).raised with
    | false => rfl
    | true => simp [completion, flag] at ended
  have none : raisedIn (job.deed schema superstep b) (order.flatMap job.nodesOf) = false := by
    have raised := walked.raised
    rw [calm, raisedIn_untilRaised] at raised
    exact (Bool.or_eq_false_iff.mp raised.symm).2
  have counted := walked.progress
  rw [untilRaised_eq_self none, (visited_perm tile all).length_eq, List.length_range] at counted
  have framed := job.conclude_framed superstep (job.left superstep b)
  rw [concluded] at framed
  rw [framed.progress]
  exact counted

/-! ## Courses -/

variable {slots count : Nat} {letters : List (Nat × M)}

theorem boardAt_ready (tile : Span.Tile 0 job.spans nodes) (turns : ∀ s, (job.executor s).TakesTurns Board.raised)
    (ready : b.Ready schema nodes slots job.computation.reducer letters)
    (goesOn : ∀ s < count, job.verdictAt b s = .settled ∨ job.verdictAt b s = .proceed) :
    ∃ slots letters, (job.boardAt b count).Ready schema nodes slots job.computation.reducer letters := by
  cases count with
  | zero => exact ⟨slots, letters, ready⟩
  | succ count =>
    obtain ⟨order, stop, stepped⟩ := boardAt_stepped (fun s => reliable_of_turns tile (turns s)) ready goesOn count (Nat.lt_succ_self count)
    exact ⟨_, _, stepped.ready⟩

/-- Every superstep counts every node, whether it computes or not. -/
theorem boardAt_counted (tile : Span.Tile 0 job.spans nodes) (turns : ∀ s, (job.executor s).TakesTurns Board.raised)
    (ready : b.Ready schema nodes slots job.computation.reducer letters)
    (goesOn : ∀ s < count, job.verdictAt b s = .settled ∨ job.verdictAt b s = .proceed) :
    Counted (count * nodes) b.progress (job.boardAt b count).progress := by
  induction count with
  | zero =>
    rw [Nat.zero_mul]
    exact .zero b.progress
  | succ count inductionHypothesis =>
    have before := fun s (below : s < count) => goesOn s (Nat.lt_succ_of_lt below)
    obtain ⟨_, _, readyHere⟩ := boardAt_ready tile turns ready before
    rw [Nat.succ_mul]
    exact (inductionHypothesis before).trans (superstep_counted tile (turns count) readyHere.store readyHere.votes
      (job.superstep_boardAt b count) (goesOn count (Nat.lt_succ_self count)))

/-- A superstep that is executed in sequence is cut off behind the first node that raises the stop flag. -/
theorem cut_walked (tile : Span.Tile 0 job.spans nodes) (sequential : (job.executor superstep).InSequence Board.raised)
    (store : PropertyStore.Regular schema nodes b.store) (votes : BitSet.Regular nodes b.votes)
    (down : b.raised = false) {v : Nat} (inside : v < nodes)
    (calm : ∀ u < v, (job.deed schema superstep b u).raised = false)
    (raises : (job.deed schema superstep b v).raised = true)
    (unfailing : ∀ error c, job.executor superstep (job.tasks superstep) (job.opened b) ≠ (.error error, c)) :
    (job.opened b).Walked schema nodes (job.deed schema superstep b) (List.range (v + 1)) (job.left superstep b) ∧
      (∀ node ≤ v, job.Acts schema superstep b node) ∧
      job.superstep superstep b = (.cancelled, job.left superstep b) := by
  obtain ⟨order, -, inSequence, walked, acts, ended⟩ :=
    executed_walked tile sequential.takesTurns store votes down unfailing
  rw [inSequence sequential, flatMap_nodesOf tile, untilRaised_range inside calm raises] at walked acts
  have up : (job.left superstep b).raised = true := by
    have some : raisedIn (job.deed schema superstep b) (List.range (v + 1)) = true :=
      List.any_eq_true.mpr ⟨v, List.mem_range.mpr (Nat.lt_succ_self v), raises⟩
    rw [walked.raised, some, Bool.or_true]
  refine ⟨walked, fun node upTo => acts node (List.mem_range.mpr (Nat.lt_succ_of_le upTo)), ?_⟩
  rw [superstep_eq, ended, up]
  rfl

theorem Leads.goesOn {s : Nat} (leads : job.Leads b s) :
    ∀ t < s, job.verdictAt b t = .settled ∨ job.verdictAt b t = .proceed :=
  fun t earlier => .inr (leads t earlier).2

/-- A course gets to a superstep behind others that lead to it. -/
theorem proceed_at {limit s : Nat} (leads : job.Leads b s) (below : s < limit) :
    ∃ remaining, job.proceed limit 0 b = job.proceed (remaining + 1) s (job.boardAt b s) := by
  obtain ⟨remaining, rfl⟩ := Nat.exists_eq_add_of_lt below
  exact ⟨remaining, by rw [Nat.add_assoc, proceed_leads leads]⟩

theorem proceed_cut {limit s : Nat} (leads : job.Leads b s) (below : s < limit)
    (down : (job.boardAt b s).raised = false) (cut : job.superstep s (job.boardAt b s) = (.cancelled, c)) :
    job.proceed limit 0 b = ⟨.reached .cancelled, s, c⟩ := by
  obtain ⟨remaining, here⟩ := proceed_at leads below
  rw [here, proceed, down, cut]
  rfl

/-! ## The record of a superstep that is cut off -/

section Record

variable {s count : Nat} {before record : List (Event M)}
  (recorded : record = before ++ (List.range count).flatMap fun node => (job.deed schema s b node).events)
  (earlier : ∀ event ∈ before, event.superstep < s) (acts : ∀ node < count, job.Acts schema s b node)
include recorded earlier acts

theorem eventsOf_cut (node : Nat) :
    eventsOf record s node = if node < count then (job.deed schema s b node).events else [] := by
  have none : eventsOf before s node = [] :=
    List.filter_eq_nil_iff.mpr fun event member of => Nat.ne_of_lt (earlier event member) (Event.isOf_iff.mp of).1
  have deeds := Job.eventsOf_deeds List.nodup_range (fun node member => acts node (List.mem_range.mp member)) node
  rw [eventsOf] at none deeds
  rw [recorded, eventsOf, List.filter_append, none, List.nil_append, deeds]
  exact if_congr List.mem_range rfl rfl

theorem computesOf_cut (node : Nat) :
    computesOf record s node = if node < count ∧ b.wakes node then [b.mail.messages node] else [] := by
  rw [← computesOf_eventsOf, eventsOf_cut recorded earlier acts]
  by_cases inside : node < count
  · rw [if_pos inside, (acts node inside).computesOf_events]
    exact if_congr (and_iff_right inside).symm rfl rfl
  · rw [if_neg inside, if_neg fun both => inside both.1]
    rfl

theorem actor_cut {event : Event M} (member : event ∈ record) (superstep : event.superstep = s) :
    ∃ node < count, event.node? = some node := by
  rw [recorded] at member
  rcases List.mem_append.mp member with before | deeds
  · exact absurd superstep (Nat.ne_of_lt (earlier event before))
  · obtain ⟨node, visited, own⟩ := List.mem_flatMap.mp deeds
    have inside := List.mem_range.mp visited
    exact ⟨node, inside, (Event.isOf_iff.mp ((acts node inside).isOf event own)).2⟩

theorem setup_mem_cut (first : s = 0) (node : Nat) : .setup node ∈ record ↔ node < count := by
  constructor
  · intro member
    obtain ⟨actor, inside, same⟩ := actor_cut recorded earlier acts member first.symm
    cases same
    exact inside
  · intro inside
    obtain ⟨rest, -, events, -⟩ := (acts node inside).shape
    have own : .setup node ∈ eventsOf record s node := by
      rw [eventsOf_cut recorded earlier acts, if_pos inside, events, if_pos first]
      exact List.mem_append_left _ (List.mem_singleton_self _)
    exact (mem_eventsOf.mp own).1

end Record

end Job

/-! ## Runs -/

namespace Engine

variable {e after : Engine γ M} {executor : Nat → Executor (Board M)} {job : Job γ M} {b : Board M} {schema : Schema}
  {s v : Nat} {result : RunResult}

/-- A run enters a superstep in which no task fails and some nodes raise the stop flag, this one first. -/
structure RaisesFirst (e : Engine γ M) (executor : Nat → Executor (Board M)) (job : Job γ M) (b : Board M)
    (schema : Schema) (s v : Nat) : Prop where
  enters : e.Enters executor s job b
  declared : e.computation.schema = .ok schema
  inside : v < GraphView.nodeCount e.graph
  calm : ∀ u < v, (job.deed schema s b u).raised = false
  raises : (job.deed schema s b v).raised = true
  unfailing : ∀ error c, job.executor s (job.tasks s) (job.opened b) ≠ (.error error, c)

/-- What comes of a run that is cut off in a superstep behind a node. -/
structure CutOff (e : Engine γ M) (job : Job γ M) (b : Board M) (schema : Schema) (s v : Nat) (result : RunResult)
    (after : Engine γ M) : Prop where
  outcome : result.outcome = .cancelled
  supersteps : result.supersteps = s
  state : after.state = .ended .cancelled
  record : after.record.toList = b.record.toList ++
    (List.range (v + 1)).flatMap fun node => (job.deed schema s b node).events
  /-- In that superstep the nodes up to this one act, and nobody else does anything. -/
  acts : ∀ node ≤ v, job.Acts schema s b node
  others : ∀ event ∈ after.record.toList, event.superstep = s → ∃ node ≤ v, event.node? = some node
  unasked : ∀ store, .master s store ∉ after.record.toList
  setUps : s = 0 → ∀ node, .setup node ∈ after.record.toList ↔ node ≤ v
  computes : ∀ node, computesOf after.record.toList s node =
    if node ≤ v ∧ b.wakes node then [b.mail.messages node] else []
  /-- The values are those in front of the superstep, but for what these nodes have done. -/
  values : ∃ store : PropertyStore, store.exposed = .ok result.values ∧
    ∀ index, ∀ node < GraphView.nodeCount e.graph, store.word index node =
      if node ≤ v then (job.deed schema s b node).row index else b.store.word index node
  zero : s = 0 → ∀ index, ∀ node < GraphView.nodeCount e.graph, b.store.word index node = 0
  progress : Counted (s * GraphView.nodeCount e.graph + (v + 1)) e.progress after.progress

/-- What the job and the board of a run are at first. -/
structure Begins (e : Engine γ M) (executor : Nat → Executor (Board M)) (schema : Schema) (job : Job γ M)
    (start : Board M) : Prop where
  executor : job.executor = executor
  tile : Span.Tile 0 job.spans (GraphView.nodeCount e.graph)
  ready : start.Ready schema (GraphView.nodeCount e.graph) 0 job.computation.reducer []
  store : start.store = .new schema (GraphView.nodeCount e.graph)
  record : start.record = e.record
  progress : start.progress = e.progress

theorem begins {start : Board M} (prepared : e.prepare executor = .ok (job, start)) :
    ∃ schema, e.computation.schema = .ok schema ∧ e.Begins executor schema job start := by
  obtain ⟨schema, mail, spans, declared, cut, mailed, rfl, rfl⟩ := prepare_ok prepared
  exact ⟨schema, declared, rfl, tile_spans cut,
    ⟨PropertyStore.regular_new schema _, BitSet.regular_new _, Mail.holds_new mailed⟩, rfl, rfl, rfl⟩

section Begins

variable {start : Board M} (begins : e.Begins executor schema job start)
  (turns : ∀ s, (executor s).TakesTurns Board.raised) (leads : job.Leads start s)
include begins turns leads

theorem Begins.readyAt : ∃ slots letters, (job.boardAt start s).Ready schema (GraphView.nodeCount e.graph) slots
    job.computation.reducer letters :=
  Job.boardAt_ready begins.tile (begins.executor ▸ turns) begins.ready leads.goesOn

theorem Begins.countedAt :
    Counted (s * GraphView.nodeCount e.graph) e.progress (job.boardAt start s).progress :=
  begins.progress ▸ Job.boardAt_counted begins.tile (begins.executor ▸ turns) begins.ready leads.goesOn

/-- The events of earlier supersteps carry other numbers. -/
theorem Begins.earlier (fresh : e.Fresh) :
    ∀ event ∈ (job.boardAt start s).record.toList, event.superstep < s := by
  have blank : start.record = #[] := begins.record.trans fresh.record
  have steps := Job.boardAt_stepped
    (fun s => Job.reliable_of_turns begins.tile (begins.executor ▸ turns s)) begins.ready leads.goesOn
  exact fun event member => (Job.mem_record_boardAt steps blank member).1

end Begins

theorem RaisesFirst.cutOff (fresh : e.Fresh) (sequential : ∀ s, (executor s).InSequence Board.raised)
    (raises : e.RaisesFirst executor job b schema s v) (distinct : (schema.exposed.map (·.key)).Nodup) :
    ∃ result after, e.runWith executor = (.ok result, after) ∧ e.CutOff job b schema s v result after := by
  obtain ⟨start, prepared, below, leads, rfl, down⟩ := raises.enters
  obtain ⟨_, declared, begins⟩ := begins prepared
  cases raises.declared.symm.trans declared
  have inSequence : (job.executor s).InSequence Board.raised := begins.executor ▸ sequential s
  have turns : ∀ s, (executor s).TakesTurns Board.raised := fun s => (sequential s).takesTurns
  have earlier := begins.earlier turns leads fresh
  obtain ⟨_, _, ready⟩ := begins.readyAt turns leads
  obtain ⟨walked, acts, cut⟩ := Job.cut_walked begins.tile inSequence ready.store ready.votes down
    raises.inside raises.calm raises.raises raises.unfailing
  obtain ⟨values, exposed⟩ := walked.worked.store.exposed_succeeds_iff.mpr distinct
  have course := Job.proceed_cut leads below down cut
  have record : (job.left s (job.boardAt start s)).record.toList = (job.boardAt start s).record.toList ++
      (List.range (v + 1)).flatMap fun node => (job.deed schema s (job.boardAt start s) node).events :=
    walked.worked.record
  refine ⟨⟨values, s, .cancelled⟩, e.after ⟨.reached .cancelled, s, job.left s (job.boardAt start s)⟩, ?_, ?_⟩
  · rw [runWith_eq fresh.state, prepared]
    dsimp only
    rw [course, resultOf]
    simp only [exposed]
  have actsBelow : ∀ node < v + 1, job.Acts schema s (job.boardAt start s) node :=
    fun node below => acts node (Nat.le_of_lt_succ below)
  exact
    { outcome := rfl
      supersteps := rfl
      state := rfl
      record, acts
      others := fun event member superstep => by
        obtain ⟨node, below, actor⟩ := Job.actor_cut record earlier actsBelow member superstep
        exact ⟨node, Nat.le_of_lt_succ below, actor⟩
      unasked := fun store asked => by
        obtain ⟨_, -, actor⟩ := Job.actor_cut record earlier actsBelow asked rfl
        cases actor
      setUps := fun first node => (Job.setup_mem_cut record earlier actsBelow first node).trans Nat.lt_succ_iff
      computes := fun node => (Job.computesOf_cut record earlier actsBelow node).trans
        (if_congr (and_congr_left' Nat.lt_succ_iff) rfl rfl)
      values := by
        refine ⟨_, exposed, fun index node inside => (walked.worked.word index node inside).trans ?_⟩
        exact if_congr (List.mem_range.trans Nat.lt_succ_iff) rfl rfl
      zero := by
        rintro rfl index node inside
        rw [Job.boardAt, begins.store]
        exact PropertyStore.word_new schema inside index
      progress := by
        have further := walked.progress
        rw [List.length_range] at further
        exact (begins.countedAt turns leads).trans further }

/-- A course is counted node by node if it is not cancelled. -/
theorem progress_uncancelled (fresh : e.Fresh) (turns : ∀ s, (executor s).TakesTurns Board.raised)
    (ran : e.runWith executor = (.ok result, after)) (calm : result.outcome ≠ .cancelled) :
    Counted (result.supersteps * GraphView.nodeCount e.graph) e.progress after.progress := by
  rw [runWith_eq fresh.state] at ran
  cases prepared : e.prepare executor with
  | error fault =>
    rw [prepared] at ran
    cases ran
  | ok made =>
    obtain ⟨job, start⟩ := made
    rw [prepared] at ran
    obtain ⟨comes, rfl⟩ := Prod.mk.inj ran
    obtain ⟨ended, completed, -⟩ := resultOf_ok comes
    obtain ⟨reached, final⟩ := Job.proceed_reached calm e.config.maxIterations.toNat 0 rfl ended
    obtain ⟨schema, -, begins⟩ := begins prepared
    rw [Job.boardAt, completed] at reached final
    have counted := Job.boardAt_counted begins.tile (begins.executor ▸ turns) begins.ready
      fun s below => reached.goesOn s (Nat.zero_le s) below
    rw [begins.progress, ← final] at counted
    exact counted

/-- Where tasks are executed in sequence, as on a pool (`inSequence_onPool`): a run that enters a superstep in which a
node is the first one to raise the stop flag, and in which no task fails, is cancelled behind this node; it returns its
values, unless two of them have one key (`returns_iff`). A run that is not cancelled has looked at every node in every
superstep. -/
theorem cancellation (fresh : e.Fresh) (sequential : ∀ s, (executor s).InSequence Board.raised) :
    (∀ job b schema s v, e.RaisesFirst executor job b schema s v → (schema.exposed.map (·.key)).Nodup →
      ∃ result after, e.runWith executor = (.ok result, after) ∧ e.CutOff job b schema s v result after) ∧
    ∀ result after, e.runWith executor = (.ok result, after) → result.outcome ≠ .cancelled →
      Counted (result.supersteps * GraphView.nodeCount e.graph) e.progress after.progress :=
  ⟨fun _ _ _ _ _ raises distinct => raises.cutOff fresh sequential distinct,
    fun _ _ ran calm => progress_uncancelled fresh (fun s => (sequential s).takesTurns) ran calm⟩

/-! ### Three nodes, of which one stops the run -/

/-- Every node keeps the number of supersteps that it has seen, and in the second one the node in the middle raises the
stop flag. -/
def stopping : Computation Int64 where
  schema := Schema.ofList [⟨"seen", .long, .exposed⟩]
  compute view _ := do
    VertexContext.setLong "seen" (Int64.ofNat (view.superstep + 1))
    if view.superstep = 1 ∧ view.node = 1 then VertexContext.raise

/-- The node stands at the end of the first of two tasks. -/
def stoppingEngine : Engine RowGraph Int64 where
  graph := ⟨Rows.ofLists [[1], [2], [0]], none⟩
  computation := stopping
  config := { greetingEngine.config with partitioning := .range }
  progress := some (.new "stopping" 9)

def stoppingJob : Job RowGraph Int64 := ⟨stoppingEngine.graph, stopping, [⟨0, 2⟩, ⟨2, 1⟩], stoppingEngine.onPool⟩

def stoppingSchema : Schema := ⟨[⟨"seen", .long, .exposed⟩]⟩

def stoppingStart : Board Int64 :=
  ⟨.new stoppingSchema 3, .new 3, .queue (.new 3), false, false, some (.new "stopping" 9), #[]⟩

theorem raisesFirst_stopping : stoppingEngine.RaisesFirst stoppingEngine.onPool stoppingJob
    (stoppingJob.boardAt stoppingStart 1) stoppingSchema 1 1 where
  enters := by
    have goesOn : (match stoppingJob.verdictAt stoppingStart 0 with | .proceed => true | _ => false) = true ∧
        (stoppingJob.boardAt stoppingStart 1).raised = false := by decide +kernel
    refine ⟨stoppingStart, rfl, by decide, fun t first => ?_, rfl, goesOn.2⟩
    obtain rfl := Nat.lt_one_iff.mp first
    refine ⟨rfl, ?_⟩
    have proceeds := goesOn.1
    generalize stoppingJob.verdictAt stoppingStart 0 = verdict at proceeds ⊢
    cases verdict <;> first | rfl | cases proceeds
  declared := rfl
  inside := by decide
  calm := by decide +kernel
  raises := by decide +kernel
  unfailing := by
    intro error c failed
    have fine : (stoppingJob.executor 1 (stoppingJob.tasks 1)
        (stoppingJob.opened (stoppingJob.boardAt stoppingStart 1))).1.isOk = true := by decide +kernel
    rw [failed] at fine
    cases fine

/-- The two nodes that greet each other, with a meter. -/
def countedEngine : Engine RowGraph Int64 := { greetingEngine with progress := some (.new "greeting" 4) }

/-- The first two nodes have seen two supersteps and the last one has seen one, so that five nodes have been looked
at. The two nodes that greet each other are looked at twice. -/
theorem cancellation_stopping :
    (∃ result after, stoppingEngine.run = (.ok result, after) ∧ result.outcome = .cancelled ∧ result.supersteps = 1 ∧
      after.progress = some ⟨"stopping", 9, 5⟩ ∧
      (computesOf after.record.toList 1 1).length = 1 ∧ computesOf after.record.toList 1 2 = [] ∧
      ∃ store : PropertyStore, store.exposed = .ok result.values ∧ store.word 0 0 = 2 ∧ store.word 0 1 = 2 ∧
        store.word 0 2 = 1) ∧
    ∃ result after, countedEngine.run = (.ok result, after) ∧ after.progress = some ⟨"greeting", 4, 4⟩ := by
  constructor
  · obtain ⟨cutOff, -⟩ := cancellation (e := stoppingEngine) ⟨rfl, rfl, rfl⟩ (inSequence_onPool stoppingEngine)
    obtain ⟨result, after, ran, cut⟩ := cutOff _ _ _ _ _ raisesFirst_stopping (by decide)
    obtain ⟨store, exposed, words⟩ := cut.values
    have facts : (stoppingJob.boardAt stoppingStart 1).wakes 1 = true ∧
        (stoppingJob.deed stoppingSchema 1 (stoppingJob.boardAt stoppingStart 1) 0).row 0 = 2 ∧
        (stoppingJob.deed stoppingSchema 1 (stoppingJob.boardAt stoppingStart 1) 1).row 0 = 2 ∧
        (stoppingJob.boardAt stoppingStart 1).store.word 0 2 = 1 := by decide +kernel
    refine ⟨result, after, ran, cut.outcome, cut.supersteps, (cut.progress.some _ rfl (by decide)).1, ?_, ?_, store,
      exposed, ?_, ?_, ?_⟩
    · rw [cut.computes, if_pos ⟨Nat.le_refl 1, facts.1⟩]
      rfl
    · rw [cut.computes]
      rfl
    · rw [words 0 0 (by decide), if_pos (by decide)]
      exact facts.2.1
    · rw [words 0 1 (by decide), if_pos (by decide)]
      exact facts.2.2.1
    · rw [words 0 2 (by decide), if_neg (by decide)]
      exact facts.2.2.2
  · obtain ⟨-, uncancelled⟩ := cancellation (e := countedEngine) ⟨rfl, rfl, rfl⟩ (inSequence_onPool countedEngine)
    have evaluated : countedEngine.run.1.toOption.map (fun r => (r.supersteps, r.outcome)) = some (2, .converged) := by
      decide +kernel
    match ran : countedEngine.run with
    | (.error error, after) => simp [ran, Except.toOption] at evaluated
    | (.ok result, after) =>
      simp only [ran, Except.toOption, Option.map_some, Option.some.injEq, Prod.mk.injEq] at evaluated
      have counted := uncancelled result after ran (by simp [evaluated.2])
      rw [evaluated.1] at counted
      exact ⟨result, after, rfl, (counted.some _ rfl (by decide)).1⟩

end Engine
end BulkSync
