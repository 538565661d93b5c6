import BulkSync.Proofs.Algorithms.Spreading
import BulkSync.Proofs.Engine.Letters

/-! # Connected components

When every node spreads the least number that it has heard of, in front of every superstep it finds its
label of the round before and messages that make it the next one (`Front`). Each superstep keeps that so
(`Job.Spreads.step`), and the one that settles the run is one in which no label has changed, so that all of
them are least ones. As labels need no more rounds than there are nodes, the run converges in time with the
least node of its component for every node (`components_converge`). -/

namespace BulkSync

open Rows (itemsOf)
open RowGraph (neighborsOf)

/-- A job in which least numbers are spread along the edges of an undirected graph. -/
structure Job.Spreads (job : Job RowGraph Int64) (nodes : Nat) (edges : List (Nat × Nat))
    (reducer : Option (Reducer Int64)) : Prop where
  edgesInside : ∀ edge ∈ edges, edge.1 < nodes ∧ edge.2 < nodes
  small : nodes < 2 ^ 63
  least : reducer = none ∨ reducer = some .min
  graph : job.graph = RowGraph.symmetric nodes edges
  computation : job.computation = components reducer
  tile : Span.Tile 0 job.spans nodes
  turns : ∀ s, (job.executor s).TakesTurns Board.raised

/-- A board in front of a superstep. -/
structure Front (nodes : Nat) (edges : List (Nat × Nat)) (reducer : Option (Reducer Int64)) (superstep : Nat)
    (b : Board Int64) : Prop where
  ready : ∃ slots letters, b.Ready labelSchema nodes slots reducer letters
  calm : b.raised = false
  unmetered : b.progress = none
  finds : ∀ node < nodes, Finds edges node superstep (b.share node) (b.mail.messages node).toList

variable {nodes superstep node : Nat} {edges : List (Nat × Nat)} {reducer : Option (Reducer Int64)}
  {job : Job RowGraph Int64} {b after : Board Int64} {verdict : Verdict}

namespace Job.Spreads

/-! ## Nodes -/

theorem nodeCount (spreads : job.Spreads nodes edges reducer) :
    GraphView.nodeCount job.graph = nodes := by
  rw [spreads.graph, RowGraph.nodeCount_symmetric spreads.edgesInside]

theorem targets (spreads : job.Spreads nodes edges reducer) (inside : node < nodes) :
    Handler.targets job.graph node = .ok (neighborsOf edges node).toArray := by
  rw [spreads.graph, RowGraph.targets_symmetric spreads.edgesInside inside]

theorem neighborInside (spreads : job.Spreads nodes edges reducer) (inside : node < nodes) {other : Nat}
    (neighbor : other ∈ neighborsOf edges node) : other < nodes :=
  ((Connected.of_neighbor neighbor).inside spreads.edgesInside).mp inside

theorem consult_eq (spreads : job.Spreads nodes edges reducer) (superstep : Nat) (b : Board Int64) :
    (job.consult superstep).outcome b = (.ok false, b) := by
  rw [Job.consult, spreads.computation]
  rfl

theorem deed (spreads : job.Spreads nodes edges reducer) (front : Front nodes edges reducer superstep b)
    (inside : node < nodes) : job.Acts labelSchema superstep b node ∧
      Tells edges superstep node (job.deed labelSchema superstep b node) := by
  obtain ⟨deed, visits, tells⟩ :=
    (front.finds node inside).visit rfl rfl reducer (spreads.targets inside)
  rw [← spreads.computation] at visits
  have same : job.deed labelSchema superstep b node = deed := congrArg Prod.snd visits
  rw [Job.Acts, same]
  exact ⟨visits, tells⟩

theorem unfailing (spreads : job.Spreads nodes edges reducer)
    (front : Front nodes edges reducer superstep b) : job.Unfailing labelSchema superstep b := by
  constructor <;> rw [spreads.nodeCount]
  case known =>
    intro node inside targets found target member
    rw [spreads.targets inside] at found
    obtain rfl := Except.ok.inj found
    rw [spreads.nodeCount]
    exact spreads.neighborInside inside (by simpa using member)
  case acts => exact fun node inside => (spreads.deed front inside).1
  case calm => exact fun node inside => (spreads.deed front inside).2.calm
  case inside =>
    intro node inside letter sent
    rw [(spreads.deed front inside).2.letters] at sent
    exact spreads.neighborInside inside (mem_tellings.mp sent).2.1

/-! ## Supersteps -/

/-- What is sent to a node are the labels of the neighbors that have news. -/
theorem mem_sent (spreads : job.Spreads nodes edges reducer)
    (front : Front nodes edges reducer superstep b) {letters : List (Nat × Int64)} {stop : Bool}
    (stepped : job.Stepped labelSchema nodes superstep b letters stop verdict after) {message : Int64} :
    message ∈ itemsOf letters node ↔
      ∃ other < nodes, (node, message) ∈ tellings edges superstep other := by
  rw [Rows.mem_itemsOf, stepped.sent.mem_iff, lettersOf, List.mem_flatMap]
  constructor
  · rintro ⟨other, member, sent⟩
    have inside := List.mem_range.mp member
    exact ⟨other, inside, (spreads.deed front inside).2.letters ▸ sent⟩
  · rintro ⟨other, inside, tells⟩
    exact ⟨other, List.mem_range.mpr inside, (spreads.deed front inside).2.letters.symm ▸ tells⟩

/-- The computation has no say between two supersteps. -/
theorem unasked (spreads : job.Spreads nodes edges reducer) {letters : List (Nat × Int64)} {stop : Bool}
    (stepped : job.Stepped labelSchema nodes superstep b letters stop verdict after) :
    stop = false ∧ after.store = (job.left superstep b).store := by
  obtain ⟨before, asked, answered, kept, _, same⟩ := stepped.consulted
  rw [spreads.consult_eq] at answered
  obtain ⟨answer, rfl⟩ := Prod.mk.inj answered
  exact ⟨(Except.ok.inj answer).symm, same.store.symm.trans kept⟩

theorem next (spreads : job.Spreads nodes edges reducer) (front : Front nodes edges reducer superstep b)
    {letters : List (Nat × Int64)} {stop : Bool}
    (stepped : job.Stepped labelSchema nodes superstep b letters stop verdict after)
    (calm : after.raised = false) (unmetered : after.progress = none) :
    Front nodes edges reducer (superstep + 1) after := by
  have reduces : job.computation.reducer = reducer := by rw [spreads.computation]; rfl
  have ready := stepped.ready
  rw [reduces] at ready
  refine ⟨⟨_, _, ready⟩, calm, unmetered, fun node inside => ?_⟩
  have tells := (spreads.deed front inside).2
  -- the numbers are those that the tasks have left, and the messages are what they have sent
  refine .later superstep ((stepped.vote node inside).trans tells.halted) ?_ ?_
  · rw [Board.share, (spreads.unasked stepped).2]
    exact (stepped.word 0 node inside).trans tells.label
  · rw [(ready.mail.delivered inside).foldl_min spreads.least]
    exact foldl_min_told spreads.edgesInside spreads.small inside _ fun message =>
      spreads.mem_sent front stepped

/-- If nobody has news, all labels are least ones. -/
theorem least_of_quiet (spreads : job.Spreads nodes edges reducer)
    (front : Front nodes edges reducer superstep b)
    (quiet : job.Quiet labelSchema nodes superstep b) (node : Nat) : Least edges superstep node := by
  refine least_of_still spreads.edgesInside (fun node inside => ?_) node
  apply labelOf_inj (Nat.lt_trans inside spreads.small)
  refine (foldl_min_told spreads.edgesInside spreads.small inside [] fun message => ?_).symm
  simp only [List.not_mem_nil, false_iff, not_exists, not_and]
  -- a letter to the node would be one of the deed of a neighbor
  intro other otherInside tells
  rw [← (spreads.deed front otherInside).2.letters, (quiet other otherInside).2] at tells
  cases tells

/-- After as many supersteps as there are nodes nobody has news. -/
theorem quiet_in_time (spreads : job.Spreads nodes edges reducer)
    (front : Front nodes edges reducer superstep b) (late : nodes ≤ superstep) :
    job.Quiet labelSchema nodes superstep b := by
  intro node inside
  have tells := (spreads.deed front inside).2
  refine ⟨tells.halted, ?_⟩
  obtain ⟨round, rfl⟩ : ∃ round, superstep = round + 1 := Nat.exists_eq_succ_of_ne_zero (by omega)
  have still := (least_in_time spreads.edgesInside late inside).still
  simp [tells.letters, tellings, labelOf, still]

theorem step (spreads : job.Spreads nodes edges reducer) (front : Front nodes edges reducer superstep b) :
    ∃ verdict after, job.superstep superstep b = (verdict, after) ∧
      Front nodes edges reducer (superstep + 1) after ∧
      (verdict = .settled ∧ (∀ node, Least edges superstep node) ∨
        verdict = .proceed ∧ superstep < nodes) := by
  obtain ⟨slots, letters, ready⟩ := front.ready
  have reduces : job.computation.reducer = reducer := by rw [spreads.computation]; rfl
  have total : ∀ r, job.computation.reducer = some r → r.Total := by
    intro r some
    rcases spreads.least with none | min
    · rw [reduces, none] at some
      cases some
    · rw [reduces, min] at some
      obtain rfl := Option.some.inj some
      exact fun current message => ⟨_, rfl⟩
  rw [← reduces, ← spreads.nodeCount] at ready
  have tile := spreads.tile
  rw [← spreads.nodeCount] at tile
  have bounded : GraphView.nodeCount job.graph < Word.limit := by
    rw [spreads.nodeCount]
    exact Nat.lt_trans spreads.small (by decide)
  obtain ⟨verdict, after, ran, goesOn, calm, unmetered⟩ :=
    Job.superstep_succeeds tile (spreads.turns superstep) ready front.calm front.unmetered total bounded
      (spreads.consult_eq superstep) (spreads.unfailing front)
  obtain ⟨sent, stop, stepped⟩ :=
    Job.superstep_stepped (Job.reliable_of_turns tile (spreads.turns superstep)) ready ran goesOn
  rw [spreads.nodeCount] at stepped
  refine ⟨verdict, after, ran, spreads.next front stepped calm unmetered, ?_⟩
  have settled := stepped.settled
  simp only [(spreads.unasked stepped).1, Bool.false_eq_true, false_or] at settled
  -- whether the run goes on depends on nothing but whether there are news
  by_cases quiet : job.Quiet labelSchema nodes superstep b
  · exact .inl ⟨settled.mpr quiet, spreads.least_of_quiet front quiet⟩
  · refine .inr ⟨goesOn.resolve_left fun yes => quiet (settled.mp yes), ?_⟩
    exact Nat.lt_of_not_le fun late => quiet (spreads.quiet_in_time front late)

/-- The course of a run that spreads labels: it converges when all labels are least ones. -/
theorem proceed_converges (spreads : job.Spreads nodes edges reducer) (remaining : Nat)
    (front : Front nodes edges reducer superstep b) (early : superstep ≤ nodes)
    (enough : nodes < superstep + remaining) :
    ∃ last after, job.proceed remaining superstep b = ⟨.reached .converged, last + 1, after⟩ ∧
      last ≤ nodes ∧ (∀ node, Least edges last node) ∧ Front nodes edges reducer (last + 1) after := by
  induction remaining generalizing superstep b with
  | zero => omega
  | succ remaining inductionHypothesis =>
    -- a superstep that does not settle the run is not behind the last node
    obtain ⟨verdict, after, ran, next, ⟨rfl, least⟩ | ⟨rfl, before⟩⟩ := spreads.step front
    · refine ⟨superstep, after, ?_, early, least, next⟩
      rw [Job.proceed, if_neg (by simp [front.calm]), ran]
    · rw [Job.proceed, if_neg (by simp [front.calm]), ran]
      exact inductionHypothesis next (by omega) (by omega)

end Job.Spreads

/-! ## Runs -/

theorem Front.readLong (front : Front nodes edges reducer (superstep + 1) b) (inside : node < nodes) :
    b.store.readLong "component" node = .ok (labelOf edges superstep node) := by
  obtain ⟨slots, letters, ready⟩ := front.ready
  cases front.finds node inside with
  | later _ _ label _ =>
    have word : b.store.word 0 node = Element.toWord (labelOf edges superstep node) := label
    rw [ready.store.readLong "component" inside, place_label, mapError_ok, Except.map, word,
      Element.ofWord_toWord]

/-- An engine that spreads least numbers and has not run yet, with a configuration that allows for one
superstep more than there are nodes. -/
structure Engine.Spreads (e : Engine RowGraph Int64) (nodes : Nat) (edges : List (Nat × Nat))
    (reducer : Option (Reducer Int64)) : Prop where
  edgesInside : ∀ edge ∈ edges, edge.1 < nodes ∧ edge.2 < nodes
  least : reducer = none ∨ reducer = some .min
  graph : e.graph = RowGraph.symmetric nodes edges
  computation : e.computation = components reducer
  fresh : e.Fresh
  calm : e.raised = false
  unmetered : e.progress = none
  allowed : nodes + 1 ≤ e.config.maxIterations.toNat
  reservable : e.config.Reservable

namespace Engine.Spreads

variable {e : Engine RowGraph Int64} {executor : Nat → Executor (Board Int64)}

theorem few (spreads : e.Spreads nodes edges reducer) : nodes + 1 < 2 ^ 32 :=
  Nat.lt_of_le_of_lt spreads.allowed e.config.maxIterations.toNat_lt

theorem nodeCount (spreads : e.Spreads nodes edges reducer) : GraphView.nodeCount e.graph = nodes := by
  rw [spreads.graph, RowGraph.nodeCount_symmetric spreads.edgesInside]

theorem prepared (spreads : e.Spreads nodes edges reducer)
    (turns : ∀ s, (executor s).TakesTurns Board.raised) :
    ∃ job board, e.Prepared executor labelSchema job board ∧ job.Spreads nodes edges reducer ∧
      Front nodes edges reducer 0 board := by
  -- node counts are of 32 bits here, so that neither offsets nor lists of runs are too many
  have few := spreads.few
  have declared : e.computation.schema = .ok labelSchema := by
    rw [spreads.computation]
    exact schema_components reducer
  have known : ∀ node < GraphView.nodeCount e.graph, ∃ found, GraphView.degree e.graph node = .ok found := by
    intro node inside
    rw [spreads.nodeCount] at inside
    rw [spreads.graph]
    exact ⟨_, RowGraph.degree_symmetric spreads.edgesInside inside⟩
  have bounded : GraphView.nodeCount e.graph + 1 < Word.limit := by
    rw [spreads.nodeCount]
    exact Nat.lt_trans few (by decide)
  have fits : GraphView.nodeCount e.graph * Span.entryBytes ≤ Word.greatestBytes := by
    rw [spreads.nodeCount]
    have enough : 2 ^ 32 * Span.entryBytes ≤ Word.greatestBytes := by decide
    exact Nat.le_trans (Nat.mul_le_mul_right _ (by omega)) enough
  obtain ⟨job, board, prepared⟩ := e.prepare_succeeds executor declared bounded known fits spreads.reservable
  refine ⟨job, board, prepared, ⟨spreads.edgesInside, by omega, spreads.least,
    prepared.graph.trans spreads.graph, prepared.computation.trans spreads.computation,
    spreads.nodeCount ▸ prepared.tile, prepared.executor ▸ turns⟩, ?_⟩
  have ready := prepared.ready
  rw [spreads.nodeCount, spreads.computation] at ready
  refine ⟨⟨_, _, ready⟩, prepared.raised.trans spreads.calm, prepared.progress.trans spreads.unmetered, ?_⟩
  rw [← spreads.nodeCount]
  intro node inside
  rw [prepared.unread inside]
  exact .first (prepared.votes node inside)

theorem converges (spreads : e.Spreads nodes edges reducer)
    (turns : ∀ s, (executor s).TakesTurns Board.raised) :
    ∃ result after, e.runWith executor = (.ok result, after) ∧ result.outcome = .converged ∧
      result.supersteps ≤ nodes + 1 ∧
      ∀ node < nodes, ∃ label, result.values.readLong "component" node = .ok (Int64.ofNat label) ∧
        IsLeast {other | Connected edges node other} label := by
  obtain ⟨job, board, prepared, jobSpreads, front⟩ := spreads.prepared turns
  obtain ⟨last, final, ran, inTime, least, front⟩ := jobSpreads.proceed_converges
    e.config.maxIterations.toNat front (Nat.zero_le nodes) (by have := spreads.allowed; omega)
  obtain ⟨slots, letters, ready⟩ := front.ready
  have exposed : final.store.exposed = .ok final.store := ready.store.exposed_eq rfl (by decide)
  refine ⟨_, _, prepared.runWith_eq spreads.fresh ran rfl exposed, rfl, by dsimp only; omega, ?_⟩
  exact fun node inside => ⟨labelAfter edges last node, front.readLong inside, (least node).isLeast⟩

end Engine.Spreads

/-! ## The theorem -/

/-- On the undirected graph of any edges the spreading of least numbers converges, after at most one
superstep more than there are nodes, with the least node of its component as the number of every node:
with any configuration that allows for so many supersteps, any pool and any order of execution, and
whether messages are reduced on their way or not. -/
theorem components_converge {config : Config} {executor : Nat → Executor (Board Int64)}
    (edgesInside : ∀ edge ∈ edges, edge.1 < nodes ∧ edge.2 < nodes)
    (least : reducer = none ∨ reducer = some .min) (valid : config.validate = .ok ())
    (allowed : nodes + 1 ≤ config.maxIterations.toNat) (reservable : config.Reservable) (pool : Pool)
    (turns : ∀ s, (executor s).TakesTurns Board.raised) :
    ∃ graph e result after, RowGraph.undirected nodes edges = .ok graph ∧
      Engine.new graph (components reducer) config = .ok e ∧
      { e with pool := pool }.runWith executor = (.ok result, after) ∧
      result.outcome = .converged ∧ result.supersteps ≤ nodes + 1 ∧
      ∀ node < nodes, ∃ label, result.values.readLong "component" node = .ok (Int64.ofNat label) ∧
        IsLeast {other | Connected edges node other} label := by
  have few : nodes + 1 < 2 ^ 32 := Nat.lt_of_le_of_lt allowed config.maxIterations.toNat_lt
  have engine : Engine.new (RowGraph.symmetric nodes edges) (components reducer) config =
      .ok { graph := RowGraph.symmetric nodes edges, computation := components reducer, config := config } := by
    rw [Engine.new, valid]
    rfl
  have spreads : Engine.Spreads
      { graph := RowGraph.symmetric nodes edges
        computation := components reducer
        config := config
        pool := pool } nodes edges reducer :=
    ⟨edgesInside, least, rfl, rfl, ⟨valid, rfl, rfl⟩, rfl, rfl, allowed, reservable⟩
  obtain ⟨result, after, ran, converged⟩ := spreads.converges turns
  exact ⟨_, _, result, after, RowGraph.undirected_eq edgesInside (Nat.lt_trans few (by decide)), engine, ran,
    converged⟩

/-- A path of three nodes and a node of its own, cut into two tasks. -/
theorem components_converge_path : ∃ graph e result after,
    RowGraph.undirected 4 [(2, 3), (3, 1)] = .ok graph ∧
      Engine.new graph (components (some .min))
        { concurrency := ⟨2, by decide, by decide⟩, minBatchSize := 1 } = .ok e ∧
      { e with pool := .single }.runWith (fun _ => runOnPool .single 2 Board.raised) = (.ok result, after) ∧
      result.outcome = .converged ∧ result.supersteps ≤ 4 + 1 ∧
      ∀ node < 4, ∃ label, result.values.readLong "component" node = .ok (Int64.ofNat label) ∧
        IsLeast {other | Connected [(2, 3), (3, 1)] node other} label :=
  components_converge (by decide) (.inr rfl) rfl (by decide) (fun _ => rfl) .single
    fun _ => (inSequence_runOnPool .single (by decide) Board.raised).takesTurns

end BulkSync
