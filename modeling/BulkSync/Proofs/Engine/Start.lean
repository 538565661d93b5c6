import BulkSync.Proofs.Engine.Course

/-! # The start of a run

A run starts with declaring the properties, making the mailboxes and cutting the nodes into tasks. None of
that fails if the properties can be declared, the nodes have degrees, and lists of runs fit into an address
space (`prepare_succeeds`). The board is then a blank one with the flag and the meter of the engine
(`Prepared`). -/

namespace BulkSync

/-! ## Cutting the nodes -/

namespace Partition

variable {nodes batch concurrency total : Nat} {least : Option Nat}

theorem byCount_succeeds (fits : nodes * Span.entryBytes ≤ Word.greatestBytes) :
    ∃ spans, byCount concurrency nodes least = .ok spans := by
  have fewer : Word.ceilDiv nodes (batchSize concurrency nodes least) ≤ nodes :=
    ceilDiv_le (batchSize_pos concurrency nodes least)
  have reserves : Word.reserve (Word.ceilDiv nodes (batchSize concurrency nodes least))
      Span.entryBytes = .ok () := if_pos (Nat.le_trans (Nat.mul_le_mul_right _ fewer) fits)
  rw [byCount, chunks, reserves]
  exact ⟨_, rfl⟩

theorem byDegreeM_succeeds {degree : Nat → Except Fault Nat}
    (known : ∀ node < nodes, ∃ found, degree node = .ok found)
    (reservable : Word.reserve concurrency WeighedSpan.entryBytes = .ok ()) :
    ∃ spans, byDegreeM nodes total degree concurrency least = .ok spans := by
  obtain ⟨degrees, mapped⟩ := mapM_of_ok fun node member => known node (List.mem_range.mp member)
  rw [byDegreeM, reservable, mapped]
  split
  · exact ⟨[], rfl⟩
  · exact ⟨_, rfl⟩

end Partition

/-- The list of the runs can be reserved, which has an entry for every worker if nodes are cut by degree. -/
def Config.Reservable (config : Config) : Prop :=
  config.partitioning ≠ .range → Word.reserve config.concurrency.workers WeighedSpan.entryBytes = .ok ()

namespace Engine

variable {γ M : Type} [GraphView γ] {e after : Engine γ M} {executor : Nat → Executor (Board M)}
  {schema : Schema}

theorem spans_succeeds (known : ∀ node < GraphView.nodeCount e.graph, ∃ found,
      GraphView.degree e.graph node = .ok found)
    (fits : GraphView.nodeCount e.graph * Span.entryBytes ≤ Word.greatestBytes)
    (reservable : e.config.Reservable) : ∃ spans, e.spans = .ok spans := by
  have byDegrees : ∀ least, e.config.partitioning ≠ .range → ∃ spans,
      (Partition.byDegrees e.graph e.config.concurrency.workers least >>=
        fun weighed => pure (weighed.map (·.span))) = Except.ok spans := by
    intro least kind
    obtain ⟨weighed, cut⟩ := Partition.byDegreeM_succeeds known (reservable kind)
    exact ⟨_, bind_eq_ok_iff.mpr ⟨weighed, cut, rfl⟩⟩
  have byCount : ∀ least, ∃ spans, Partition.byCount e.config.concurrency.workers
      (GraphView.nodeCount e.graph) least = .ok spans := fun least => Partition.byCount_succeeds fits
  rw [Engine.spans]
  cases kind : e.config.partitioning with
  | range => simpa [kind] using byCount _
  | degree => simpa [kind] using byDegrees _ (by simp [kind])
  | auto =>
    by_cases any : 0 < GraphView.edgeCount e.graph
    · simpa [kind, any] using byDegrees _ (by simp [kind])
    · simpa [kind, any] using byCount _

variable [Element M]

/-- The job and the board that a run of an engine starts with. -/
structure Prepared (e : Engine γ M) (executor : Nat → Executor (Board M)) (schema : Schema) (job : Job γ M)
    (board : Board M) : Prop where
  prepared : e.prepare executor = .ok (job, board)
  graph : job.graph = e.graph
  computation : job.computation = e.computation
  executor : job.executor = executor
  tile : Span.Tile 0 job.spans (GraphView.nodeCount e.graph)
  ready : board.Ready schema (GraphView.nodeCount e.graph) 0 e.computation.reducer []
  votes : ∀ node < GraphView.nodeCount e.graph, board.votes.test node = false
  raised : board.raised = e.raised
  progress : board.progress = e.progress

theorem prepare_succeeds (executor : Nat → Executor (Board M)) (declared : e.computation.schema = .ok schema)
    (bounded : GraphView.nodeCount e.graph + 1 < Word.limit)
    (known : ∀ node < GraphView.nodeCount e.graph, ∃ found, GraphView.degree e.graph node = .ok found)
    (fits : GraphView.nodeCount e.graph * Span.entryBytes ≤ Word.greatestBytes)
    (reservable : e.config.Reservable) : ∃ job board, e.Prepared executor schema job board := by
  obtain ⟨spans, cut⟩ := spans_succeeds known fits reservable
  obtain ⟨mail, made⟩ : ∃ mail, Mail.new (GraphView.nodeCount e.graph) e.computation.reducer = .ok mail := by
    cases e.computation.reducer with
    | none =>
      have counted : Word.add? (GraphView.nodeCount e.graph) 1 = .ok (GraphView.nodeCount e.graph + 1) :=
        if_pos bounded
      rw [Mail.new, counted]
      exact ⟨_, rfl⟩
    | some r => exact ⟨_, rfl⟩
  have prepared : e.prepare executor = .ok (⟨e.graph, e.computation, spans, executor⟩,
      ⟨.new schema (GraphView.nodeCount e.graph), .new (GraphView.nodeCount e.graph), mail, false, e.raised,
        e.progress, e.record⟩) := by
    rw [prepare, declared, made, cut]
    rfl
  exact ⟨_, _,
    { prepared
      graph := rfl
      computation := rfl
      executor := rfl
      tile := tile_spans cut
      ready := ⟨PropertyStore.regular_new schema _, BitSet.regular_new _, Mail.holds_new made⟩
      votes := fun node inside => BitSet.test_new inside
      raised := rfl
      progress := rfl }⟩

/-- In the beginning no node has messages. -/
theorem Prepared.unread {job : Job γ M} {board : Board M} (prepared : e.Prepared executor schema job board)
    {node : Nat} (inside : node < GraphView.nodeCount e.graph) :
    (board.mail.messages node).toList = [] := by
  have delivered := prepared.ready.mail.delivered inside
  cases reducer : e.computation.reducer with
  | none | some r =>
    rw [reducer] at delivered
    exact delivered

/-- A course that comes to an outcome makes the result of the run. -/
theorem Prepared.runWith_eq {job : Job γ M} {board : Board M} {outcome : Outcome} {values : PropertyStore}
    (prepared : e.Prepared executor schema job board) (fresh : e.Fresh) {course : Course M}
    (ran : job.proceed e.config.maxIterations.toNat 0 board = course)
    (ended : course.ending = .reached outcome) (exposed : course.board.store.exposed = .ok values) :
    e.runWith executor = (.ok ⟨values, course.completed, outcome⟩, e.after course) := by
  have comes : resultOf course = .ok ⟨values, course.completed, outcome⟩ := by
    rw [resultOf, ended]
    simp only [exposed]
  rw [Engine.runWith_eq fresh.state, prepared.prepared]
  simp only [ran, comes]

end Engine
end BulkSync
