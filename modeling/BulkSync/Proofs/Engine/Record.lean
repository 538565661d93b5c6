import BulkSync.Proofs.Engine.Course

/-! # The record of a run

The record of a run is the record of its supersteps, one behind the other (`Account.record_eq`): what the nodes
do, then the properties that the computation sees, then its answer. What the record has of a node in a
superstep is what the deed of the node says (`Account.eventsOf_record`), whatever the order in which nodes
were visited, so that every question about a node in a superstep is answered by its deed alone. -/

namespace BulkSync

variable {M : Type}

/-! ## The events of a superstep -/

section Superstep

variable {γ : Type} [GraphView γ] [Element M] {job : Job γ M} {schema : Schema} {nodes s : Nat}
  {b : Board M} {letters : List (Nat × M)} {stop : Bool} {verdict : Verdict}

/-- The events of a superstep. -/
def Job.segment (job : Job γ M) (b : Board M) (s : Nat) : List (Event M) :=
  (job.boardAt b (s + 1)).record.toList.drop (job.boardAt b s).record.size

theorem Job.Stepped.segment_eq (stepped : job.Stepped schema nodes s (job.boardAt b s) letters stop verdict
    (job.boardAt b (s + 1))) : ∃ acts, job.Recorded schema nodes s (job.boardAt b s) acts ∧
      job.segment b s = acts ++ [.master s (job.left s (job.boardAt b s)).store, .answer s stop] := by
  obtain ⟨acts, recorded, record⟩ := stepped.record
  refine ⟨acts, recorded, ?_⟩
  rw [segment, record, ← Array.length_toList, List.drop_left]

theorem Job.Stepped.record_eq (stepped : job.Stepped schema nodes s (job.boardAt b s) letters stop verdict
    (job.boardAt b (s + 1))) :
    (job.boardAt b (s + 1)).record.toList = (job.boardAt b s).record.toList ++ job.segment b s := by
  obtain ⟨acts, _, record⟩ := stepped.record
  rw [segment, record, ← Array.length_toList, List.drop_left]

/-- The events of a superstep are those of its nodes, and then those of the computation. -/
theorem Job.Stepped.of_segment (stepped : job.Stepped schema nodes s (job.boardAt b s) letters stop verdict
    (job.boardAt b (s + 1))) : ∀ event ∈ job.segment b s, event.superstep = s ∧
      ∀ node, event.node? = some node → node < nodes := by
  intro event member
  obtain ⟨acts, recorded, segment⟩ := stepped.segment_eq
  rw [segment] at member
  rcases List.mem_append.mp member with act | last
  · obtain ⟨superstep, node, inside, of⟩ := recorded.own event act
    refine ⟨superstep, fun other same => ?_⟩
    rw [of] at same
    cases same
    exact inside
  · simp only [List.mem_cons, List.not_mem_nil, or_false] at last
    rcases last with rfl | rfl <;> exact ⟨rfl, by simp [Event.node?]⟩

theorem Job.Stepped.eventsOf_segment (stepped : job.Stepped schema nodes s (job.boardAt b s) letters stop
    verdict (job.boardAt b (s + 1))) {node : Nat} (inside : node < nodes) :
    eventsOf (job.segment b s) s node = (job.deed schema s (job.boardAt b s) node).events := by
  obtain ⟨acts, recorded, segment⟩ := stepped.segment_eq
  have last : [.master s (job.left s (job.boardAt b s)).store, .answer s stop].filter
      (Event.isOf s node : Event M → Bool) = [] := by
    simp [Event.isOf, Event.node?]
  rw [segment, eventsOf, List.filter_append, last, List.append_nil]
  exact recorded.each node inside

/-- The record in front of a superstep is that of the supersteps before it. -/
theorem Job.record_boardAt {count : Nat} (steps : job.Steps schema nodes b count) :
    (job.boardAt b count).record.toList = b.record.toList ++ (List.range count).flatMap (job.segment b) := by
  induction count with
  | zero => simp [Job.boardAt]
  | succ count inductionHypothesis =>
    obtain ⟨letters, stop, stepped⟩ := steps count (Nat.lt_succ_self count)
    rw [stepped.record_eq, inductionHypothesis fun s below => steps s (Nat.lt_succ_of_lt below), List.range_succ,
      List.flatMap_append, List.flatMap_cons, List.flatMap_nil, List.append_nil, List.append_assoc]

theorem Job.mem_record_boardAt {count : Nat} (steps : job.Steps schema nodes b count) (blank : b.record = #[])
    {event : Event M} (member : event ∈ (job.boardAt b count).record.toList) :
    event.superstep < count ∧ ∀ node, event.node? = some node → node < nodes := by
  rw [Job.record_boardAt steps, blank, Array.toList_empty, List.nil_append] at member
  obtain ⟨s, inside, own⟩ := List.mem_flatMap.mp member
  have below := List.mem_range.mp inside
  obtain ⟨letters, stop, stepped⟩ := steps s below
  obtain ⟨superstep, nodes⟩ := stepped.of_segment event own
  exact ⟨superstep ▸ below, nodes⟩

end Superstep

/-! ## The events of a run -/

namespace Engine.Account

variable {γ : Type} [GraphView γ] [Element M] {e after : Engine γ M}
  {executor : Nat → Executor (Board M)} {result : RunResult} {schema : Schema} {job : Job γ M}
  {board : Board M} (account : e.Account executor result after schema job board)
  (steps : job.Steps schema (GraphView.nodeCount e.graph) board result.supersteps)

include account steps

theorem record_eq : after.record.toList = (List.range result.supersteps).flatMap (job.segment board) := by
  rw [account.record, Job.record_boardAt steps, account.blank]
  rfl

theorem mem_record {event : Event M} (member : event ∈ after.record.toList) :
    event.superstep < result.supersteps ∧
      ∀ node, event.node? = some node → node < GraphView.nodeCount e.graph := by
  rw [account.record] at member
  exact Job.mem_record_boardAt steps account.blank member

/-- The answers in the record are those of the supersteps. -/
theorem answer_mem_record {s : Nat} {letters : List (Nat × M)} {stop : Bool} {verdict : Verdict}
    (below : s < result.supersteps)
    (stepped : job.Stepped schema (GraphView.nodeCount e.graph) s (job.boardAt board s) letters stop verdict
      (job.boardAt board (s + 1))) (answer : Bool) :
    .answer s answer ∈ after.record.toList ↔ answer = stop := by
  obtain ⟨acts, recorded, segment⟩ := stepped.segment_eq
  rw [account.record_eq steps, List.mem_flatMap]
  constructor
  · rintro ⟨t, member, own⟩
    obtain ⟨_, _, steppedThen⟩ := steps t (List.mem_range.mp member)
    obtain rfl : s = t := (steppedThen.of_segment _ own).1
    rw [segment, List.mem_append] at own
    rcases own with act | last
    · obtain ⟨_, node, _, of⟩ := recorded.own _ act
      cases of
    · simpa using last
  · rintro rfl
    refine ⟨s, List.mem_range.mpr below, ?_⟩
    rw [segment]
    simp

/-- What the record has of a node in a superstep is what the deed of the node says. -/
theorem eventsOf_record {s node : Nat} (below : s < result.supersteps)
    (inside : node < GraphView.nodeCount e.graph) : eventsOf after.record.toList s node =
      (job.deed schema s (job.boardAt board s) node).events := by
  obtain ⟨_, _, stepped⟩ := steps s below
  rw [← stepped.eventsOf_segment inside, account.record_eq steps, eventsOf, List.filter_flatMap]
  -- the events of other supersteps carry other numbers
  refine flatMap_only List.nodup_range (List.mem_range.mpr below) fun other member different => ?_
  obtain ⟨_, _, steppedToo⟩ := steps other (List.mem_range.mp member)
  refine List.filter_eq_nil_iff.mpr fun event own of => different ?_
  rw [← (steppedToo.of_segment event own).1, (Event.isOf_iff.mp of).1]

end Engine.Account
end BulkSync
