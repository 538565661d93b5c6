import BulkSync.Proofs.Engine.Cancellation
import BulkSync.Proofs.Engine.Tour

/-! # Whose fault it is

A fault strikes a node of a superstep when all nodes before it have been visited, by a single task in the order of their
numbers, and then the node is set up or computes (`Job.Faults`). How the nodes are cut into tasks does not enter into
that. A run whose tasks are executed in sequence fails by a task just if a fault strikes a node in one of its supersteps,
and it blames the task of that node (`Engine.attribution`). What the record has of that superstep are the deeds of the
nodes before and what the node itself has noted on the way to the fault (`Job.record_struck`). -/

namespace BulkSync

open Attempt (outcome_of outcome_bind outcome_bind_of_ok Keeps keeps_bind)

variable {γ M : Type} [GraphView γ]

/-- The desk when another node is looked at. -/
def Desk.looked (d : Desk M) : Desk M := { d with processed := d.processed + 1 }

namespace Job

theorem wake_succeeds (v : Nat) (d : Desk M) : ∃ awake e, (wake v).outcome d = (.ok awake, e) := by
  rw [wake, outcome_of]
  split
  · exact ⟨_, _, rfl⟩
  · split <;> exact ⟨_, _, rfl⟩

variable [Element M] {job : Job γ M} {s v nodes : Nat} {b c : Board M} {d e f : Desk M} {fault : Fault}

/-! ## The node that a fault strikes -/

/-- A fault strikes a node of a superstep that starts on a board: all nodes before have been visited, none of them has
raised the stop flag, and then the node is set up or computes. -/
inductive Faults (job : Job γ M) (s : Nat) (b : Board M) (v : Nat) (fault : Fault) : Prop
  | setUp {d e : Desk M} (before : job.Toured s b (List.range v) d) (first : s = 0)
      (struck : (job.setUp v).outcome d.looked = (.error fault, e)) : Faults job s b v fault
  | compute {d ready awake e : Desk M} (before : job.Toured s b (List.range v) d)
      (prepared : (if s = 0 then job.setUp v else pure ()).outcome d.looked = (.ok (), ready))
      (wakes : (wake v).outcome ready = (.ok true, awake))
      (struck : (job.compute s v).outcome awake = (.error fault, e)) : Faults job s b v fault

theorem faults_iff : job.Faults s b v fault ↔
    ∃ d f, job.Toured s b (List.range v) d ∧ (job.visit s v).outcome d = (.error fault, f) := by
  have looks : ∀ d : Desk M, (Attempt.change fun d : Desk M => { d with processed := d.processed + 1 }).outcome d =
      (.ok (), d.looked) := fun _ => rfl
  constructor
  · intro faults
    cases faults with
    | @setUp d e before first struck =>
      refine ⟨d, e, before, ?_⟩
      rw [visit_eq, outcome_bind_of_ok (looks d), if_pos first, outcome_bind, struck]
    | @compute d ready awake e before prepared wakes struck =>
      refine ⟨d, e, before, ?_⟩
      rw [visit_eq, outcome_bind_of_ok (looks d), outcome_bind_of_ok prepared, outcome_bind_of_ok wakes]
      exact struck
  · rintro ⟨d, f, before, struck⟩
    rw [visit_eq, outcome_bind_of_ok (looks d), outcome_bind] at struck
    match prepared : (if s = 0 then job.setUp v else pure ()).outcome d.looked with
    | (.error other, ready) =>
      rw [prepared] at struck
      cases struck
      split at prepared
      · next first => exact .setUp before first prepared
      · cases prepared
    | (.ok (), ready) =>
      rw [prepared] at struck
      -- looking whether the node is awake cannot fail
      obtain ⟨awake, called, wakes⟩ := wake_succeeds v ready
      dsimp only at struck
      rw [outcome_bind_of_ok wakes] at struck
      cases awake with
      | false => cases struck
      | true => exact .compute before prepared wakes struck

/-- Whether a fault strikes a node is found out by visiting the nodes up to it. -/
theorem faults_of_visits (ran : ((job.visitAll false s (List.range v)).outcome { board := b }).1 = .ok ())
    (down : ((job.visitAll false s (List.range v)).outcome { board := b }).2.board.raised = false)
    (struck : ((job.visit s v).outcome ((job.visitAll false s (List.range v)).outcome { board := b }).2).1 =
      .error fault) : job.Faults s b v fault :=
  faults_iff.mpr ⟨_, _, ⟨Prod.ext ran rfl, down⟩, Prod.ext struck rfl⟩

end Job

/-! ## What is noted of a node that a fault strikes -/

/-- The record has gone on with what one node does in one superstep. -/
def Board.Notes (before : List (Event M)) (s v : Nat) (b : Board M) : Prop :=
  ∃ own, b.record.toList = before ++ own ∧ ∀ event ∈ own, event.isOf s v = true

def Desk.Notes (before : List (Event M)) (s v : Nat) (d : Desk M) : Prop := d.board.Notes before s v

section Notes

variable {before : List (Event M)} {s v : Nat}

theorem Board.Notes.note {b : Board M} (notes : b.Notes before s v) {event : Event M} (of : event.isOf s v = true) :
    (b.note event).Notes before s v := by
  obtain ⟨own, recorded, acts⟩ := notes
  refine ⟨own ++ [event], ?_, fun other member => ?_⟩
  · rw [Board.note, Array.toList_push, recorded, List.append_assoc]
  · rcases List.mem_append.mp member with earlier | last
    · exact acts other earlier
    · rwa [List.mem_singleton.mp last]

variable [Element M]

omit [GraphView γ] in
theorem Desk.Notes.moves {d e : Desk M} (notes : d.Notes before s v) (move : d.Moves s v e) : e.Notes before s v := by
  cases move with
  | changes change => cases change <;> exact notes
  | setsUp first => exact Board.Notes.note notes (by simp [Event.isOf, Event.superstep, Event.node?, first])
  | computes messages => exact Board.Notes.note notes (by simp [Event.isOf, Event.superstep, Event.node?])
  | wakes | marks => exact notes
  | posts folded =>
    have kept : Board.Notes before s v { d.board with mail := _ } := notes
    exact kept.note (by simp [Event.isOf, Event.superstep, Event.node?])
  | halts =>
    have kept : Board.Notes before s v { d.board with votes := d.board.votes.put v } := notes
    exact kept.note (by simp [Event.isOf, Event.superstep, Event.node?])

/-- However a visit ends, it notes nothing but what its node does. -/
theorem Job.visit_notes (job : Job γ M) : Keeps (Desk.Notes before s v) (job.visit s v) :=
  fun d notes => job.visit_keeps Desk.Notes.moves d notes

end Notes

def Desk.Unmetered (d : Desk M) : Prop := d.board.progress = none

omit [GraphView γ] in
theorem Board.logProgress_of_none {b : Board M} (unmetered : b.progress = none) (amount : Nat) :
    (Board.logProgress amount).outcome b = (.ok (), b) := by
  rw [Board.logProgress, outcome_of, unmetered]

omit [GraphView γ] in
theorem Board.logProgress_unmetered (amount : Nat) :
    Keeps (fun b : Board M => b.progress = none) (Board.logProgress amount) := by
  intro b unmetered
  rw [Board.logProgress_of_none unmetered]
  exact unmetered

namespace Job

variable [Element M] {job : Job γ M} {schema : Schema} {s v nodes : Nat} {b c : Board M} {d f : Desk M} {fault : Fault}

/-- When a fault strikes a node, the nodes before it have done their deeds. -/
theorem record_struck (store : PropertyStore.Regular schema nodes b.store) (votes : BitSet.Regular nodes b.votes)
    (down : b.raised = false) (inside : v < nodes) (toured : job.Toured s b (List.range v) d)
    (struck : (job.visit s v).outcome d = (.error fault, f)) :
    ∃ own, f.board.record.toList = b.record.toList ++
        ((List.range v).flatMap fun node => (job.deed schema s b node).events) ++ own ∧
      (∀ event ∈ own, event.isOf s v = true) ∧ ∀ node < v, job.Acts schema s b node := by
  obtain ⟨walked, acts⟩ := visitAll_walked (b := b) List.nodup_range
    (fun node member => (List.mem_range.mp member).trans inside) (fun _ _ => ⟨rfl, rfl⟩) store votes down toured.ran
  -- the flag is still down, so that no node has been left out
  have none : raisedIn (job.deed schema s b) (List.range v) = false := by
    have raised := walked.raised
    rw [toured.down, raisedIn_untilRaised] at raised
    exact (Bool.or_eq_false_iff.mp raised.symm).2
  rw [untilRaised_eq_self none] at walked acts
  obtain ⟨own, recorded, acted⟩ : f.Notes d.board.record.toList s v := by
    have none : d.Notes d.board.record.toList s v := ⟨[], (List.append_nil _).symm, nofun⟩
    have kept := job.visit_notes d none
    rwa [struck] at kept
  refine ⟨own, ?_, acted, fun node below => acts node (List.mem_range.mpr below)⟩
  rw [recorded, walked.worked.board.record]

section Record

variable {before own record : List (Event M)}
  (recorded : record = before ++ ((List.range v).flatMap fun node => (job.deed schema s b node).events) ++ own)
  (earlier : ∀ event ∈ before, event.superstep < s) (acts : ∀ node < v, job.Acts schema s b node)
  (ofNode : ∀ event ∈ own, event.isOf s v = true)
include recorded earlier acts ofNode

theorem computesOf_struck {node : Nat} (other : node ≠ v) :
    computesOf record s node = if node < v ∧ b.wakes node then [b.mail.messages node] else [] := by
  have none : eventsOf own s node = [] := by
    refine List.filter_eq_nil_iff.mpr fun event member of => other ?_
    have actor := (Event.isOf_iff.mp (ofNode event member)).2
    rw [(Event.isOf_iff.mp of).2] at actor
    exact Option.some.inj actor
  rw [← computesOf_cut rfl earlier acts node, recorded, computesOf, List.filterMap_append]
  have silent : computesOf own s node = [] := by
    rw [← computesOf_eventsOf, none]
    rfl
  rw [computesOf] at silent
  rw [silent, List.append_nil, computesOf]

theorem actor_struck {event : Event M} (member : event ∈ record) (superstep : event.superstep = s) :
    ∃ node ≤ v, event.node? = some node := by
  rw [recorded] at member
  rcases List.mem_append.mp member with visited | last
  · obtain ⟨node, below, actor⟩ := actor_cut rfl earlier acts visited superstep
    exact ⟨node, Nat.le_of_lt below, actor⟩
  · exact ⟨v, Nat.le_refl v, (Event.isOf_iff.mp (ofNode event last)).2⟩

theorem setup_mem_struck (first : s = 0) {node : Nat} (other : node ≠ v) : .setup node ∈ record ↔ node < v := by
  rw [← setup_mem_cut rfl earlier acts first node, recorded, List.mem_append]
  refine or_iff_left fun last => other ?_
  exact Option.some.inj (Event.isOf_iff.mp (ofNode _ last)).2

theorem superstep_struck {event : Event M} (member : event ∈ record) : event.superstep ≤ s := by
  rw [recorded, List.append_assoc] at member
  rcases List.mem_append.mp member with before | later
  · exact Nat.le_of_lt (earlier event before)
  · rcases List.mem_append.mp later with visited | last
    · obtain ⟨node, below, own⟩ := List.mem_flatMap.mp visited
      exact Nat.le_of_eq (Event.isOf_iff.mp ((acts node (List.mem_range.mp below)).isOf event own)).1
    · exact Nat.le_of_eq (Event.isOf_iff.mp (ofNode event last)).1

end Record

/-! ### Reports without a meter -/

theorem visit_unmetered (job : Job γ M) (s v : Nat) : Keeps Desk.Unmetered (job.visit s v) :=
  fun d unmetered => (job.visit_framed s v d).board.progress.trans unmetered

theorem action_unmetered (slot : Nat) (span : Span) (seen : Signals) (unmetered : b.progress = none) :
    ((job.action s slot span).run seen b).2.progress = none :=
  job.action_keeps (fun node _ => job.visit_unmetered s node) Board.logProgress_unmetered
    (fun _ _ _ unmetered => unmetered) seen unmetered

/-- Without a meter there is no report to fail. -/
theorem not_reportFails (unmetered : b.progress = none) : ¬ job.ReportFails s b := by
  rintro ⟨slot, c, d, bound, finished, visits, fails⟩
  have left : c.progress = none := by
    have inside : ∀ other ∈ List.range slot, other < (job.works s).length := fun other below => by
      rw [length_works]
      exact (List.mem_range.mp below).trans bound
    have each : ∀ slot (here : slot < (job.works s).length) seen (c : Board M), c.progress = none →
        ((job.works s)[slot] seen c).2.progress = none := fun slot here seen c unmetered => by
      obtain ⟨bound, work⟩ := getElem_works here
      rw [work]
      exact action_unmetered slot _ seen unmetered
    have start : (job.opened b).progress = none := unmetered
    have kept : (inOrder Board.raised (List.range slot) (singles (job.works s)) (job.opened b)).2.progress = none :=
      inOrder_keeps (fun c : Board M => c.progress = none) each inside start
    rwa [← tasks_eq, finished] at kept
  have toured : d.Unmetered := by
    have keeps : Keeps Desk.Unmetered (job.visitAll false s (job.nodesOf slot)) :=
      job.visitAll_keeps false fun v _ => job.visit_unmetered s v
    have kept := keeps { board := c } left
    rwa [visits] at kept
  exact fails (congrArg Prod.fst (Board.logProgress_of_none toured d.processed))

theorem proceed_failed {limit : Nat} {error : TaskError} (leads : job.Leads b s) (below : s < limit)
    (down : (job.boardAt b s).raised = false) (failed : job.superstep s (job.boardAt b s) = (.failed error, c)) :
    job.proceed limit 0 b = ⟨.failed error, s, c⟩ := by
  obtain ⟨remaining, here⟩ := proceed_at leads below
  rw [here, proceed, down, failed]
  rfl

end Job

/-! ## Runs -/

namespace Engine

variable [Element M] {e after : Engine γ M} {executor : Nat → Executor (Board M)} {job : Job γ M} {b : Board M}
  {s v : Nat} {fault : Fault} {returned : Except RunError RunResult}

/-- What comes of a run in which a fault strikes a node of a superstep. -/
structure Blames (e : Engine γ M) (b : Board M) (s v : Nat) (fault : Fault) (returned : Except RunError RunResult)
    (after : Engine γ M) : Prop where
  /-- The run returns the fault, as one of the task of the node. -/
  task : ∃ spans slot span, e.spans = .ok spans ∧ spans[slot]? = some span ∧ v ∈ span.toList ∧
    returned = .error (.task ⟨slot, .struck fault⟩)
  state : after.state = .failed
  /-- The nodes before have computed if they were awake or had messages, and nobody behind has done anything. -/
  computes : ∀ node ≠ v, computesOf after.record.toList s node =
    if node < v ∧ b.wakes node then [b.mail.messages node] else []
  setUps : s = 0 → ∀ node ≠ v, .setup node ∈ after.record.toList ↔ node < v
  others : ∀ event ∈ after.record.toList, event.superstep = s → ∃ node ≤ v, event.node? = some node
  unasked : ∀ store, .master s store ∉ after.record.toList
  last : ∀ event ∈ after.record.toList, event.superstep ≤ s

/-- No report of a run without a meter fails. -/
theorem reports_unmetered (turns : ∀ s, (executor s).TakesTurns Board.raised) (unmetered : e.progress = none)
    (enters : e.Enters executor s job b) : ¬ job.ReportFails s b := by
  obtain ⟨start, prepared, -, leads, rfl, -⟩ := enters
  obtain ⟨schema, -, begins⟩ := begins prepared
  exact Job.not_reportFails ((begins.countedAt turns leads).none unmetered)

theorem blames_of_faults (fresh : e.Fresh) (sequential : ∀ s, (executor s).InSequence Board.raised)
    (reports : ∀ s job b, e.Enters executor s job b → ¬ job.ReportFails s b) (enters : e.Enters executor s job b)
    (inside : v < GraphView.nodeCount e.graph) (faults : job.Faults s b v fault)
    (ran : e.runWith executor = (returned, after)) : e.Blames b s v fault returned after := by
  have reported := reports s job b enters
  obtain ⟨start, prepared, below, leads, rfl, down⟩ := enters
  obtain ⟨schema, -, begins⟩ := begins prepared
  have turns : ∀ s, (executor s).TakesTurns Board.raised := fun s => (sequential s).takesTurns
  have earlier := begins.earlier turns leads fresh
  obtain ⟨_, _, ready⟩ := begins.readyAt turns leads
  obtain ⟨d, f, toured, struck⟩ := Job.faults_iff.mp faults
  obtain ⟨slot, span, c, taken, own, same, failed⟩ := Job.failed_of_struck begins.tile reported inside toured struck
  obtain ⟨deeds, recorded, ofNode, acts⟩ := Job.record_struck ready.store ready.votes down inside toured struck
  -- executing the tasks is running them in sequence
  have executed : job.superstep s (job.boardAt start s) = (.failed ⟨slot, .struck fault⟩, c) := by
    have inTurn := sequential s (job.works s) (job.opened (job.boardAt start s))
    rw [← Job.tasks_eq, Job.length_works, failed] at inTurn
    rw [Job.superstep_eq, begins.executor, inTurn]
  rw [runWith_eq fresh.state, prepared] at ran
  dsimp only at ran
  rw [Job.proceed_failed leads below down executed] at ran
  obtain ⟨rfl, rfl⟩ := Prod.mk.inj ran
  have record : c.record.toList = (job.boardAt start s).record.toList ++
      ((List.range v).flatMap fun node => (job.deed schema s (job.boardAt start s) node).events) ++ deeds := by
    rw [← same.record, recorded]
  have spans : e.spans = .ok job.spans := by
    obtain ⟨_, _, _, -, cut, -, rfl, -⟩ := prepare_ok prepared
    exact cut
  exact
    { task := ⟨job.spans, slot, span, spans, taken, own, rfl⟩
      state := rfl
      computes := fun node other => Job.computesOf_struck record earlier acts ofNode other
      setUps := fun first node other => Job.setup_mem_struck record earlier acts ofNode first other
      others := fun event => Job.actor_struck record earlier acts ofNode
      unasked := fun store asked => by
        obtain ⟨_, -, actor⟩ := Job.actor_struck record earlier acts ofNode asked rfl
        cases actor
      last := fun event => Job.superstep_struck record earlier acts ofNode }

theorem faults_of_failed (fresh : e.Fresh) (sequential : ∀ s, (executor s).InSequence Board.raised)
    (reports : ∀ s job b, e.Enters executor s job b → ¬ job.ReportFails s b) {error : TaskError}
    (failed : (e.runWith executor).1 = .error (.task error)) :
    ∃ s job b v fault, e.Enters executor s job b ∧ v < GraphView.nodeCount e.graph ∧ job.Faults s b v fault := by
  rw [runWith_eq fresh.state] at failed
  cases prepared : e.prepare executor with
  | error fault =>
    rw [prepared] at failed
    cases failed
  | ok made =>
    obtain ⟨job, start⟩ := made
    rw [prepared] at failed
    obtain ⟨s, b, enters, superstep⟩ := (ending_failed_iff prepared).mp (resultOf_task_iff.mp failed)
    obtain ⟨c, executed⟩ := Job.superstep_failed_iff.mp superstep
    obtain ⟨schema, -, begins⟩ := begins prepared
    have down : b.raised = false := by
      obtain ⟨_, -, -, -, -, calm⟩ := enters
      exact calm
    rw [begins.executor, Job.tasks_eq, sequential s, Job.length_works, ← Job.tasks_eq] at executed
    obtain ⟨v, fault, d, f, inside, toured, struck⟩ :=
      Job.struck_of_failed begins.tile down (reports s job b enters) executed
    exact ⟨s, job, b, v, fault, enters, inside, Job.faults_iff.mpr ⟨d, f, toured, struck⟩⟩

/-- Where tasks are executed in sequence, as on a pool (`inSequence_onPool`), and no report fails: a run fails by one of
its tasks just if a fault strikes a node in one of its supersteps. It is then the task of this node that is blamed, and
the superstep has come to this node and no further. -/
theorem attribution (fresh : e.Fresh) (sequential : ∀ s, (executor s).InSequence Board.raised)
    (reports : ∀ s job b, e.Enters executor s job b → ¬ job.ReportFails s b) :
    ((∃ error, (e.runWith executor).1 = .error (.task error)) ↔ ∃ s job b v fault,
      e.Enters executor s job b ∧ v < GraphView.nodeCount e.graph ∧ job.Faults s b v fault) ∧
    ∀ s job b v fault, e.Enters executor s job b → v < GraphView.nodeCount e.graph → job.Faults s b v fault →
      e.Blames b s v fault (e.runWith executor).1 (e.runWith executor).2 := by
  have blames : ∀ s job b v fault, e.Enters executor s job b → v < GraphView.nodeCount e.graph →
      job.Faults s b v fault → e.Blames b s v fault (e.runWith executor).1 (e.runWith executor).2 :=
    fun s job b v fault enters inside faults => blames_of_faults fresh sequential reports enters inside faults rfl
  refine ⟨⟨fun ⟨error, failed⟩ => faults_of_failed fresh sequential reports failed, ?_⟩, blames⟩
  rintro ⟨s, job, b, v, fault, enters, inside, faults⟩
  obtain ⟨_, slot, _, -, -, -, returns⟩ := (blames s job b v fault enters inside faults).task
  exact ⟨_, returns⟩

/-! ### A message that goes astray -/

/-- The second node halts at once. In the second superstep the fifth one sends a message to a node that is not there. -/
def straying : Computation Int64 where
  schema := Schema.ofList []
  compute view _ := do
    if view.node = 1 then VertexContext.halt
    if view.superstep = 1 ∧ view.node = 4 then VertexContext.send 9 0

/-- The node stands between two others in the second of two tasks. -/
def strayingEngine : Engine RowGraph Int64 where
  graph := ⟨Rows.ofLists [[], [], [], [], [], []], none⟩
  computation := straying
  config := { greetingEngine.config with partitioning := .range }

def strayingJob : Job RowGraph Int64 := ⟨strayingEngine.graph, straying, [⟨0, 3⟩, ⟨3, 3⟩], strayingEngine.onPool⟩

def strayingStart : Board Int64 := ⟨.new ⟨[]⟩ 6, .new 6, .queue (.new 6), false, false, none, #[]⟩

theorem enters_straying : strayingEngine.Enters strayingEngine.onPool 1 strayingJob
    (strayingJob.boardAt strayingStart 1) := by
  have goesOn : (match strayingJob.verdictAt strayingStart 0 with | .proceed => true | _ => false) = true ∧
      (strayingJob.boardAt strayingStart 1).raised = false := by decide +kernel
  refine ⟨strayingStart, rfl, by decide, fun t first => ?_, rfl, goesOn.2⟩
  obtain rfl := Nat.lt_one_iff.mp first
  refine ⟨rfl, ?_⟩
  have proceeds := goesOn.1
  generalize strayingJob.verdictAt strayingStart 0 = verdict at proceeds ⊢
  cases verdict <;> first | rfl | cases proceeds

theorem faults_straying : strayingJob.Faults 1 (strayingJob.boardAt strayingStart 1) 4 (.targetOutOfBounds 9 6) :=
  Job.faults_of_visits (by decide +kernel) (by decide +kernel) (by decide +kernel)

/-- The second task is blamed. In front of the node all nodes but the sleeping one have computed, and the one behind it
has not. -/
theorem attribution_straying :
    (strayingEngine.run).1 = .error (.task ⟨1, .struck (.targetOutOfBounds 9 6)⟩) ∧
      (strayingEngine.run).2.state = .failed ∧
      (computesOf (strayingEngine.run).2.record.toList 1 3).length = 1 ∧
      computesOf (strayingEngine.run).2.record.toList 1 1 = [] ∧
      computesOf (strayingEngine.run).2.record.toList 1 5 = [] ∧
      ∀ store, .master 1 store ∉ (strayingEngine.run).2.record.toList := by
  have sequential := inSequence_onPool strayingEngine
  obtain ⟨-, blames⟩ := attribution (e := strayingEngine) ⟨rfl, rfl, rfl⟩ sequential
    fun _ _ _ enters => reports_unmetered (fun s => (sequential s).takesTurns) rfl enters
  have blamed := blames _ _ _ _ _ enters_straying (by decide) faults_straying
  obtain ⟨spans, slot, span, cut, taken, own, returned⟩ := blamed.task
  have wakes : (strayingJob.boardAt strayingStart 1).wakes 3 = true ∧
      (strayingJob.boardAt strayingStart 1).wakes 1 = false := by decide +kernel
  refine ⟨?_, blamed.state, ?_, ?_, ?_, blamed.unasked⟩
  · have two : strayingEngine.spans = .ok [⟨0, 3⟩, ⟨3, 3⟩] := rfl
    cases cut.symm.trans two
    match slot with
    | 0 =>
      cases taken
      exact absurd own (by decide)
    | 1 => exact returned
    | _ + 2 => cases taken
  · rw [Engine.run, blamed.computes 3 (by decide), if_pos ⟨by decide, wakes.1⟩]
    rfl
  · rw [Engine.run, blamed.computes 1 (by decide), if_neg (by simp [wakes.2])]
  · rw [Engine.run, blamed.computes 5 (by decide), if_neg (by simp)]

end Engine

end BulkSync
