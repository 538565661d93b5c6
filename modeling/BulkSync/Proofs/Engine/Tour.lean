import BulkSync.Proofs.Engine.Sight
import BulkSync.Proofs.Engine.Step

/-! # Several tasks are like one

The tasks of a superstep that is executed in sequence come to what a single task would come to that visits all nodes, one
after the other (`Job.Toured`): as far as they finish they have visited their nodes like that one
(`Job.toured_of_finished`), and they finish as long as it goes on (`Job.finished_of_toured`). The batch fails just if a
fault strikes the visit of a node, and then it is the task of this node that fails (`Job.struck_of_failed`,
`Job.failed_of_struck`). Only the reports to the progress meter are made by task. -/

namespace BulkSync

open Attempt

variable {γ M : Type} [GraphView γ] [Element M]

/-- The progress meter takes the number of nodes that a task has looked at. -/
def Desk.Reports (d : Desk M) : Prop := ((Board.logProgress d.processed).outcome d.board).1 = .ok ()

namespace Job

variable {job : Job γ M} {s v slot nodes : Nat} {b c : Board M} {d e f : Desk M} {fault : Fault}

/-! ## Visits one after the other -/

theorem visitAll_append (first rest : List Nat) (d : Desk M) :
    (job.visitAll false s (first ++ rest)).outcome d =
      (job.visitAll false s first >>= fun _ => job.visitAll false s rest).outcome d := by
  induction first generalizing d with
  | nil => rfl
  | cons node first inductionHypothesis =>
    cases flag : d.board.raised with
    | true => rw [visitAll_raised flag, outcome_bind_of_ok (visitAll_raised flag _), visitAll_raised flag]
    | false =>
      rw [List.cons_append, visitAll_cons flag, outcome_bind, outcome_bind, visitAll_cons flag, outcome_bind]
      match (job.visit s node).outcome d with
      | (.ok (), e) =>
        dsimp only
        rw [inductionHypothesis, outcome_bind]
      | (.error fault, e) => rfl

/-- Nodes that were visited, with the stop flag down in the end, have been visited one part after the other. -/
theorem visitAll_split {first rest : List Nat} (ran : (job.visitAll false s (first ++ rest)).outcome d = (.ok (), f))
    (down : f.board.raised = false) : ∃ e, (job.visitAll false s first).outcome d = (.ok (), e) ∧
      e.board.raised = false ∧ (job.visitAll false s rest).outcome e = (.ok (), f) := by
  rw [visitAll_append] at ran
  obtain ⟨_, e, one, two⟩ := outcome_bind_ok ran
  refine ⟨e, one, ?_, two⟩
  cases flag : e.board.raised with
  | false => rfl
  | true =>
    rw [visitAll_raised flag] at two
    cases two
    exact flag.symm.trans down

/-- A fault that strikes the visits of some nodes strikes the visit of one of them, when those before it have been
visited. -/
theorem visitAll_failed_iff {todo : List Nat} :
    (job.visitAll false s todo).outcome d = (.error fault, f) ↔ ∃ done node rest e, todo = done ++ node :: rest ∧
      (job.visitAll false s done).outcome d = (.ok (), e) ∧ e.board.raised = false ∧
      (job.visit s node).outcome e = (.error fault, f) := by
  constructor
  · intro failed
    induction todo generalizing d with
    | nil => cases failed
    | cons node todo inductionHypothesis =>
      cases flag : d.board.raised with
      | true =>
        rw [visitAll_raised flag] at failed
        cases failed
      | false =>
        rw [visitAll_cons flag, outcome_bind] at failed
        match here : (job.visit s node).outcome d with
        | (.error other, e) =>
          rw [here] at failed
          cases failed
          exact ⟨[], node, todo, d, rfl, rfl, flag, here⟩
        | (.ok (), e) =>
          rw [here] at failed
          obtain ⟨done, other, rest, g, rfl, ran, down, struck⟩ := inductionHypothesis failed
          refine ⟨node :: done, other, rest, g, rfl, ?_, down, struck⟩
          rw [visitAll_cons flag, outcome_bind_of_ok here]
          exact ran
  · rintro ⟨done, node, rest, e, rfl, ran, down, struck⟩
    rw [visitAll_append, outcome_bind_of_ok ran, visitAll_cons down, outcome_bind, struck]

/-! ## Tasks -/

theorem action_eq (job : Job γ M) (s slot : Nat) (span : Span) (c : Board M) :
    (job.action s slot span).run .calm c =
      match (job.visitAll false s span.toList).outcome { board := c } with
      | (.error fault, d) => (some (.struck fault), d.board)
      | (.ok (), d) =>
        match (Board.logProgress d.processed).outcome d.board with
        | (.error fault, t) => (some (.struck fault), t)
        | (.ok (), t) =>
          (none, { t with anySent := t.anySent || d.sent, mail := t.mail.deposit slot d.outbox }) := by
  simp only [action, Action.ofFun, Signals.calm, work]
  rw [outcome_bind]
  rcases (job.visitAll false s span.toList).outcome { board := c } with ⟨fault | ⟨⟩, d⟩
  · rfl
  · dsimp only
    rw [handIn_eq]
    rcases (Board.logProgress d.processed).outcome d.board with ⟨fault | ⟨⟩, t⟩
    · rfl
    · rfl

section Action

variable {span : Span} {t : Board M}

theorem action_of_fault (struck : (job.visitAll false s span.toList).outcome { board := c } = (.error fault, d)) :
    (job.action s slot span).run .calm c = (some (.struck fault), d.board) := by
  rw [action_eq, struck]

theorem action_of_visits (slot : Nat)
    (ran : (job.visitAll false s span.toList).outcome { board := c } = (.ok (), d)) (reports : d.Reports) :
    ∃ t, (job.action s slot span).run .calm c = (none, t) ∧ d.board.Twin t := by
  obtain ⟨meter, changed⟩ := Board.logProgress_changes d.processed d.board
  have worked : (job.action s slot span).run .calm c = (none, { d.board with
      progress := meter, anySent := d.board.anySent || d.sent, mail := d.board.mail.deposit slot d.outbox }) := by
    have logged : (Board.logProgress d.processed).outcome d.board = (.ok (), { d.board with progress := meter }) :=
      Prod.ext_iff.mpr ⟨reports, changed⟩
    rw [action_eq, ran]
    dsimp only
    rw [logged]
  exact ⟨_, worked, rfl, rfl, (Mail.shown_deposit d.board.mail slot d.outbox).symm, rfl, rfl⟩

theorem visits_of_action (ran : (job.action s slot span).run .calm c = (none, t)) :
    ∃ d, (job.visitAll false s span.toList).outcome { board := c } = (.ok (), d) ∧ d.board.Twin t := by
  match visits : (job.visitAll false s span.toList).outcome { board := c } with
  | (.error fault, d) =>
    rw [action_of_fault visits] at ran
    cases ran
  | (.ok (), d) =>
    have reports : d.Reports := by
      rw [action_eq, visits] at ran
      rw [Desk.Reports]
      match logged : (Board.logProgress d.processed).outcome d.board with
      | (.ok (), u) => rfl
      | (.error fault, u) =>
        simp only [logged] at ran
        cases ran
    obtain ⟨u, ranToo, same⟩ := action_of_visits slot visits reports
    rw [ranToo] at ran
    cases ran
    exact ⟨d, rfl, same⟩

theorem fault_of_action {cause : Failure} (ran : (job.action s slot span).run .calm c = (some cause, t))
    (reports : ∀ d, (job.visitAll false s span.toList).outcome { board := c } = (.ok (), d) → d.Reports) :
    ∃ fault d, cause = .struck fault ∧
      (job.visitAll false s span.toList).outcome { board := c } = (.error fault, d) := by
  match visits : (job.visitAll false s span.toList).outcome { board := c } with
  | (.ok (), d) =>
    obtain ⟨u, ranToo, _⟩ := action_of_visits slot visits (reports d visits)
    rw [ranToo] at ran
    cases ran
  | (.error fault, d) =>
    rw [action_of_fault visits] at ran
    cases ran
    exact ⟨fault, d, rfl, rfl⟩

end Action

/-! ## Batches -/

/-- Some nodes have been visited one after the other from a board on, and the stop flag is still down. -/
structure Toured (job : Job γ M) (s : Nat) (b : Board M) (visited : List Nat) (d : Desk M) : Prop where
  ran : (job.visitAll false s visited).outcome { board := b } = (.ok (), d)
  down : d.board.raised = false

/-- The report of a task fails, when the tasks before it have finished and its nodes have been visited. -/
def ReportFails (job : Job γ M) (s : Nat) (b : Board M) : Prop :=
  ∃ slot c d, slot < job.spans.length ∧
    inOrder Board.raised (List.range slot) (job.tasks s) (job.opened b) = (.ok .finished, c) ∧
    (job.visitAll false s (job.nodesOf slot)).outcome { board := c } = (.ok (), d) ∧ ¬ d.Reports

omit [GraphView γ] [Element M] in
theorem twin_opened (job : Job γ M) (b : Board M) : b.Twin (job.opened b) :=
  ⟨rfl, rfl, (Mail.shown_prepare b.mail job.spans.length).symm, rfl, rfl⟩

theorem Toured.append {first rest : List Nat} (toured : job.Toured s b first d)
    (ran : (job.visitAll false s rest).outcome d = (.ok (), e)) (down : e.board.raised = false) :
    job.Toured s b (first ++ rest) e := by
  refine ⟨?_, down⟩
  rw [visitAll_append, outcome_bind_of_ok toured.ran]
  exact ran

/-- Tasks that have finished have visited their nodes as a single one would have done. -/
theorem toured_of_finished {count : Nat} (bound : count ≤ job.spans.length) (down : b.raised = false)
    (finished : inOrder Board.raised (List.range count) (job.tasks s) (job.opened b) = (.ok .finished, c)) :
    ∃ d, job.Toured s b ((List.range count).flatMap job.nodesOf) d ∧ d.board.Twin c := by
  have inside : ∀ slot ∈ List.range count, slot < (job.works s).length := fun slot member => by
    rw [length_works]
    exact Nat.lt_of_lt_of_le (List.mem_range.mp member) bound
  rw [tasks_eq] at finished
  -- invariant: the single task has come to the end of these slots, with a board like the one the tasks have left
  refine (inOrder_finished (fun slots t => ∃ d, job.Toured s b (slots.flatMap job.nodesOf) d ∧ d.board.Twin t)
    ?_ inside ⟨{ board := b }, ⟨rfl, down⟩, job.twin_opened b⟩ finished).1
  rintro slots slot todo - here t u ⟨d, toured, same⟩ - worked calm
  obtain ⟨bound, work⟩ := getElem_works here
  rw [work] at worked
  obtain ⟨e, ran, left⟩ := visits_of_action worked
  rw [← nodesOf_eq bound] at ran
  have twins : d.Twin { board := t } := same
  obtain ⟨f, visits, alike⟩ := (job.visitAll_blind false s (job.nodesOf slot)).lead twins ran
  rw [List.flatMap_append, List.flatMap_singleton]
  exact ⟨f, toured.append visits (alike.raised.trans (left.raised.trans calm)), alike.trans left⟩

/-- Tasks whose nodes a single one would visit finish, if their reports do not fail. -/
theorem finished_of_toured {count : Nat} (bound : count ≤ job.spans.length) (reports : ¬ job.ReportFails s b)
    (toured : job.Toured s b ((List.range count).flatMap job.nodesOf) d) :
    ∃ c, inOrder Board.raised (List.range count) (job.tasks s) (job.opened b) = (.ok .finished, c) ∧ d.board.Twin c := by
  induction count generalizing d with
  | zero =>
    obtain ⟨ran, down⟩ := toured
    cases ran
    have calm : (job.opened b).raised = false := down
    exact ⟨job.opened b, by simp [inOrder, runInOrder, completion, calm], job.twin_opened b⟩
  | succ count inductionHypothesis =>
    rw [List.range_succ, List.flatMap_append, List.flatMap_singleton] at toured
    -- the tour of one more task is a tour of those before and then of its own nodes
    obtain ⟨e, one, down, two⟩ := visitAll_split toured.ran toured.down
    obtain ⟨c, finished, same⟩ := inductionHypothesis (Nat.le_of_succ_le bound) ⟨one, down⟩
    have twins : e.Twin { board := c } := same
    obtain ⟨f, visits, alike⟩ := (job.visitAll_blind false s (job.nodesOf count)).follow twins two
    have reported : f.Reports := by
      by_contra fails
      exact reports ⟨count, c, f, bound, finished, visits, fails⟩
    rw [nodesOf_eq bound] at visits
    obtain ⟨t, worked, left⟩ := action_of_visits _ visits reported
    have here : count < (job.works s).length := by rwa [length_works]
    obtain ⟨_, work⟩ := getElem_works here
    have calm : c.raised = false := same.raised.symm.trans down
    have calmAfter : t.raised = false := (alike.trans left).raised.symm.trans toured.down
    refine ⟨t, ?_, alike.trans left⟩
    rw [tasks_eq] at finished ⊢
    rw [List.range_succ, inOrder_append, finished]
    dsimp only
    rw [inOrder_cons here calm, work, worked]
    simp [inOrder, runInOrder, completion, calmAfter]

/-- What stands before a number in an interval from zero on is the interval below it. -/
theorem eq_range_of_split {n v : Nat} {first rest : List Nat} (split : List.range n = first ++ v :: rest) :
    first = List.range v := by
  have bound : first.length < n := by
    have lengths := congrArg List.length split
    rw [List.length_range, List.length_append, List.length_cons] at lengths
    omega
  have place : first.length = v := by
    have entry : (first ++ v :: rest)[first.length]? = some v := by simp
    rw [← split, List.getElem?_range bound] at entry
    exact Option.some.inj entry
  have start : first = (List.range n).take first.length := by rw [split, List.take_left]
  rwa [List.take_range, Nat.min_eq_left (Nat.le_of_lt bound), place] at start

omit [GraphView γ] [Element M] in
/-- The nodes before one of a task are those of the tasks before, and those before it in its own task. -/
theorem range_of_nodesOf (tile : Span.Tile 0 job.spans nodes) (bound : slot < job.spans.length)
    {first rest : List Nat} (cut : job.nodesOf slot = first ++ v :: rest) :
    (List.range slot).flatMap job.nodesOf ++ first = List.range v ∧ v < nodes := by
  obtain ⟨before, todo, split⟩ := List.append_of_mem (List.mem_range.mpr bound)
  obtain rfl := eq_range_of_split split
  have all : List.range nodes = (List.range slot).flatMap job.nodesOf ++ first ++
      v :: (rest ++ todo.flatMap job.nodesOf) := by
    rw [← flatMap_nodesOf tile, split, List.flatMap_append, List.flatMap_cons, cut]
    simp
  exact ⟨eq_range_of_split all, List.mem_range.mp (all ▸ by simp)⟩

/-- A batch that fails has visited the nodes in front of one that a fault strikes. -/
theorem struck_of_failed (tile : Span.Tile 0 job.spans nodes) (down : b.raised = false)
    (reports : ¬ job.ReportFails s b) {error : TaskError}
    (failed : inOrder Board.raised (List.range job.spans.length) (job.tasks s) (job.opened b) = (.error error, c)) :
    ∃ v fault d f, v < nodes ∧ job.Toured s b (List.range v) d ∧ (job.visit s v).outcome d = (.error fault, f) := by
  rw [tasks_eq, inOrder_failed_iff (lt_length_works (.refl _))] at failed
  obtain ⟨done, todo, before, split, finished, here, worked⟩ := failed
  obtain rfl := eq_range_of_split split
  obtain ⟨bound, work⟩ := getElem_works here
  rw [← tasks_eq] at finished
  rw [work] at worked
  obtain ⟨fault, g, -, struck⟩ := fault_of_action worked fun d visits => by
    by_contra fails
    exact reports ⟨error.task, before, d, bound, finished, by rwa [nodesOf_eq bound], fails⟩
  rw [← nodesOf_eq bound] at struck
  -- the fault strikes the tour too, which has come to the first node of the task
  obtain ⟨d, toured, same⟩ := toured_of_finished (Nat.le_of_lt bound) down finished
  have twins : d.Twin { board := before } := same
  obtain ⟨f, visits, -⟩ := (job.visitAll_blind false s (job.nodesOf error.task)).lead twins struck
  obtain ⟨first, v, rest, e, cut, ran, calm, faults⟩ := visitAll_failed_iff.mp visits
  obtain ⟨all, inside⟩ := range_of_nodesOf tile bound cut
  exact ⟨v, fault, e, f, inside, all ▸ toured.append ran calm, faults⟩

/-- If a fault strikes a node in front of which all nodes have been visited, then the task of the node fails. -/
theorem failed_of_struck (tile : Span.Tile 0 job.spans nodes) (reports : ¬ job.ReportFails s b) (inside : v < nodes)
    (toured : job.Toured s b (List.range v) d) (struck : (job.visit s v).outcome d = (.error fault, f)) :
    ∃ slot span c, job.spans[slot]? = some span ∧ v ∈ span.toList ∧ f.board.Twin c ∧
      inOrder Board.raised (List.range job.spans.length) (job.tasks s) (job.opened b) =
        (.error ⟨slot, .struck fault⟩, c) := by
  -- the task of the node, and the nodes before it
  have member : v ∈ (List.range job.spans.length).flatMap job.nodesOf := by
    rw [flatMap_nodesOf tile]
    exact List.mem_range.mpr inside
  obtain ⟨slot, taken, own⟩ := List.mem_flatMap.mp member
  have bound := List.mem_range.mp taken
  obtain ⟨done, todo, split⟩ := List.append_of_mem taken
  obtain ⟨first, rest, cut⟩ := List.append_of_mem own
  obtain rfl := eq_range_of_split split
  rw [← (range_of_nodesOf tile bound cut).1] at toured
  obtain ⟨e, one, calm, two⟩ := visitAll_split toured.ran toured.down
  obtain ⟨before, finished, same⟩ := finished_of_toured (Nat.le_of_lt bound) reports ⟨one, calm⟩
  have visits : (job.visitAll false s (job.nodesOf slot)).outcome e = (.error fault, f) :=
    visitAll_failed_iff.mpr ⟨first, v, rest, d, cut, two, toured.down, struck⟩
  have twins : e.Twin { board := before } := same
  obtain ⟨g, fails, alike⟩ := (job.visitAll_blind false s (job.nodesOf slot)).follow twins visits
  rw [nodesOf_eq bound] at fails own
  have here : slot < (job.works s).length := by rwa [length_works]
  obtain ⟨_, work⟩ := getElem_works here
  refine ⟨slot, job.spans[slot], g.board, List.getElem?_eq_getElem bound, own, alike, ?_⟩
  rw [tasks_eq] at finished ⊢
  refine (inOrder_failed_iff (lt_length_works (.refl _))).mpr
    ⟨List.range slot, todo, before, split, finished, here, ?_⟩
  rw [work]
  exact action_of_fault fails

end Job
end BulkSync
