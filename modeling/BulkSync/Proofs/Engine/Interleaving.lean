import BulkSync.Proofs.Engine.Reduction
import BulkSync.Proofs.Engine.Weave

/-! # Runs whose tasks are interleaved

What is said of runs whose tasks take turns holds as well if the tasks of a superstep are carried out node by node
in any interleaving. It is enough that tasks which have all finished were woven (`Engine.Weaves`), and so they are
when workers carry them out, whichever of them are chosen to act (`weaves_interleaved`). Nodes are set up, woken and
delivered to (`Weaves.delivers`), the run stops by the same rule (`Weaves.stops`), and it makes no difference how
the work is split (`Weaves.independent`) or whether messages are reduced on their way (`Weaves.reduces`). -/

namespace BulkSync.Engine

variable {γ M : Type} [GraphView γ] [Element M]

/-- The tasks of each superstep of a run are woven if they all finish. -/
def Weaves (e : Engine γ M) (executor : Nat → Executor (Board M)) : Prop :=
  ∀ job board, e.prepare executor = .ok (job, board) → ∀ s, job.Weaves s

/-- Tasks that take turns are woven. -/
theorem weaves_of_takesTurns (e : Engine γ M) {executor : Nat → Executor (Board M)}
    (turns : ∀ s, (executor s).TakesTurns Board.raised) : e.Weaves executor := by
  intro job board prepared s
  obtain ⟨_, _, _, _, _, _, rfl, _⟩ := prepare_ok prepared
  exact Job.weaves_of_turns (turns s)

/-- Tasks that workers carry out action by action are woven, whichever of the workers are chosen to act. -/
theorem weaves_interleaved (e : Engine γ M) {spans : List Span} (cut : e.spans = .ok spans)
    (choose : Nat → Nat → Nat) : e.Weaves (e.interleaved spans choose) := by
  intro job board prepared s
  obtain ⟨_, _, _, _, cutToo, _, rfl, _⟩ := prepare_ok prepared
  cases cut.symm.trans cutToo
  exact Job.weaves_interleaved e choose s

namespace Weaves

variable {r : Reducer M} {e f after afterToo : Engine γ M} {executor other : Nat → Executor (Board M)}
  {result resultToo : RunResult} {schema : Schema} {job : Job γ M} {board : Board M}

theorem steps (weaves : e.Weaves executor) (account : e.Account executor result after schema job board) :
    job.Steps schema (GraphView.nodeCount e.graph) board result.supersteps :=
  account.steps_of_reliable fun s => Job.reliable_of_weaves account.tile (weaves job board account.prepared s)

/-- A run whose tasks are interleaved sets nodes up, activates them and delivers their messages. -/
theorem delivers (weaves : e.Weaves executor) (fresh : e.Fresh) (ran : e.runWith executor = (.ok result, after))
    (calm : result.outcome ≠ .cancelled) : e.Delivers executor result after.record.toList := by
  obtain ⟨schema, job, board, account⟩ := Engine.account fresh ran calm
  exact account.delivers (weaves.steps account) fresh

/-- It stops with its first conclusive superstep, or with the last one that is allowed. -/
theorem stops (weaves : e.Weaves executor) (fresh : e.Fresh) (ran : e.runWith executor = (.ok result, after))
    (calm : result.outcome ≠ .cancelled) : ∃ job board, e.prepare executor = .ok (job, board) ∧
      e.Stops job board result after.record.toList := by
  obtain ⟨schema, job, board, account⟩ := Engine.account fresh ran calm
  exact ⟨job, board, account.prepared, account.stops (weaves.steps account)⟩

/-- However the work is split and the tasks are interleaved, the result is the same, and every node does the same
in every superstep. -/
theorem independent (weaves : e.Weaves executor) (weavesToo : f.Weaves other) (kin : e.Kin f) (fresh : e.Fresh)
    (freshToo : f.Fresh) (agrees : OrderAgrees e.computation.reducer executor other)
    (ran : e.runWith executor = (.ok result, after)) (calm : result.outcome ≠ .cancelled)
    (ranToo : f.runWith other = (.ok resultToo, afterToo)) (calmToo : resultToo.outcome ≠ .cancelled) :
    resultToo = result ∧ ∀ s node,
      eventsOf afterToo.record.toList s node = eventsOf after.record.toList s node ∧
      computesOf afterToo.record.toList s node = computesOf after.record.toList s node := by
  obtain ⟨schema, job, board, account⟩ := Engine.account fresh ran calm
  obtain ⟨schemaToo, jobToo, boardToo, accountToo⟩ := Engine.account freshToo ranToo calmToo
  exact account.independent accountToo kin (weaves.steps account) (weavesToo.steps accountToo) agrees

/-- A computation that uses its messages only through their fold has the same result with the reducer and without
it, in any interleavings of the tasks. -/
theorem reduces (weaves : e.Weaves executor) (weavesToo : f.Weaves other) (free : r.OrderFree)
    (neutral : ∀ message, r.reduce r.identity message = .ok message) (uses : e.computation.UsesFold r)
    (reduces : e.Reduces r f) (fresh : e.Fresh) (freshToo : f.Fresh) (unbroken : e.Unbroken executor)
    (unbrokenToo : f.Unbroken other) :
    ∃ result after resultToo afterToo, e.runWith executor = (.ok result, after) ∧
      f.runWith other = (.ok resultToo, afterToo) ∧ resultToo = result ∧ ∀ s node,
        (computesOf afterToo.record.toList s node).length = (computesOf after.record.toList s node).length ∧
        (eventsOf afterToo.record.toList s node).map Event.bare =
          (eventsOf after.record.toList s node).map Event.bare := by
  obtain ⟨result, after, ran, calm⟩ := unbroken_runs fresh unbroken
  obtain ⟨resultToo, afterToo, ranToo, calmToo⟩ := unbroken_runs freshToo unbrokenToo
  obtain ⟨schema, job, board, account⟩ := Engine.account fresh ran calm
  obtain ⟨schemaToo, jobToo, boardToo, accountToo⟩ := Engine.account freshToo ranToo calmToo
  obtain ⟨_, rfl⟩ := account.reduces accountToo reduces
  exact ⟨result, after, resultToo, afterToo, ran, ranToo, account.condensed accountToo reduces free neutral uses
    (weaves.steps account) (weavesToo.steps accountToo)⟩

end Weaves

/-- The worker that claims the second task visits its node first, and the one with the first task hands in first. -/
example : (greetingEngine.runWith (greetingEngine.interleaved [⟨0, 1⟩, ⟨1, 1⟩] fun _ step =>
    if 14 ≤ step ∧ step < 18 then 1 else 0)).2.record.toList.filterMap Event.node? =
      [1, 1, 1, 1, 0, 0, 0, 0, 1, 1, 0, 0] := by
  decide +kernel

end BulkSync.Engine
