import BulkSync.Concurrency

/-!
# Pools of threads

The threads that the workers of a batch run on. A pool has at least one: asked for none, it takes as
many as the machine has processors for.
-/

namespace BulkSync

/-- A positive number of threads. -/
structure Pool where
  threads : Nat
  positive : 0 < threads

namespace Pool

/-- A pool of a thread per worker. -/
def ofConcurrency (c : Concurrency) : Pool := ⟨c.workers, c.positive⟩

/-- A pool of a single thread. -/
def single : Pool := ofConcurrency .single

/-- A pool of the threads that the machine has processors for. -/
def available : Pool := ofConcurrency .available

/-- The pool that is made when so many threads are asked for. -/
def ofThreads (asked : Nat) : Pool := if h : 0 < asked then ⟨asked, h⟩ else available

/-- A pool has the threads that are asked for, if any are. -/
theorem threads_ofThreads {asked : Nat} (h : 0 < asked) : (ofThreads asked).threads = asked := by
  simp [ofThreads, h]

instance : Inhabited Pool := ⟨single⟩

/-- The outline of a pool. -/
def describe (p : Pool) : String := s!"WorkerPool \x7b threads: {p.threads} \x7d"

end Pool
end BulkSync
