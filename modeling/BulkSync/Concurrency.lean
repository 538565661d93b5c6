/-!
# Degrees of concurrency

How many workers may work on a batch at once; at least one, and no more than fit a 64-bit count.
-/

namespace BulkSync

/-- A positive number of workers. -/
structure Concurrency where
  workers : Nat
  positive : 0 < workers
  bounded : workers < UInt64.size
  deriving DecidableEq

namespace Concurrency

/-- The concurrency of `n` workers, if that is any. -/
def ofNat? (n : Nat) : Option Concurrency :=
  if h : 0 < n ∧ n < UInt64.size then some ⟨n, h.1, h.2⟩ else none

/-- A single worker. -/
def single : Concurrency := ⟨1, by decide, by decide⟩

/-- The workers that the machine has processors for: it grants one. -/
def available : Concurrency := single

instance : Inhabited Concurrency := ⟨available⟩

/-- The outline of a concurrency. -/
def describe (c : Concurrency) : String := s!"Concurrency({c.workers})"

end Concurrency
end BulkSync
