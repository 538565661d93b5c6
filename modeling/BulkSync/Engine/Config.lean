import BulkSync.Concurrency

/-!
# Configurations of a run

How many supersteps a run may take, and how its nodes are cut into tasks.
-/

namespace BulkSync

/-- How the nodes are cut into runs: by count, by degree, or by degree if there are any edges. -/
inductive Partitioning where
  | range
  | degree
  | auto
  deriving DecidableEq, Repr, Inhabited

/-- The word for a partitioning in texts. -/
def Partitioning.name : Partitioning → String
  | .range => "range"
  | .degree => "degree"
  | .auto => "auto"

/-- The configuration of a run. -/
structure Config where
  maxIterations : UInt32 := 20
  concurrency : Concurrency := Concurrency.available
  minBatchSize : UInt64 := 10000
  partitioning : Partitioning := .auto
  deriving DecidableEq

/-- What is wrong with a configuration. -/
inductive ConfigError where
  | noIterations
  | emptyBatches
  deriving DecidableEq, Repr

/-- The wording of a configuration error. -/
def ConfigError.message : ConfigError → String
  | .noIterations => "invalid pregel configuration: max_iterations must be at least 1"
  | .emptyBatches => "invalid pregel configuration: min_batch_size must be at least 1"

namespace Config

instance : Inhabited Config := ⟨{}⟩

/-- Refuses a configuration without supersteps, then one with empty batches. -/
def validate (c : Config) : Except ConfigError Unit :=
  if c.maxIterations = 0 then .error .noIterations
  else if c.minBatchSize = 0 then .error .emptyBatches
  else .ok ()

end Config
end BulkSync
