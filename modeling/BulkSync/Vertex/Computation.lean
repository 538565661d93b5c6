import BulkSync.Message.Reducer
import BulkSync.Property.Schema
import BulkSync.Vertex.Program

/-!
# Vertex computations

A computation says which properties each node has, how a node is set up, what a node does in a
superstep with the messages it has received, and what happens between two supersteps. Each of these
is a program on a context of its own: setting up and computing can reach the properties of their own
node only.
-/

namespace BulkSync

/-! ## Contexts -/

/-- What the set-up of a node can ask for. -/
inductive SetupCall where
  | degree
  | setLong (key : String) (value : Int64)
  | setDouble (key : String) (value : Binary64)
  /-- Raises the stop flag. -/
  | raise

/-- The context of the set-up of a node. -/
abbrev SetupContext : Interface where
  Call := SetupCall
  Answer
    | .degree => Nat
    | .setLong _ _ | .setDouble _ _ | .raise => Unit

/-- What a node can ask for in a superstep. A walk over its neighbours goes on as long as `more`
holds of what has been seen. -/
inductive VertexCall (M : Type) where
  | degree
  | neighbors (more : Array Nat → Bool)
  | weightedNeighbors (more : Array (Nat × Binary64) → Bool)
  | getLong (key : String)
  | getDouble (key : String)
  | setLong (key : String) (value : Int64)
  | setDouble (key : String) (value : Binary64)
  | send (target : Nat) (message : M)
  | sendToNeighbors (message : M)
  /-- Votes to halt: the node sleeps until a message wakes it up. -/
  | halt
  /-- Raises the stop flag. -/
  | raise

/-- The context of a node in a superstep. -/
abbrev VertexContext (M : Type) : Interface where
  Call := VertexCall M
  Answer
    | .degree => Nat
    | .neighbors _ => Array Nat
    | .weightedNeighbors _ => Array (Nat × Binary64)
    | .getLong _ => Int64
    | .getDouble _ => Binary64
    | .setLong _ _ | .setDouble _ _ | .send _ _ | .sendToNeighbors _ | .halt | .raise => Unit

/-- What can be asked for between two supersteps. -/
inductive MasterCall where
  | degree (node : Nat)
  | neighbors (node : Nat) (more : Array Nat → Bool)
  | weightedNeighbors (node : Nat) (more : Array (Nat × Binary64) → Bool)
  | longs (key : String)
  | doubles (key : String)
  | getLong (key : String) (node : Nat)
  | getDouble (key : String) (node : Nat)
  | setLong (key : String) (node : Nat) (value : Int64)
  | setDouble (key : String) (node : Nat) (value : Binary64)
  /-- Raises the stop flag. -/
  | raise

/-- The context between two supersteps. -/
abbrev MasterContext : Interface where
  Call := MasterCall
  Answer
    | .degree _ => Nat
    | .neighbors _ _ => Array Nat
    | .weightedNeighbors _ _ => Array (Nat × Binary64)
    | .longs _ => List Int64
    | .doubles _ => List Binary64
    | .getLong _ _ => Int64
    | .getDouble _ _ => Binary64
    | .setLong _ _ _ | .setDouble _ _ _ | .raise => Unit

/-! ## Computations -/

/-- A node that is being set up, in a graph of so many nodes. -/
structure SetupView where
  node : Nat
  nodes : Nat

/-- A node in a superstep, in a graph of so many nodes. -/
structure VertexView where
  node : Nat
  superstep : Nat
  nodes : Nat

/-- A superstep that has just ended, in a graph of so many nodes and edges. -/
structure MasterView where
  superstep : Nat
  nodes : Nat
  edges : Nat

/-- A vertex computation with messages of a kind. -/
structure Computation (M : Type) where
  /-- The properties of each node. Declaring them can fail. -/
  schema : Except Fault Schema
  /-- How messages to one node are folded; none keeps every message. -/
  reducer : Option (Reducer M) := none
  /-- Sets up a node, before it computes for the first time. -/
  setup : SetupView → Program SetupContext Unit := fun _ => .done ()
  /-- What a node does in a superstep with the messages it has received. -/
  compute : VertexView → List M → Program (VertexContext M) Unit
  /-- What happens behind a superstep, and whether it was the last. -/
  master : MasterView → Program MasterContext Bool := fun _ => .done false

end BulkSync
