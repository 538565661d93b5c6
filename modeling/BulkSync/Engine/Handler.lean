import BulkSync.Engine.Board
import BulkSync.Graph.View
import BulkSync.Vertex.Computation

/-!
# What the calls of a computation do

Each context of a computation has a handler, which says what the calls do to the board. The handlers
for a node are given the node: they touch the properties and the vote of no other.
-/

namespace BulkSync.Handler

variable {γ M : Type} [GraphView γ]

/-- Remembers what is seen on a walk, which goes on while `more` holds of it. -/
def seeing {α : Type} (more : Array α → Bool) : Visitor (Array α) α := fun seen x =>
  let seen := seen.push x
  (seen, more seen)

/-- All targets of the edges that leave a node. -/
def targets (g : γ) (node : Nat) : Except Fault (Array Nat) :=
  GraphView.foldNeighbors g node (seeing fun _ => true) #[]

/-- Replaces the properties, or fails and keeps them. -/
def update (change : PropertyStore → Except Fault PropertyStore) : Attempt (Board M) Unit :=
  Attempt.replace fun b => (change b.store).map b.setStore

/-- Raises the stop flag. -/
def raise : Attempt (Board M) Unit := Attempt.change fun b => { b with raised := true }

/-- The calls of the set-up of a node. -/
def setup (g : γ) (node : Nat) :
    (call : SetupCall) → Attempt (Board M) (SetupContext.Answer call)
  | .degree => Attempt.lift (GraphView.degree g node)
  | .setLong key value => update (·.writeLong key node value)
  | .setDouble key value => update (·.writeDouble key node value)
  | .raise => raise

/-- The calls of a node in a superstep. -/
def vertex [Element M] (g : γ) (superstep node : Nat) :
    (call : VertexCall M) → Attempt (Desk M) ((VertexContext M).Answer call)
  | .degree => Attempt.lift (GraphView.degree g node)
  | .neighbors more => Attempt.lift (GraphView.foldNeighbors g node (seeing more) #[])
  | .weightedNeighbors more => Attempt.lift (GraphView.foldWeighted g node (seeing more) #[])
  | .getLong key => Attempt.inspect fun d => d.board.store.readLong key node
  | .getDouble key => Attempt.inspect fun d => d.board.store.readDouble key node
  | .setLong key value => Desk.atBoard (update (·.writeLong key node value))
  | .setDouble key value => Desk.atBoard (update (·.writeDouble key node value))
  | .send target message =>
      let nodes := GraphView.nodeCount g
      if target < nodes then Desk.send superstep node [target] message
      else throw (.targetOutOfBounds target nodes)
  | .sendToNeighbors message => do
      let targets ← Attempt.lift (targets g node)
      Desk.send superstep node targets.toList message
  | .halt => Attempt.change (Desk.onBoard fun b =>
      { b with votes := b.votes.put node }.note (.halt superstep node))
  | .raise => Desk.atBoard raise

/-- The calls between two supersteps. -/
def master (g : γ) : (call : MasterCall) → Attempt (Board M) (MasterContext.Answer call)
  | .degree node => Attempt.lift (GraphView.degree g node)
  | .neighbors node more => Attempt.lift (GraphView.foldNeighbors g node (seeing more) #[])
  | .weightedNeighbors node more => Attempt.lift (GraphView.foldWeighted g node (seeing more) #[])
  | .longs key => Attempt.inspect fun b =>
      ((b.store.longs key).map Cells.toList).mapError .property
  | .doubles key => Attempt.inspect fun b =>
      ((b.store.doubles key).map Cells.toList).mapError .property
  | .getLong key node => Attempt.inspect fun b => b.store.readLong key node
  | .getDouble key node => Attempt.inspect fun b => b.store.readDouble key node
  | .setLong key node value => update (·.writeLong key node value)
  | .setDouble key node value => update (·.writeDouble key node value)
  | .raise => raise

end BulkSync.Handler
