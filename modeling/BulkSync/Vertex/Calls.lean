import BulkSync.Vertex.Computation

/-!
# The calls of computations as programs

What the code of a computation is written with: each call on a context as the program that makes it.
-/

namespace BulkSync

namespace SetupContext

/-- The program that makes a call. -/
def ask (call : SetupCall) : Program SetupContext (SetupContext.Answer call) :=
  Program.call (I := SetupContext) call

/-- The number of edges that leave the node. -/
def degree : Program SetupContext Nat := ask .degree

/-- Sets an integer of the node. -/
def setLong (key : String) (value : Int64) : Program SetupContext Unit := ask (.setLong key value)

/-- Sets a double of the node. -/
def setDouble (key : String) (value : Binary64) : Program SetupContext Unit :=
  ask (.setDouble key value)

/-- Raises the stop flag. -/
def raise : Program SetupContext Unit := ask .raise

end SetupContext

namespace VertexContext

variable {M : Type}

/-- The program that makes a call. -/
def ask (call : VertexCall M) : Program (VertexContext M) ((VertexContext M).Answer call) :=
  Program.call (I := VertexContext M) call

/-- The number of edges that leave the node. -/
def degree : Program (VertexContext M) Nat := ask .degree

/-- The targets of the edges that leave the node, as long as `more` holds of those seen. -/
def neighbors (more : Array Nat → Bool) : Program (VertexContext M) (Array Nat) :=
  ask (.neighbors more)

/-- The same with the weights of the edges. -/
def weightedNeighbors (more : Array (Nat × Binary64) → Bool) :
    Program (VertexContext M) (Array (Nat × Binary64)) :=
  ask (.weightedNeighbors more)

/-- An integer of the node. -/
def getLong (key : String) : Program (VertexContext M) Int64 := ask (.getLong key)

/-- A double of the node. -/
def getDouble (key : String) : Program (VertexContext M) Binary64 := ask (.getDouble key)

/-- Sets an integer of the node. -/
def setLong (key : String) (value : Int64) : Program (VertexContext M) Unit :=
  ask (.setLong key value)

/-- Sets a double of the node. -/
def setDouble (key : String) (value : Binary64) : Program (VertexContext M) Unit :=
  ask (.setDouble key value)

/-- Sends a message to a node. -/
def send (target : Nat) (message : M) : Program (VertexContext M) Unit := ask (.send target message)

/-- Sends a message along every edge that leaves the node. -/
def sendToNeighbors (message : M) : Program (VertexContext M) Unit := ask (.sendToNeighbors message)

/-- Votes to halt. -/
def halt : Program (VertexContext M) Unit := ask .halt

/-- Raises the stop flag. -/
def raise : Program (VertexContext M) Unit := ask .raise

end VertexContext

namespace MasterContext

/-- The program that makes a call. -/
def ask (call : MasterCall) : Program MasterContext (MasterContext.Answer call) :=
  Program.call (I := MasterContext) call

/-- The number of edges that leave a node. -/
def degree (node : Nat) : Program MasterContext Nat := ask (.degree node)

/-- The targets of the edges that leave a node, as long as `more` holds of those seen. -/
def neighbors (node : Nat) (more : Array Nat → Bool) : Program MasterContext (Array Nat) :=
  ask (.neighbors node more)

/-- The same with the weights of the edges. -/
def weightedNeighbors (node : Nat) (more : Array (Nat × Binary64) → Bool) :
    Program MasterContext (Array (Nat × Binary64)) :=
  ask (.weightedNeighbors node more)

/-- The integers of all nodes. -/
def longs (key : String) : Program MasterContext (List Int64) := ask (.longs key)

/-- The doubles of all nodes. -/
def doubles (key : String) : Program MasterContext (List Binary64) := ask (.doubles key)

/-- An integer of a node. -/
def getLong (key : String) (node : Nat) : Program MasterContext Int64 := ask (.getLong key node)

/-- A double of a node. -/
def getDouble (key : String) (node : Nat) : Program MasterContext Binary64 :=
  ask (.getDouble key node)

/-- Sets an integer of a node. -/
def setLong (key : String) (node : Nat) (value : Int64) : Program MasterContext Unit :=
  ask (.setLong key node value)

/-- Sets a double of a node. -/
def setDouble (key : String) (node : Nat) (value : Binary64) : Program MasterContext Unit :=
  ask (.setDouble key node value)

/-- Raises the stop flag. -/
def raise : Program MasterContext Unit := ask .raise

end MasterContext
end BulkSync
