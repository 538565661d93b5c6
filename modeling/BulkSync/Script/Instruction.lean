import BulkSync.Script.Expr
import BulkSync.Vertex.Calls

/-!
# Instructions of scripts

What a node is told to do, first when it is set up, then in each superstep. The values of expressions
are converted to what they are used for: the kind of a property, the kind of the messages, or the
number of a node.
-/

namespace BulkSync

/-- A node id or a count as a value. -/
def Value.ofNat (n : Nat) : Value := .long (Int64.ofNat n)

/-! ## Setting up -/

/-- What is known when a node is set up. -/
inductive SetupAtom where
  | node
  | nodes
  | degree

/-- The value of an atom. -/
def SetupAtom.look (view : SetupView) : SetupAtom → Program SetupContext Value
  | .node => pure (.ofNat view.node)
  | .nodes => pure (.ofNat view.nodes)
  | .degree => do
      let degree ← SetupContext.degree
      return .ofNat degree

/-- What a node is told to do when it is set up. -/
inductive SetupInstruction where
  | setLong (key : String) (value : Expr SetupAtom)
  | setDouble (key : String) (value : Expr SetupAtom)

/-- What an instruction does. -/
def SetupInstruction.program (view : SetupView) : SetupInstruction → Program SetupContext Unit
  | .setLong key value => do
      let v ← value.eval (SetupAtom.look view) []
      SetupContext.setLong key v.toLong
  | .setDouble key value => do
      let v ← value.eval (SetupAtom.look view) []
      SetupContext.setDouble key v.toDouble

/-- What a list of instructions does. -/
def SetupInstruction.programs (view : SetupView) :
    List SetupInstruction → Program SetupContext Unit
  | [] => pure ()
  | i :: is => do
      i.program view
      programs view is

/-! ## Computing -/

/-- What is known to a node in a superstep. -/
inductive VertexAtom where
  | node
  | superstep
  /-- Whether this is the first superstep. -/
  | initial
  | nodes
  | degree
  | long (key : String)
  | double (key : String)
  /-- The weight of the edge at hand. -/
  | weight
  /-- The number of messages. -/
  | count
  /-- The sum of the messages. -/
  | sum

/-- What a node is told to do in a superstep. -/
inductive Instruction where
  | branch (condition : Expr VertexAtom) (yes no : List Instruction)
  | setLong (key : String) (value : Expr VertexAtom)
  | setDouble (key : String) (value : Expr VertexAtom)
  | send (target message : Expr VertexAtom)
  /-- Sends one message along every edge. -/
  | sendAll (message : Expr VertexAtom)
  /-- Sends one message along the first edges; along one at least. -/
  | sendFirst (limit : Nat) (message : Expr VertexAtom)
  /-- Sends along every edge a message that may depend on its weight. -/
  | sendWeighted (message : Expr VertexAtom)
  | halt
  | raise
  | fail (text : String)

instance : Inhabited Instruction := ⟨.halt⟩

section

variable {M : Type} [Element M]

/-- The value of an atom at a node with messages, for an edge of a weight. -/
def VertexAtom.look (view : VertexView) (received : List Value) (weight : Binary64) :
    VertexAtom → Program (VertexContext M) Value
  | .node => pure (.ofNat view.node)
  | .superstep => pure (.ofNat view.superstep)
  | .initial => pure (.ofBool (view.superstep == 0))
  | .nodes => pure (.ofNat view.nodes)
  | .degree => do
      let degree ← VertexContext.degree
      return .ofNat degree
  | .long key => do
      let i ← VertexContext.getLong key
      return .long i
  | .double key => do
      let x ← VertexContext.getDouble key
      return .double x
  | .weight => pure (.double weight)
  | .count => pure (.ofNat received.length)
  | .sum => pure (received.foldl Value.add (Element.toValue (default : M)))

namespace Instruction

/-- The value of an expression at a node with messages, for an edge of a weight. -/
def evalAt (view : VertexView) (messages : List M) (weight : Binary64) (e : Expr VertexAtom) :
    Program (VertexContext M) Value :=
  let received := messages.map Element.toValue
  e.eval (VertexAtom.look view received weight) received

/-- The value of an expression at a node with messages. -/
def value (view : VertexView) (messages : List M) (e : Expr VertexAtom) :
    Program (VertexContext M) Value :=
  evalAt view messages default e

/-- Sends a message to each of the given nodes. -/
def sendEach (message : M) : List Nat → Program (VertexContext M) Unit
  | [] => pure ()
  | target :: targets => do
      VertexContext.send target message
      sendEach message targets

/-- Sends a message along each of the given edges. -/
def sendAlong (view : VertexView) (messages : List M) (message : Expr VertexAtom) :
    List (Nat × Binary64) → Program (VertexContext M) Unit
  | [] => pure ()
  | (target, weight) :: edges => do
      let v ← evalAt view messages weight message
      VertexContext.send target (Element.ofValue v)
      sendAlong view messages message edges

mutual

/-- What an instruction does. -/
def program (view : VertexView) (messages : List M) :
    Instruction → Program (VertexContext M) Unit
  | .branch condition yes no => do
      let v ← value view messages condition
      if v.isTrue then programs view messages yes else programs view messages no
  | .setLong key e => do
      let v ← value view messages e
      VertexContext.setLong key v.toLong
  | .setDouble key e => do
      let v ← value view messages e
      VertexContext.setDouble key v.toDouble
  | .send target e => do
      let t ← value view messages target
      let v ← value view messages e
      VertexContext.send t.toLong.toUInt64.toNat (Element.ofValue v)
  | .sendAll e => do
      let v ← value view messages e
      VertexContext.sendToNeighbors (Element.ofValue v)
  | .sendFirst limit e => do
      let v ← value view messages e
      let targets ← VertexContext.neighbors fun seen => decide (seen.size < limit)
      sendEach (Element.ofValue v) targets.toList
  | .sendWeighted e => do
      let edges ← VertexContext.weightedNeighbors fun _ => true
      sendAlong view messages e edges.toList
  | .halt => VertexContext.halt
  | .raise => VertexContext.raise
  | .fail text => .fail (.raised text)

/-- What a list of instructions does. -/
def programs (view : VertexView) (messages : List M) :
    List Instruction → Program (VertexContext M) Unit
  | [] => pure ()
  | i :: is => do
      program view messages i
      programs view messages is

end

end Instruction
end
end BulkSync
