import BulkSync.Element

/-!
# Reducers

A reducer folds the messages to a node into one, starting from an identity. The least message starts
from the greatest finite element, the greatest one from the least finite element.
-/

namespace BulkSync

/-- How a message is folded into the value so far. -/
structure Reducer (M : Type) where
  identity : M
  reduce : M → M → Except Fault M

namespace Reducer

variable {M : Type} [Element M]

/-- The sum of the messages; fails when it leaves the range of an integer kind. -/
def sum : Reducer M := ⟨default, Element.add?⟩

/-- The least message. -/
def min : Reducer M :=
  ⟨Element.greatest, fun current message =>
    .ok (if Element.less message current then message else current)⟩

/-- The greatest message. -/
def max : Reducer M :=
  ⟨Element.least, fun current message =>
    .ok (if Element.less current message then message else current)⟩

/-- The number of messages. -/
def count : Reducer M := ⟨default, fun current _ => Element.add? current Element.one⟩

/-- The sum of the messages and a start, wrapped around. -/
def wrappingSum (start : M) : Reducer M :=
  ⟨start, fun current message => .ok (Element.wrappingAdd current message)⟩

/-- The product of the messages and a start, wrapped around. -/
def wrappingProduct (start : M) : Reducer M :=
  ⟨start, fun current message => .ok (Element.wrappingMul current message)⟩

/-- The last message. -/
def last (start : M) : Reducer M := ⟨start, fun _ message => .ok message⟩

/-- The start, whatever is sent. -/
def keep (start : M) : Reducer M := ⟨start, fun current _ => .ok current⟩

end Reducer

/-- The fold of messages from a value, up to the first that fails. -/
def Reducer.foldFrom {M : Type} (r : Reducer M) (start : M) (messages : List M) : Except Fault M :=
  messages.foldlM r.reduce start

end BulkSync
