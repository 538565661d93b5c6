import BulkSync.Element
import BulkSync.Paged.Basic

/-!
# Messages to one node

The messages to a node are taken one by one. They are either a stretch of a packed array, or the one
value that they were reduced to, if there were any.
-/

namespace BulkSync

/-- The messages to a node that have not been taken yet. -/
inductive Messages (M : Type) where
  | packed (values : Paged M) (next stop : Nat)
  | reduced (value : Option M)

namespace Messages

variable {M : Type}

/-- How many messages are still to come. -/
def length : Messages M → Nat
  | .packed _ next stop => stop - next
  | .reduced value => if value.isSome then 1 else 0

/-- Whether no message is still to come. -/
def isEmpty (m : Messages M) : Bool := m.length == 0

/-- The next message, and those behind it. -/
def next? [Inhabited M] : Messages M → Option (M × Messages M)
  | .packed values next stop =>
      if stop ≤ next then none else some (values.peek next, .packed values (next + 1) stop)
  | .reduced (some value) => some (value, .reduced none)
  | .reduced none => none

/-- What is left when one message is taken. -/
def rest [Inhabited M] (m : Messages M) : Messages M := (m.next?.map (·.2)).getD m

/-- All messages still to come, in order. -/
def toList [Inhabited M] : Messages M → List M
  | .packed values next stop => (List.range' next (stop - next)).map values.peek
  | .reduced value => value.toList

/-! ## Taking messages one by one -/

variable [Inhabited M]

/-- What is still to come is the next message, and then what comes behind it. -/
theorem toList_of_next? {m rest : Messages M} {value : M} (h : m.next? = some (value, rest)) :
    m.toList = value :: rest.toList := by
  cases m with
  | packed values next stop =>
    simp only [next?] at h
    split at h
    · simp at h
    · next inside =>
      simp only [Option.some.injEq, Prod.mk.injEq] at h
      obtain ⟨rfl, rfl⟩ := h
      have one : stop - next = (stop - (next + 1)) + 1 := by omega
      simp only [toList]
      rw [one, List.range'_succ, List.map_cons]
  | reduced value =>
    cases value with
    | none => simp [next?] at h
    | some value =>
      simp only [next?, Option.some.injEq, Prod.mk.injEq] at h
      obtain ⟨rfl, rfl⟩ := h
      rfl

/-- There is no next message when none is still to come. -/
theorem next?_eq_none_iff (m : Messages M) : m.next? = none ↔ m.toList = [] := by
  cases m with
  | packed values next stop =>
    simp only [next?, toList, List.map_eq_nil_iff, List.range'_eq_nil_iff]
    split
    · simp; omega
    · simp; omega
  | reduced value => cases value <;> simp [next?, toList]

/-- The length is the number of messages still to come. -/
theorem length_toList (m : Messages M) : m.toList.length = m.length := by
  cases m with
  | packed values next stop => simp [toList, length]
  | reduced value => cases value <;> simp [toList, length]

end Messages
end BulkSync
