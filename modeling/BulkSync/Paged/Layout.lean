import BulkSync.Word

/-!
# Page layouts

A layout cuts the indices of an array into pages of `2 ^ shift` slots. Index `i` lies in slot
`i % 2 ^ shift` of page `i / 2 ^ shift`.
-/

namespace BulkSync.Paged

/-- How many slots a page has, as a power of two. -/
structure Layout where
  shift : Nat
  deriving DecidableEq, Repr

namespace Layout

/-- The greatest shift allowed. -/
def greatestShift : Nat := 30

/-- Pages of 4096 slots, used where no layout is asked for. -/
def usual : Layout := ⟨12⟩

/-- The layout with a shift, if that is allowed. -/
def ofShift (shift : Nat) : Except Fault Layout :=
  if shift ≤ greatestShift then .ok ⟨shift⟩ else .error (.pageShift shift greatestShift)

/-- The slots of a page. -/
def pageSize (l : Layout) : Nat := 1 <<< l.shift

/-- A page is never empty. -/
theorem pageSize_pos (l : Layout) : 0 < l.pageSize := by
  rw [pageSize, Nat.one_shiftLeft]
  exact Nat.two_pow_pos _

/-- The page of an index. -/
def pageOf (l : Layout) (index : Nat) : Nat := index >>> l.shift

/-- The pages are numbered in the order of their slots. -/
theorem pageOf_eq (l : Layout) (index : Nat) : l.pageOf index = index / l.pageSize := by
  rw [pageOf, pageSize, Nat.one_shiftLeft, Nat.shiftRight_eq_div_pow]

/-- The slot of an index in its page. -/
def slotOf (l : Layout) (index : Nat) : Nat := index % l.pageSize

/-- The pages needed for a size. -/
def pagesFor (l : Layout) (size : Nat) : Nat := Word.ceilDiv size l.pageSize

/-- The bytes that one entry of a page directory takes. -/
def directoryEntry : Nat := 16

end Layout

/-- The bytes that an array of `size` elements of `elementBytes` bytes takes: its page directory and
its pages. The pages saturate; the directory and the total are checked. -/
def footprint (size shift elementBytes : Nat) : Except Fault Nat := do
  let layout ← Layout.ofShift shift
  let pages := layout.pagesFor size
  let directory ← Word.mul? pages Layout.directoryEntry
  Word.add? directory (Word.satMul (Word.satMul pages layout.pageSize) elementBytes)

end BulkSync.Paged
