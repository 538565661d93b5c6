import BulkSync.Element
import BulkSync.Paged.Layout

/-!
# Paged arrays

A paged array keeps its elements in pages of one size, so that it grows without moving what it
holds. It can be released once: its pages are given up, and every later access fails.

`peek` and `poke` reach a slot without a check (a slot that is not there reads as the default and
keeps nothing); `read` and `write` check the index first.
-/

namespace BulkSync

/-- An array of elements kept in pages. -/
structure Paged (α : Type) where
  layout : Paged.Layout
  size : Nat
  pages : Array (Array α)
  released : Bool

namespace Paged

variable {α : Type}

/-! ## Construction -/

/-- A page of default elements. -/
def freshPage [Inhabited α] (layout : Layout) : Array α := Array.replicate layout.pageSize default

/-- Pages of default elements. -/
def freshPages [Inhabited α] (layout : Layout) (count : Nat) : Array (Array α) :=
  Array.ofFn fun _ : Fin count => freshPage layout

/-- An array of default elements in pages of a layout. -/
def ofLayout [Inhabited α] (size : Nat) (layout : Layout) : Paged α where
  layout := layout
  size := size
  pages := freshPages layout (layout.pagesFor size)
  released := false

/-- An array of default elements in pages of the usual layout. -/
def new [Inhabited α] (size : Nat) : Paged α := ofLayout size .usual

/-- An array of default elements in pages of `2 ^ shift` slots. -/
def withShift [Inhabited α] (size shift : Nat) : Except Fault (Paged α) := do
  let layout ← Layout.ofShift shift
  Word.reserve (layout.pagesFor size) Layout.directoryEntry
  return ofLayout size layout

/-! ## Access -/

/-- The number of pages. -/
def pageCount (a : Paged α) : Nat := a.pages.size

/-- The element in a slot; the default where there is no slot. -/
def peek [Inhabited α] (a : Paged α) (index : Nat) : α :=
  (a.pages.getD (a.layout.pageOf index) #[]).getD (a.layout.slotOf index) default

/-- Puts an element into a slot, if there is one. -/
def poke (a : Paged α) (index : Nat) (value : α) : Paged α :=
  { a with
    pages := a.pages.modify (a.layout.pageOf index) fun page =>
      page.setIfInBounds (a.layout.slotOf index) value }

/-- Whether an index can be accessed. -/
def check (a : Paged α) (index : Nat) : Except AccessError Unit :=
  if a.released then .error .released
  else if a.size ≤ index then .error (.outOfBounds index a.size)
  else .ok ()

/-- The element at an index. -/
def read [Inhabited α] (a : Paged α) (index : Nat) : Except AccessError α := do
  a.check index
  return a.peek index

/-- The array with another element at an index. -/
def write (a : Paged α) (index : Nat) (value : α) : Except AccessError (Paged α) := do
  a.check index
  return a.poke index value

/-! ## Filling -/

/-- Sets every element to what `f` answers for its index, asking once per index in ascending
order. -/
def assignM {m : Type → Type} [Monad m] (a : Paged α) (f : Nat → m α) : m (Paged α) := do
  let pages ← a.pages.mapIdxM fun page slots =>
    slots.mapIdxM fun slot old =>
      let index := page * a.layout.pageSize + slot
      if index < a.size then f index else pure old
  return { a with pages := pages }

/-- Sets every element to the value of `f` at its index. -/
def assign (a : Paged α) (f : Nat → α) : Paged α := Id.run (a.assignM fun index => pure (f index))

/-- Sets every element to one value. -/
def fill (a : Paged α) (value : α) : Paged α := a.assign fun _ => value

/-- An array of one value. -/
def filled [Inhabited α] (size : Nat) (value : α) : Paged α := (new size).fill value

/-- An array of the answers of `f`. -/
def ofFnM {m : Type → Type} [Monad m] [Inhabited α] (size : Nat) (f : Nat → m α) : m (Paged α) :=
  (new size).assignM f

/-! ## Growth and release -/

/-- Makes room for `size` elements; the new ones are default elements. The rest of the last page is
reset before it comes into sight. -/
def grow [Inhabited α] (a : Paged α) (size : Nat) : Except Fault (Paged α) :=
  if a.released then .error (.access .released)
  else if size ≤ a.size then .ok a
  else
    let allocated := a.pages.size * a.layout.pageSize
    let hidden := List.range' a.size (min size allocated - a.size)
    let cleared := hidden.foldl (fun a index => a.poke index default) a
    let missing := a.layout.pagesFor size - cleared.pages.size
    .ok { cleared with
      pages := cleared.pages ++ freshPages a.layout missing
      size := size }

/-- Gives up the pages and says how many bytes that frees; nothing the second time. -/
def release [Element α] (a : Paged α) : Nat × Paged α :=
  if a.released then (0, a)
  else
    (a.pages.size * a.layout.pageSize * Element.width α,
      { a with pages := #[], size := 0, released := true })

/-- The outline of an array: its measures without its elements. -/
def describe (a : Paged α) : String :=
  s!"PagedArray \x7b size: {a.size}, page_size: {a.layout.pageSize}, pages: {a.pages.size}, released: {a.released} \x7d"

end Paged
end BulkSync
