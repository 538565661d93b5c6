import BulkSync.Paged.Cursor

/-!
# Shared paged arrays

The cells of a shared array hold words, so that several writers can exchange their contents
atomically. An exchange compares words: it tells the two zeros of a binary format apart, and finds a
NaN equal to itself.

`transformAmid` is the loop of read, compute and exchange. What happens between the read and the
exchange is given as a list, one entry per try: another writer may store something, and the exchange,
being a weak one, may fail for no reason. A try whose exchange fails is repeated with the word that it
has found.
-/

namespace BulkSync

/-- A shared array of elements, kept as words in pages. -/
structure Cells (α : Type) where
  layout : Paged.Layout
  size : Nat
  pages : Array (Array UInt64)
  released : Bool

namespace Cells

open Paged (Layout)

variable {α : Type} [Element α]

/-! ## Construction -/

/-- A page of words of the default element. -/
def freshPage (α : Type) [Element α] (layout : Layout) : Array UInt64 :=
  Array.replicate layout.pageSize (Element.toWord (default : α))

/-- Pages of words of the default element. -/
def freshPages (α : Type) [Element α] (layout : Layout) (count : Nat) : Array (Array UInt64) :=
  Array.ofFn fun _ : Fin count => freshPage α layout

/-- An array of default elements in pages of a layout. -/
def ofLayout (size : Nat) (layout : Layout) : Cells α where
  layout := layout
  size := size
  pages := freshPages α layout (layout.pagesFor size)
  released := false

/-- An array of default elements in pages of the usual layout. -/
def new (size : Nat) : Cells α := ofLayout size .usual

/-- An array of default elements in pages of `2 ^ shift` slots. -/
def withShift (size shift : Nat) : Except Fault (Cells α) := do
  let layout ← Layout.ofShift shift
  Word.reserve (layout.pagesFor size) Layout.directoryEntry
  return ofLayout size layout

/-! ## Access -/

/-- The number of pages. -/
def pageCount (a : Cells α) : Nat := a.pages.size

/-- The word in a cell; the zero word where there is no cell. -/
def peekWord (a : Cells α) (index : Nat) : UInt64 :=
  (a.pages.getD (a.layout.pageOf index) #[]).getD (a.layout.slotOf index) 0

/-- Puts a word into a cell, if there is one. -/
def pokeWord (a : Cells α) (index : Nat) (word : UInt64) : Cells α :=
  { a with
    pages := a.pages.modify (a.layout.pageOf index) fun page =>
      page.setIfInBounds (a.layout.slotOf index) word }

/-- The element in a cell. -/
def peek (a : Cells α) (index : Nat) : α := Element.ofWord (a.peekWord index)

/-- Puts an element into a cell, if there is one. -/
def poke (a : Cells α) (index : Nat) (value : α) : Cells α :=
  a.pokeWord index (Element.toWord value)

/-- Whether an index can be accessed. -/
def check (a : Cells α) (index : Nat) : Except AccessError Unit :=
  if a.released then .error .released
  else if a.size ≤ index then .error (.outOfBounds index a.size)
  else .ok ()

/-- The element at an index. -/
def read (a : Cells α) (index : Nat) : Except AccessError α := do
  a.check index
  return a.peek index

/-- The array with another element at an index. -/
def write (a : Cells α) (index : Nat) (value : α) : Except AccessError (Cells α) := do
  a.check index
  return a.poke index value

/-! ## Filling -/

/-- Sets at most `count` elements from an index on to what `f` answers for their indices; also says
whether the array reaches so far. -/
@[specialize] def assignSlots {m : Type → Type} [Monad m] (f : Nat → m α) :
    Nat → Nat → Cells α → m (Cells α × Bool)
  | 0, _, a => return (a, true)
  | count + 1, index, a =>
      if a.size ≤ index then return (a, false)
      else do assignSlots f count (index + 1) (a.poke index (← f index))

/-- Sets the elements of `count` pages, of which the first starts at an index, up to the end of the
array. -/
@[specialize] def assignPages {m : Type → Type} [Monad m] (f : Nat → m α) :
    Nat → Nat → Cells α → m (Cells α)
  | 0, _, a => return a
  | count + 1, start, a => do
      match ← assignSlots f a.layout.pageSize start a with
      | (a, true) => assignPages f count (start + a.layout.pageSize) a
      | (a, false) => return a

/-- Sets every element to what `f` answers for its index, asking once per index in ascending
order. -/
def assignM {m : Type → Type} [Monad m] (a : Cells α) (f : Nat → m α) : m (Cells α) :=
  assignPages f a.pages.size 0 a

/-- Sets every element to the value of `f` at its index. -/
def assign (a : Cells α) (f : Nat → α) : Cells α := Id.run (a.assignM fun index => pure (f index))

/-- Sets every element to one value. -/
def fill (a : Cells α) (value : α) : Cells α := a.assign fun _ => value

/-- An array of one value. -/
def filled (size : Nat) (value : α) : Cells α := (new size).fill value

/-! ## Growth and release -/

/-- Makes room for `size` elements; the new ones are default elements. The rest of the last page is
reset before it comes into sight. -/
def grow (a : Cells α) (size : Nat) : Except Fault (Cells α) :=
  if a.released then .error (.access .released)
  else if size ≤ a.size then .ok a
  else
    let allocated := a.pages.size * a.layout.pageSize
    let hidden := List.range' a.size (min size allocated - a.size)
    let cleared := hidden.foldl (fun a index => a.poke index default) a
    let missing := a.layout.pagesFor size - cleared.pages.size
    .ok { cleared with
      pages := cleared.pages ++ freshPages α a.layout missing
      size := size }

/-- Gives up the pages and says how many bytes that frees; nothing the second time. -/
def release (a : Cells α) : Nat × Cells α :=
  if a.released then (0, a)
  else
    (a.pages.size * a.layout.pageSize * Element.width α,
      { a with pages := #[], size := 0, released := true })

/-! ## Views -/

/-- All elements. -/
def toList (a : Cells α) : List α := (List.range a.size).map a.peek

/-- A paged array of the same layout and elements. -/
def toPaged (a : Cells α) : Paged α := (Paged.ofLayout a.size a.layout).assign a.peek

/-- The outline of an array: its measures without its elements. -/
def describe (a : Cells α) : String :=
  s!"AtomicPagedArray \x7b size: {a.size}, page_size: {a.layout.pageSize}, pages: {a.pages.size}, released: {a.released} \x7d"

/-! ## Exchanges -/

/-- Stores `value` if the cell holds the word of `expected`; answers what it held. -/
def compareExchange (a : Cells α) (index : Nat) (expected value : α) :
    Except AccessError (α × Cells α) := do
  a.check index
  let held := a.peekWord index
  return (Element.ofWord held, if held == Element.toWord expected then a.poke index value else a)

/-- Stores `value` if the cell holds the word of `expected`; answers whether it did. -/
def compareSet (a : Cells α) (index : Nat) (expected value : α) :
    Except AccessError (Bool × Cells α) := do
  a.check index
  let same := a.peekWord index == Element.toWord expected
  return (same, if same then a.poke index value else a)

/-- The outcome of a transformation: the element replaced, the element stored, and how often the
function was asked. -/
structure Transformed (α : Type) where
  before : α
  after : α
  calls : Nat

/-- What happens during a try to replace an element, between its read and its exchange. -/
structure Interlude (α : Type) where
  /-- What another writer stores, if anything. -/
  stored : Option α := none
  /-- Whether the exchange fails although the cell may hold what was read. -/
  spurious : Bool := false

/-- The array with what another writer stores meanwhile. -/
def disturb (a : Cells α) (index : Nat) (meanwhile : Interlude α) : Cells α :=
  meanwhile.stored.elim a (a.poke index)

/-- Stores `value` if the cell holds the word of `expected`, but may fail spuriously even then. A failure
answers what the cell held. -/
def weakExchange (a : Cells α) (index : Nat) (expected value : α) (spurious : Bool) :
    Except α (Cells α) :=
  let held := a.peek index
  if Element.sameWord held expected && !spurious then .ok (a.poke index value) else .error held

/-- The tries to replace the element at `index`, which was last seen as `current`. The list says what
happens during each of them; nothing does during a try behind its end. -/
def transformFrom (index : Nat) (f : α → Except Fault α) :
    List (Interlude α) → α → Nat → Cells α → Except Fault (Transformed α) × Cells α
  | [], current, calls, a =>
      match f current with
      | .error fault => (.error fault, a)
      | .ok next => (.ok ⟨current, next, calls + 1⟩, a.poke index next)
  | meanwhile :: later, current, calls, a =>
      let a := a.disturb index meanwhile
      match f current with
      | .error fault => (.error fault, a)
      | .ok next =>
          match a.weakExchange index current next meanwhile.spurious with
          | .ok a => (.ok ⟨current, next, calls + 1⟩, a)
          | .error witness => transformFrom index f later witness (calls + 1) a

/-- Replaces the element at an index by a function of it, whatever happens meanwhile. -/
def transformAmid (index : Nat) (f : α → Except Fault α) (script : List (Interlude α)) :
    Attempt (Cells α) (Transformed α) :=
  Attempt.of fun a =>
    match a.check index with
    | .error error => (.error (.access error), a)
    | .ok () => transformFrom index f script (a.peek index) 0 a

/-- Replaces the element at an index by a function of it while others do nothing but store. -/
def transform (index : Nat) (f : α → Except Fault α) (foreign : List (Option α)) :
    Attempt (Cells α) (Transformed α) :=
  transformAmid index f (foreign.map fun stored => { stored })

/-- Adds to the element at an index. -/
def addAt (index : Nat) (delta : α) : Attempt (Cells α) (Transformed α) :=
  transformAmid index (fun current => Element.add? current delta) []

end Cells
end BulkSync
