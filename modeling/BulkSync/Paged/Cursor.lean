import BulkSync.Paged.Basic

/-!
# Page cursors

A cursor walks a range of a paged array page by page. Each item is the index of its first element
and the elements of the range that lie in one page.
-/

namespace BulkSync.Paged

variable {α : Type}

/-- A walk over the indices from `next` up to `stop`, which lie in the array. -/
structure Cursor (α : Type) where
  array : Paged α
  next : Nat
  stop : Nat

/-- The cursor over a range, clipped to the array. -/
def cursor (a : Paged α) (start stop : Nat) : Cursor α :=
  let stop := min stop a.size
  ⟨a, min start stop, stop⟩

namespace Cursor

/-- The next item, and the cursor behind it. -/
def next? (c : Cursor α) : Option ((Nat × Array α) × Cursor α) :=
  if c.stop ≤ c.next then none
  else
    let layout := c.array.layout
    let page := layout.pageOf c.next
    let slot := layout.slotOf c.next
    let pageEnd := min ((page + 1) * layout.pageSize) c.stop
    let slots := (c.array.pages.getD page #[]).extract slot (slot + (pageEnd - c.next))
    some ((c.next, slots), { c with next := pageEnd })

/-- A step moves the cursor on, so that a walk ends. -/
theorem next?_advances {c d : Cursor α} {item : Nat × Array α} (h : c.next? = some (item, d)) :
    d.stop - d.next < c.stop - c.next := by
  unfold next? at h
  split at h
  · simp at h
  · next inside =>
    simp only [Option.some.injEq, Prod.mk.injEq] at h
    obtain ⟨-, rfl⟩ := h
    have here : c.next < (c.next / c.array.layout.pageSize + 1) * c.array.layout.pageSize :=
      Nat.lt_mul_of_div_lt (Nat.lt_succ_self _) (Layout.pageSize_pos _)
    simp only [Layout.pageOf_eq]
    omega

/-- All items. -/
def items (c : Cursor α) : List (Nat × Array α) :=
  match h : c.next? with
  | none => []
  | some (item, rest) =>
      have := next?_advances h
      item :: rest.items
termination_by c.stop - c.next

end Cursor

/-- All pages, each cut to the elements of the array. -/
def pageItems (a : Paged α) : List (Nat × Array α) := (a.cursor 0 a.size).items

/-- All elements. -/
def toList (a : Paged α) : List α := a.pageItems.flatMap fun item => item.2.toList

end BulkSync.Paged
