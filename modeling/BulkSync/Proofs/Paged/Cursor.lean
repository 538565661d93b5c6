import BulkSync.Paged.Cursor
import BulkSync.Proofs.Paged.Pages

/-! # What a cursor walks over

A cursor cuts its range where a page ends. Put together again, the slices are the elements of the range in
order (`Cursor.items_flatMap`); so the list of an array is what it answers for its indices
(`toList_eq`). -/

namespace BulkSync.Paged

namespace Layout

variable {l : Layout} {index offset : Nat}

theorem pageOf_add (fits : l.slotOf index + offset < l.pageSize) :
    l.pageOf (index + offset) = l.pageOf index := by
  have split := Nat.div_add_mod index l.pageSize
  rw [slotOf] at fits
  rw [pageOf_eq, pageOf_eq, Nat.div_eq_iff l.pageSize_pos]
  rw [Nat.mul_comm] at split
  omega

theorem slotOf_add (fits : l.slotOf index + offset < l.pageSize) :
    l.slotOf (index + offset) = l.slotOf index + offset := by
  rw [slotOf, Nat.add_mod, Nat.mod_eq_of_lt (a := offset) (by omega)]
  exact Nat.mod_eq_of_lt fits

/-- Behind an index there are as many slots on its page as the page has behind its slot. -/
theorem pageEnd_eq (l : Layout) (index : Nat) :
    (l.pageOf index + 1) * l.pageSize = index + (l.pageSize - l.slotOf index) := by
  have split := Nat.div_add_mod index l.pageSize
  have slot := l.slotOf_lt index
  rw [slotOf] at slot ⊢
  rw [pageOf_eq, Nat.succ_mul, Nat.mul_comm]
  omega

end Layout

/-- A range that is cut somewhere. -/
theorem range'_cut {start middle stop : Nat} (before : start ≤ middle) (behind : middle ≤ stop) :
    List.range' start (middle - start) ++ List.range' middle (stop - middle) =
      List.range' start (stop - start) := by
  obtain ⟨first, rfl⟩ := Nat.exists_eq_add_of_le before
  obtain ⟨second, rfl⟩ := Nat.exists_eq_add_of_le behind
  rw [Nat.add_sub_cancel_left, Nat.add_sub_cancel_left, List.range'_append_1, Nat.add_assoc,
    Nat.add_sub_cancel_left]

variable {α : Type} [Inhabited α]

/-- A slice of a page holds the elements at its indices. -/
theorem slice_eq {a : Paged α} (covers : a.layout.Covers a.size a.pages) {index count : Nat}
    (inside : index < a.size) (fits : a.layout.slotOf index + count ≤ a.layout.pageSize) :
    ((a.pages.getD (a.layout.pageOf index) #[]).extract (a.layout.slotOf index)
      (a.layout.slotOf index + count)).toList = (List.range' index count).map a.peek := by
  have page : a.layout.pageOf index < a.pages.size := by
    rw [covers.count]
    exact Layout.pageOf_lt_pagesFor inside
  have long := covers.full _ page
  apply List.ext_getElem
  · simp [page, long]
    omega
  · intro offset here there
    have below : offset < count := by simpa using there
    have slot : a.layout.slotOf index + offset < a.layout.pageSize := by omega
    simp [peek, page, long, slot, Layout.pageOf_add slot, Layout.slotOf_add slot]

namespace Cursor

theorem items_flatMap (c : Cursor α) (covers : c.array.layout.Covers c.array.size c.array.pages)
    (within : c.stop ≤ c.array.size) :
    c.items.flatMap (fun item => item.2.toList) =
      (List.range' c.next (c.stop - c.next)).map c.array.peek := by
  fun_induction items c with
  | case1 c ends =>
    have behind : c.stop ≤ c.next := by
      rw [next?] at ends
      split at ends
      · assumption
      · cases ends
    simp [Nat.sub_eq_zero_of_le behind]
  | case2 c item rest steps shorter inductionHypothesis =>
    rw [next?] at steps
    split at steps
    · cases steps
    · next inside =>
      cases steps
      have slot := c.array.layout.slotOf_lt c.next
      have onward := inductionHypothesis covers within
      dsimp only at onward ⊢
      rw [c.array.layout.pageEnd_eq] at onward ⊢
      rw [List.flatMap_cons, onward, slice_eq covers (by omega) (by omega), ← List.map_append]
      rw [range'_cut (by omega) (Nat.min_le_right _ _)]

end Cursor

/-- The items of a range, clipped to the array. -/
theorem flatMap_cursor {a : Paged α} (covers : a.layout.Covers a.size a.pages) (start stop : Nat) :
    (a.cursor start stop).items.flatMap (fun item => item.2.toList) =
      (List.range' start (min stop a.size - start)).map a.peek := by
  rw [Cursor.items_flatMap _ covers (Nat.min_le_right _ _)]
  rcases Nat.le_total start (min stop a.size) with before | behind
  · simp [cursor, Nat.min_eq_left before]
  · simp [cursor, Nat.min_eq_right behind, Nat.sub_eq_zero_of_le behind]

theorem toList_eq {a : Paged α} (covers : a.layout.Covers a.size a.pages) :
    a.toList = (List.range a.size).map a.peek := by
  rw [toList, pageItems, flatMap_cursor covers, Nat.min_self, Nat.sub_zero, List.range_eq_range']

end BulkSync.Paged
