import BulkSync.Proofs.Fault
import BulkSync.Proofs.Paged.Reachable

/-! # Cursors cover their range

Asked again and again, a cursor yields slices of pages that lie one behind the other, from the start of its
range to the end, and then nothing more (`Cursor.covers`). The step behind it is `Cursor.next?_cases`: there is
nothing left, or the next slice begins where the cursor is and ends with its page or with the range. -/

namespace BulkSync.Paged

variable {α : Type}

/-- What a cursor yields, item by item, until it has nothing more. -/
inductive Cursor.Yields : Cursor α → List (Nat × Array α) → Prop where
  | nothing {c : Cursor α} (exhausted : c.next? = none) : Yields c []
  | item {c rest : Cursor α} {item : Nat × Array α} {items : List (Nat × Array α)}
      (next : c.next? = some (item, rest)) (others : Yields rest items) : Yields c (item :: items)

/-- Each item begins where the one before it ends: the first at `start`, and the last ends at `stop`. -/
inductive Abutting : Nat → List (Nat × Array α) → Nat → Prop where
  | nothing {start : Nat} : Abutting start [] start
  | item {start stop : Nat} {slots : Array α} {items : List (Nat × Array α)}
      (others : Abutting (start + slots.size) items stop) : Abutting start ((start, slots) :: items) stop

variable [Inhabited α]

/-- An item of an array: elements of a single page, at least one. -/
structure IsSlice (a : Paged α) (item : Nat × Array α) : Prop where
  nonempty : 0 < item.2.size
  onePage : ∀ offset < item.2.size, a.layout.pageOf (item.1 + offset) = a.layout.pageOf item.1
  reads : ∀ offset (inside : offset < item.2.size), a.read (item.1 + offset) = .ok item.2[offset]
  /-- The end of the page, which is computed before it is compared with the range, is not beyond the last slot;
  so it is a count of 64 bits if the number of slots is one. -/
  pageEnd : (a.layout.pageOf item.1 + 1) <<< a.layout.shift ≤ a.pageCount * a.layout.pageSize

/-! ## One step -/

namespace Sound

variable {a : Paged α} {index count : Nat}

theorem read_ok (sound : a.Sound) (inside : index < a.size) : a.read index = .ok (a.peek index) := by
  have unreleased : a.released = false := by
    cases released : a.released with
    | false => rfl
    | true =>
      have none := sound.empty released
      omega
  have checked : a.check index = .ok () := by simp [check, unreleased, Nat.not_le_of_lt inside]
  rw [read, checked]
  rfl

theorem mapM_read (sound : a.Sound) (start count : Nat) (within : start + count ≤ a.size) :
    (List.range' start count).mapM a.read = .ok ((List.range' start count).map a.peek) := by
  apply mapM_eq_ok
  intro index member
  apply sound.read_ok
  rw [List.mem_range'_1] at member
  omega

theorem isSlice (sound : a.Sound) {slots : Array α} (some : 0 < count) (within : index + count ≤ a.size)
    (fits : a.layout.slotOf index + count ≤ a.layout.pageSize)
    (holds : slots.toList = (List.range' index count).map a.peek) : a.IsSlice (index, slots) := by
  have size : slots.size = count := by
    rw [← Array.length_toList, holds]
    simp
  have page : a.layout.pageOf index < a.pages.size := by
    rw [sound.covers.count]
    apply Layout.pageOf_lt_pagesFor
    omega
  constructor
  · exact size ▸ some
  · intro offset inside
    dsimp only at inside ⊢
    apply Layout.pageOf_add
    omega
  · intro offset inside
    dsimp only at inside ⊢
    have element : slots.toList[offset] = a.peek (index + offset) := by simp [holds]
    rw [sound.read_ok (by omega), ← element, Array.getElem_toList]
  · rw [Nat.shiftLeft_eq, ← Layout.pageSize_eq]
    exact Nat.mul_le_mul_right _ page

end Sound

namespace Cursor

variable {c : Cursor α}

/-- There is nothing left, or a slice is yielded and the cursor is behind it. -/
theorem next?_cases (sound : c.array.Sound) (order : c.next ≤ c.stop) (within : c.stop ≤ c.array.size) :
    (c.next? = none ∧ c.next = c.stop) ∨
      ∃ slots, c.next? = some ((c.next, slots), { c with next := c.next + slots.size }) ∧
        c.next + slots.size ≤ c.stop ∧ c.array.IsSlice (c.next, slots) := by
  rcases Nat.lt_or_ge c.next c.stop with left | gone
  · right
    have slot := c.array.layout.slotOf_lt c.next
    -- the slice ends where the page ends, or where the range ends before
    generalize counted : min (c.array.layout.pageSize - c.array.layout.slotOf c.next) (c.stop - c.next) = count
    have pageEnd : min ((c.array.layout.pageOf c.next + 1) * c.array.layout.pageSize) c.stop = c.next + count := by
      rw [Layout.pageEnd_eq]
      omega
    have fits : c.array.layout.slotOf c.next + count ≤ c.array.layout.pageSize := by omega
    have holds := slice_eq sound.covers (Nat.lt_of_lt_of_le left within) fits
    have size := congrArg List.length holds
    rw [Array.length_toList, List.length_map, List.length_range'] at size
    refine ⟨_, ?_, ?_, sound.isSlice (by omega) (by omega) fits holds⟩
    · simp only [next?, if_neg (Nat.not_le_of_lt left), size, pageEnd, Nat.add_sub_cancel_left]
    · omega
  · left
    have here : c.next = c.stop := by omega
    exact ⟨by simp [next?, here], here⟩

/-- All of the walk: it ends, its items are slices, and they lie one behind the other. -/
theorem covers (c : Cursor α) (sound : c.array.Sound) (order : c.next ≤ c.stop) (within : c.stop ≤ c.array.size) :
    c.Yields c.items ∧ Abutting c.next c.items c.stop ∧ ∀ item ∈ c.items, c.array.IsSlice item := by
  fun_induction items c with
  | case1 c exhausted =>
    rcases next?_cases sound order within with ⟨_, here⟩ | ⟨slots, next, _⟩
    · refine ⟨.nothing exhausted, ?_, List.forall_mem_nil _⟩
      rw [here]
      exact .nothing
    · simp [exhausted] at next
  | case2 c item rest next shorter inductionHypothesis =>
    rcases next?_cases sound order within with ⟨exhausted, _⟩ | ⟨slots, here, behind, slice⟩
    · simp [exhausted] at next
    · rw [here] at next
      cases next
      obtain ⟨yields, abutting, slices⟩ := inductionHypothesis sound behind within
      exact ⟨.item here yields, .item abutting, List.forall_mem_cons.mpr ⟨slice, slices⟩⟩

end Cursor

/-! ## The whole walk -/

/-- A cursor ends after slices that lie one behind the other and make up the range, cut to the array; those of
the whole array make up its list. -/
theorem coverage {a : Paged α} (reachable : a.Reachable) (start stop : Nat) :
    let last := min stop a.size
    let first := min start last
    let items := (a.cursor start stop).items
    (a.cursor start stop).Yields items ∧ Abutting first items last ∧ (∀ item ∈ items, a.IsSlice item) ∧
      (List.range' first (last - first)).mapM a.read = .ok (items.flatMap fun item => item.2.toList) ∧
      (List.range a.size).mapM a.read = .ok a.toList := by
  have sound := reachable.invariant.1
  have within : min stop a.size ≤ a.size := Nat.min_le_right _ _
  have order : min start (min stop a.size) ≤ min stop a.size := Nat.min_le_right _ _
  obtain ⟨yields, abutting, slices⟩ := (a.cursor start stop).covers sound order within
  refine ⟨yields, abutting, slices, ?_, ?_⟩
  · rw [sound.mapM_read _ _ (by omega), Cursor.items_flatMap _ sound.covers within]
    rfl
  · rw [toList_eq sound.covers, List.range_eq_range', sound.mapM_read _ _ (by omega)]

/-- Seven threefold numbers on pages of four slots. -/
def threefold : Paged Int64 :=
  ((storage Id Int64).step (ofLayout 7 ⟨2⟩) (.assign fun index => Int64.ofNat (3 * index))).2

theorem coverage_threefold : threefold.Reachable ∧
    (threefold.cursor 2 9).items.flatMap (fun item => item.2.toList) = [6, 9, 12, 15, 18] ∧
    (threefold.cursor 9 5).Yields (threefold.cursor 9 5).items := by
  have made : (Origin.withShift 7 2 : Origin Id Int64).make = .ok (ofLayout 7 ⟨2⟩) := rfl
  have reachable : threefold.Reachable := .operated (.made made) _
  obtain ⟨_, _, _, concatenation, _⟩ := coverage reachable 2 9
  refine ⟨reachable, ?_, (coverage reachable 9 5).1⟩
  have read : (List.range' 2 5).mapM threefold.read = .ok [6, 9, 12, 15, 18] := rfl
  exact Except.ok.inj (concatenation.symm.trans read)

end BulkSync.Paged
