import BulkSync.Paged.Cells
import BulkSync.Proofs.Paged.Pages
import Mathlib.Control.Monad.Basic

/-! # Filling an array page by page

An array is filled page by page, and each page slot by slot up to the size of the array. So each index
below the size is asked for once, in ascending order, and its slot is overwritten with the answer
(`assignM_eq_foldlM`): the array is what results if all answers are collected first and poured into it
afterwards (`assignM_eq_pour`). A shared array is filled in the same way, although its filling ends at the
first slot behind the size and not on every page anew (`Cells.assignM_eq_foldlM`). -/

namespace BulkSync

variable {α : Type} {m : Type → Type} [Monad m] [LawfulMonad m]

namespace Paged

/-! ## Slots of one page -/

/-- The rest of a page is filled, which starts at the index `base`, up to a size. -/
theorem mapIdxM_slots (f : Nat → m α) (base size : Nat) (rest : List α) (done : Array α) :
    List.mapIdxM.go (fun slot old => if base + slot < size then f (base + slot) else pure old) rest done =
      (List.range' (base + done.size) (min rest.length (size - (base + done.size)))).foldlM
        (fun slots index => return slots.set (index - base) (← f index)) (done.toList ++ rest) := by
  induction rest generalizing done with
  | nil => simp [List.mapIdxM.go]
  | cons old rest inductionHypothesis =>
    rw [List.mapIdxM.go]
    by_cases inside : base + done.size < size
    · have counts : min (old :: rest).length (size - (base + done.size)) =
          min rest.length (size - (base + done.size + 1)) + 1 := by
        rw [List.length_cons]
        omega
      rw [if_pos inside, counts, List.range'_succ, List.foldlM_cons, bind_assoc]
      refine bind_congr fun value => ?_
      rw [pure_bind, inductionHypothesis, Array.size_push, Array.toList_push]
      simp [Nat.add_assoc]
    · rw [if_neg inside, pure_bind, inductionHypothesis, Array.size_push, Array.toList_push]
      simp [Nat.sub_eq_zero_of_le (Nat.le_of_not_lt inside),
        Nat.sub_eq_zero_of_le (Nat.le_succ_of_le (Nat.le_of_not_lt inside)), ← Nat.add_assoc]

omit [Monad m] [LawfulMonad m] in
theorem modify_length {β : Type} (done rest : List β) (old : β) (f : β → β) :
    (done ++ old :: rest).modify done.length f = done ++ f old :: rest := by
  induction done with
  | nil => rfl
  | cons head tail inductionHypothesis => simpa using inductionHypothesis

/-- What is set in one of several pages is set on the page. -/
theorem foldlM_page (l : Layout) (f : Nat → m α) (done : Array (Array α)) (rest : List (Array α))
    (count : Nat) (slots : List α) (offset : Nat) (within : offset + count ≤ l.pageSize) :
    (List.range' (done.size * l.pageSize + offset) count).foldlM
        (fun pages index => return l.setEntry pages index (← f index)) (done ++ (slots.toArray :: rest).toArray) =
      (fun slots => done ++ (slots.toArray :: rest).toArray) <$>
        (List.range' (done.size * l.pageSize + offset) count).foldlM
          (fun slots index => return slots.set (index - done.size * l.pageSize) (← f index)) slots := by
  induction count generalizing slots offset with
  | zero => simp
  | succ count inductionHypothesis =>
    have page : l.pageOf (done.size * l.pageSize + offset) = done.size := by
      rw [Layout.pageOf_eq, Nat.mul_comm, Nat.mul_add_div l.pageSize_pos, Nat.div_eq_of_lt (by omega),
        Nat.add_zero]
    have slot : l.slotOf (done.size * l.pageSize + offset) = offset := by
      rw [Layout.slotOf, Nat.mul_comm, Nat.mul_add_mod, Nat.mod_eq_of_lt (by omega)]
    simp only [List.range'_succ, List.foldlM_cons, bind_assoc, pure_bind, map_bind]
    refine bind_congr fun value => ?_
    have written : l.setEntry (done ++ (slots.toArray :: rest).toArray)
        (done.size * l.pageSize + offset) value =
          done ++ ((slots.set offset value).toArray :: rest).toArray := by
      rw [Layout.setEntry, page, slot]
      apply Array.ext'
      simpa using modify_length done.toList rest slots.toArray fun page => page.setIfInBounds offset value
    rw [written, Nat.add_sub_cancel_left]
    exact inductionHypothesis (slots.set offset value) (offset + 1) (by omega)

/-! ## All pages -/

/-- The indices of the first of several pages, and of the pages behind it. -/
theorem range'_pages (base pageSize count size : Nat) :
    List.range' base (min pageSize (size - base)) ++
        List.range' (base + pageSize) (min (count * pageSize) (size - (base + pageSize))) =
      List.range' base (min ((count + 1) * pageSize) (size - base)) := by
  rw [Nat.succ_mul]
  rcases Nat.le_total pageSize (size - base) with full | partly
  · rw [Nat.min_eq_left full, List.range'_append_1]
    congr 1
    omega
  · rw [Nat.min_eq_right partly, Nat.sub_eq_zero_of_le (by omega : size ≤ base + pageSize), Nat.min_zero]
    simp only [List.range'_zero, List.append_nil]
    congr 1
    omega

theorem mapIdxM_pages (l : Layout) (f : Nat → m α) (size : Nat) (rest : List (Array α))
    (done : Array (Array α)) (full : ∀ page ∈ rest, page.size = l.pageSize) :
    List.mapIdxM.go (fun page slots => slots.mapIdxM fun slot old =>
        if page * l.pageSize + slot < size then f (page * l.pageSize + slot) else pure old) rest done =
      Array.toList <$> (List.range' (done.size * l.pageSize)
          (min (rest.length * l.pageSize) (size - done.size * l.pageSize))).foldlM
        (fun pages index => return l.setEntry pages index (← f index)) (done ++ rest.toArray) := by
  induction rest generalizing done with
  | nil => simp [List.mapIdxM.go]
  | cons slots rest inductionHypothesis =>
    have long : slots.size = l.pageSize := full slots (List.mem_cons_self ..)
    have page : slots.mapIdxM (fun slot old =>
        if done.size * l.pageSize + slot < size then f (done.size * l.pageSize + slot) else pure old) =
          List.toArray <$> (List.range' (done.size * l.pageSize)
            (min l.pageSize (size - done.size * l.pageSize))).foldlM
              (fun slots index => return slots.set (index - done.size * l.pageSize) (← f index))
              slots.toList := by
      have filled := mapIdxM_slots f (done.size * l.pageSize) size slots.toList #[]
      rw [Array.length_toList, long] at filled
      have itself : slots.toList.toArray = slots := Array.toArray_toList
      rw [← itself, List.mapIdxM_toArray]
      exact congrArg (List.toArray <$> ·) filled
    have first := foldlM_page l f done rest (min l.pageSize (size - done.size * l.pageSize))
      slots.toList 0 (by omega)
    rw [List.mapIdxM.go, page, List.length_cons, ← range'_pages, List.foldlM_append]
    simp only [Nat.add_zero, Array.toArray_toList] at first
    rw [first]
    simp only [map_eq_pure_bind, bind_assoc, pure_bind]
    refine bind_congr fun filled => ?_
    rw [inductionHypothesis _ fun page member => full page (List.mem_cons_of_mem _ member)]
    simp [Nat.succ_mul]

/-! ## The array -/

theorem foldlM_poke (f : Nat → m α) (a : Paged α) (indices : List Nat) :
    indices.foldlM (fun a index => return a.poke index (← f index)) a =
      (fun pages => { a with pages := pages }) <$>
        indices.foldlM (fun pages index => return a.layout.setEntry pages index (← f index)) a.pages := by
  induction indices generalizing a with
  | nil => simp
  | cons index rest inductionHypothesis =>
    simp only [List.foldlM_cons, bind_assoc, pure_bind, map_bind]
    exact bind_congr fun value => inductionHypothesis (a.poke index value)

/-- Each index below the size is asked for once, in ascending order. -/
theorem assignM_eq_foldlM {a : Paged α} (covers : a.layout.Covers a.size a.pages) (f : Nat → m α) :
    a.assignM f = (List.range a.size).foldlM (fun a index => return a.poke index (← f index)) a := by
  have filled := mapIdxM_pages a.layout f a.size a.pages.toList #[] fun page member => by
    obtain ⟨index, inside, rfl⟩ := List.getElem_of_mem member
    exact covers.full index inside
  simp only [Array.size_empty, Nat.zero_mul, Nat.sub_zero, Array.length_toList, Nat.min_eq_right covers.size_le,
    ← List.range_eq_range', Array.empty_append, Array.toArray_toList] at filled
  have itself : a.pages.toList.toArray = a.pages := Array.toArray_toList
  rw [assignM, foldlM_poke, ← itself, List.mapIdxM_toArray, List.mapIdxM, filled]
  simp

/-- The array with values put into it from an index on. -/
def pour (a : Paged α) : Nat → List α → Paged α
  | _, [] => a
  | index, value :: values => (a.poke index value).pour (index + 1) values

theorem foldlM_range' (f : Nat → m α) (a : Paged α) (start count : Nat) :
    (List.range' start count).foldlM (fun a index => return a.poke index (← f index)) a =
      a.pour start <$> (List.range' start count).mapM f := by
  induction count generalizing start a with
  | zero => simp [pour]
  | succ count inductionHypothesis =>
    simp only [List.range'_succ, List.foldlM_cons, List.mapM_cons, bind_assoc, pure_bind, map_bind, map_pure]
    refine bind_congr fun value => ?_
    rw [inductionHypothesis, map_eq_pure_bind]
    rfl

theorem assignM_eq_pour {a : Paged α} (covers : a.layout.Covers a.size a.pages) (f : Nat → m α) :
    a.assignM f = a.pour 0 <$> (List.range a.size).mapM f := by
  rw [assignM_eq_foldlM covers, List.range_eq_range', foldlM_range']

omit [Monad m] [LawfulMonad m] in
theorem assign_eq_foldl {a : Paged α} (covers : a.layout.Covers a.size a.pages) (f : Nat → α) :
    a.assign f = (List.range a.size).foldl (fun a index => a.poke index (f index)) a := by
  rw [assign, assignM_eq_foldlM covers]
  simp [List.foldlM_pure]

omit [Monad m] [LawfulMonad m] in
theorem assign_eq_pour {a : Paged α} (covers : a.layout.Covers a.size a.pages) (f : Nat → α) :
    a.assign f = a.pour 0 ((List.range a.size).map f) := by
  rw [assign, assignM_eq_pour covers, List.mapM_pure]
  rfl

end Paged

/-! ## Shared arrays -/

namespace Cells

variable [Element α]

/-- What is done with an array in which some elements have been set has to be right only for arrays of its
measures. -/
theorem foldlM_poke_congr {β : Type} (f : Nat → m α) (indices : List Nat) (a : Cells α)
    {further furtherToo : Cells α → m β}
    (same : ∀ b : Cells α, b.layout = a.layout → b.size = a.size → further b = furtherToo b) :
    (indices.foldlM (fun a index => return a.poke index (← f index)) a >>= further) =
      indices.foldlM (fun a index => return a.poke index (← f index)) a >>= furtherToo := by
  induction indices generalizing a with
  | nil =>
    simp only [List.foldlM_nil, pure_bind]
    exact same a rfl rfl
  | cons index indices inductionHypothesis =>
    simp only [List.foldlM_cons, bind_assoc, pure_bind]
    exact bind_congr fun value => inductionHypothesis (a.poke index value) same

theorem assignSlots_eq (f : Nat → m α) (count index : Nat) (a : Cells α) (within : index ≤ a.size) :
    assignSlots f count index a = (·, decide (index + count ≤ a.size)) <$>
      (List.range' index (min count (a.size - index))).foldlM
        (fun a index => return a.poke index (← f index)) a := by
  induction count generalizing index a with
  | zero => simp [assignSlots, within]
  | succ count inductionHypothesis =>
    rw [assignSlots]
    rcases Nat.lt_or_ge index a.size with inside | behind
    · have counts : min (count + 1) (a.size - index) = min count (a.size - (index + 1)) + 1 := by omega
      rw [if_neg (by omega), counts, List.range'_succ, List.foldlM_cons, bind_assoc, map_bind]
      refine bind_congr fun value => ?_
      rw [pure_bind, inductionHypothesis (index + 1) (a.poke index value) inside, Nat.add_assoc,
        Nat.add_comm 1 count]
      rfl
    · have beyond : ¬ index + (count + 1) ≤ a.size := by omega
      simp [behind, beyond, Nat.sub_eq_zero_of_le behind]

theorem assignPages_eq (f : Nat → m α) (count start : Nat) (a : Cells α) (within : start ≤ a.size) :
    assignPages f count start a =
      (List.range' start (min (count * a.layout.pageSize) (a.size - start))).foldlM
        (fun a index => return a.poke index (← f index)) a := by
  induction count generalizing start a with
  | zero => simp [assignPages]
  | succ count inductionHypothesis =>
    rw [assignPages, assignSlots_eq f _ _ _ within, ← Paged.range'_pages, List.foldlM_append, bind_map_left]
    refine foldlM_poke_congr f _ a fun b layout size => ?_
    by_cases goesOn : start + a.layout.pageSize ≤ a.size
    · simp only [goesOn, decide_true, layout]
      rw [inductionHypothesis (start + a.layout.pageSize) b (size.symm ▸ goesOn), layout, size]
    · -- the array ends on this page, and so does the filling
      simp [goesOn, Nat.sub_eq_zero_of_le (Nat.le_of_not_le goesOn)]

theorem assignM_eq_foldlM {a : Cells α} (covers : a.layout.Covers a.size a.pages) (f : Nat → m α) :
    a.assignM f = (List.range a.size).foldlM (fun a index => return a.poke index (← f index)) a := by
  rw [assignM, assignPages_eq f _ _ _ (Nat.zero_le _), Nat.sub_zero, Nat.min_eq_right covers.size_le,
    List.range_eq_range']

omit [Monad m] [LawfulMonad m] in
theorem assign_eq_foldl {a : Cells α} (covers : a.layout.Covers a.size a.pages) (f : Nat → α) :
    a.assign f = (List.range a.size).foldl (fun a index => a.poke index (f index)) a := by
  rw [assign, assignM_eq_foldlM covers]
  simp [List.foldlM_pure]

end Cells
end BulkSync
