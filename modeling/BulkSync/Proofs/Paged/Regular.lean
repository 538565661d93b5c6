import BulkSync.Proofs.Paged.Filling

/-! # Arrays of a run

The arrays that a run works with are made for a size, keep it, and are never released; only entries
within the size are overwritten. `Paged.Regular` and `Cells.Regular` say so, and the entries within the
size are then all there is to know about such an array. -/

namespace BulkSync

open Paged (Layout)

/-! ## Plain arrays -/

namespace Paged

variable {α : Type} [Inhabited α]

/-- An array of `size` elements in pages of the usual layout. -/
structure Regular (size : Nat) (a : Paged α) : Prop where
  layout : a.layout = .usual
  size_eq : a.size = size
  covers : Layout.usual.Covers size a.pages
  /-- Behind the size nothing was ever written. -/
  hidden : ∀ index, size ≤ index → a.peek index = default

theorem peek_eq (a : Paged α) (index : Nat) : a.peek index = a.layout.entry default a.pages index := rfl

theorem peek_new (size index : Nat) : (new size : Paged α).peek index = default :=
  Layout.entry_fresh_blank _ _ _ _

theorem regular_new (size : Nat) : Regular size (new size : Paged α) :=
  ⟨rfl, rfl, Layout.covers_fresh _ _ _, fun index _ => peek_new size index⟩

theorem peek_poke_ne (a : Paged α) {written read : Nat} (value : α) (distinct : written ≠ read) :
    (a.poke written value).peek read = a.peek read :=
  Layout.entry_setEntry_ne _ _ _ value distinct

namespace Regular

variable {size : Nat} {a b : Paged α}

theorem peek_poke (regular : Regular size a) {index : Nat} (inside : index < size) (value : α) :
    (a.poke index value).peek index = value := by
  rw [peek_eq]
  simp only [poke, regular.layout]
  exact regular.covers.entry_setEntry default value inside

theorem poke (regular : Regular size a) {index : Nat} (inside : index < size) (value : α) :
    Regular size (a.poke index value) := by
  refine ⟨regular.layout, regular.size_eq, ?_, ?_⟩
  · simp only [Paged.poke, regular.layout]
    exact regular.covers.setEntry index value
  · intro other behind
    rw [peek_poke_ne a value (by omega)]
    exact regular.hidden other behind

theorem ext (regular : Regular size a) (regularToo : Regular size b) (released : a.released = b.released)
    (same : ∀ index, index < size → a.peek index = b.peek index) : a = b := by
  have pages : a.pages = b.pages := by
    apply regular.covers.ext regularToo.covers default
    intro index
    rcases Nat.lt_or_ge index size with inside | behind
    · simpa only [peek_eq, regular.layout, regularToo.layout] using same index inside
    · have reads := (regular.hidden index behind).trans (regularToo.hidden index behind).symm
      simpa only [peek_eq, regular.layout, regularToo.layout] using reads
  have layouts := regular.layout.trans regularToo.layout.symm
  have sizes := regular.size_eq.trans regularToo.size_eq.symm
  cases a
  cases b
  simp_all

end Regular
end Paged

/-! ## Shared arrays -/

namespace Cells

variable {α : Type} [Element α]

/-- An array of `size` cells in pages of the usual layout. -/
structure Regular (size : Nat) (a : Cells α) : Prop where
  layout : a.layout = .usual
  size_eq : a.size = size
  unreleased : a.released = false
  covers : Layout.usual.Covers size a.pages
  /-- Behind the size nothing was ever written. -/
  hidden : ∀ index, size ≤ index → a.peekWord index = (new size : Cells α).peekWord index

omit [Element α] in
theorem peekWord_eq (a : Cells α) (index : Nat) : a.peekWord index = a.layout.entry 0 a.pages index := rfl

theorem peekWord_new {size index : Nat} (inside : index < size) :
    (new size : Cells α).peekWord index = Element.toWord (default : α) :=
  Layout.entry_fresh _ _ _ inside

theorem regular_new (size : Nat) : Regular size (new size : Cells α) :=
  ⟨rfl, rfl, rfl, Layout.covers_fresh _ _ _, fun _ _ => rfl⟩

omit [Element α] in
theorem peekWord_pokeWord_ne (a : Cells α) {written read : Nat} (word : UInt64)
    (distinct : written ≠ read) : (a.pokeWord written word).peekWord read = a.peekWord read :=
  Layout.entry_setEntry_ne _ _ _ word distinct

theorem peek_poke_ne (a : Cells α) {written read : Nat} (value : α) (distinct : written ≠ read) :
    (a.poke written value).peek read = a.peek read :=
  congrArg Element.ofWord (peekWord_pokeWord_ne a (Element.toWord value) distinct)

namespace Regular

variable {size : Nat} {a b : Cells α}

theorem peekWord_pokeWord (regular : Regular size a) {index : Nat} (inside : index < size)
    (word : UInt64) : (a.pokeWord index word).peekWord index = word := by
  rw [peekWord_eq]
  simp only [pokeWord, regular.layout]
  exact regular.covers.entry_setEntry 0 word inside

theorem pokeWord (regular : Regular size a) {index : Nat} (inside : index < size) (word : UInt64) :
    Regular size (a.pokeWord index word) := by
  refine ⟨regular.layout, regular.size_eq, regular.unreleased, ?_, ?_⟩
  · simp only [Cells.pokeWord, regular.layout]
    exact regular.covers.setEntry index word
  · intro other behind
    rw [peekWord_pokeWord_ne a word (by omega)]
    exact regular.hidden other behind

theorem peek_poke (regular : Regular size a) {index : Nat} (inside : index < size) (value : α) :
    (a.poke index value).peek index = value := by
  rw [peek, poke, regular.peekWord_pokeWord inside, Element.ofWord_toWord]

theorem ext (regular : Regular size a) (regularToo : Regular size b)
    (same : ∀ index, index < size → a.peekWord index = b.peekWord index) : a = b := by
  have pages : a.pages = b.pages := by
    apply regular.covers.ext regularToo.covers 0
    intro index
    rcases Nat.lt_or_ge index size with inside | behind
    · simpa only [peekWord_eq, regular.layout, regularToo.layout] using same index inside
    · have reads := (regular.hidden index behind).trans (regularToo.hidden index behind).symm
      simpa only [peekWord_eq, regular.layout, regularToo.layout] using reads
  have layouts := regular.layout.trans regularToo.layout.symm
  have sizes := regular.size_eq.trans regularToo.size_eq.symm
  have flags := regular.unreleased.trans regularToo.unreleased.symm
  cases a
  cases b
  simp_all

theorem check (regular : Regular size a) (index : Nat) :
    a.check index = if index < size then .ok () else .error (.outOfBounds index size) := by
  rw [Cells.check, regular.unreleased, regular.size_eq]
  split <;> split <;> first | rfl | omega | simp_all

theorem read (regular : Regular size a) {index : Nat} (inside : index < size) :
    a.read index = .ok (a.peek index) := by
  rw [Cells.read, regular.check, if_pos inside]
  rfl

theorem read_behind (regular : Regular size a) {index : Nat} (behind : size ≤ index) :
    a.read index = .error (.outOfBounds index size) := by
  rw [Cells.read, regular.check, if_neg (by omega)]
  rfl

theorem write (regular : Regular size a) {index : Nat} (inside : index < size) (value : α) :
    a.write index value = .ok (a.poke index value) := by
  rw [Cells.write, regular.check, if_pos inside]
  rfl

theorem write_behind (regular : Regular size a) {index : Nat} (behind : size ≤ index) (value : α) :
    a.write index value = .error (.outOfBounds index size) := by
  rw [Cells.write, regular.check, if_neg (by omega)]
  rfl

/-- Where every word is the word of an element, comparing words is comparing elements. -/
theorem compareExchange (regular : Regular size a)
    (faithful : ∀ word : UInt64, Element.toWord (Element.ofWord word : α) = word) {index : Nat}
    (inside : index < size) (expected value : α) [Decidable (a.peek index = expected)] :
    a.compareExchange index expected value =
      .ok (a.peek index, if a.peek index = expected then a.poke index value else a) := by
  have same : (a.peekWord index == Element.toWord expected) = decide (a.peek index = expected) := by
    rw [← faithful (a.peekWord index), Bool.eq_iff_iff, decide_eq_true_eq]
    exact Element.sameWord_iff
  rw [Cells.compareExchange, regular.check, if_pos inside]
  simp only [same, decide_eq_true_eq]
  rfl

theorem compareExchange_behind (regular : Regular size a) {index : Nat} (behind : size ≤ index)
    (expected value : α) : a.compareExchange index expected value = .error (.outOfBounds index size) := by
  rw [Cells.compareExchange, regular.check, if_neg (by omega)]
  rfl

end Regular

/-! ## Filling -/

/-- Overwriting cells one after the other changes exactly those. -/
theorem Regular.foldl_poke {size : Nat} {a : Cells α} (regular : Regular size a) (f : Nat → α)
    (indices : List Nat) (inside : ∀ index ∈ indices, index < size) :
    Regular size (indices.foldl (fun a index => a.poke index (f index)) a) ∧
      ∀ index, (indices.foldl (fun a index => a.poke index (f index)) a).peekWord index =
        if index ∈ indices then Element.toWord (f index) else a.peekWord index := by
  induction indices generalizing a with
  | nil => exact ⟨regular, fun index => by simp⟩
  | cons head tail inductionHypothesis =>
    have headInside := inside head (List.mem_cons_self ..)
    obtain ⟨keeps, reads⟩ := inductionHypothesis (regular.pokeWord headInside (Element.toWord (f head)))
      fun index member => inside index (List.mem_cons_of_mem _ member)
    refine ⟨keeps, fun index => ?_⟩
    rw [List.foldl_cons]
    refine (reads index).trans ?_
    by_cases later : index ∈ tail
    · simp [later]
    · by_cases here : index = head
      · subst here
        simp [later, regular.peekWord_pokeWord headInside]
      · simp [later, here, peekWord_pokeWord_ne a _ (Ne.symm here)]

theorem Regular.fill_eq_foldl {size : Nat} {a : Cells α} (regular : Regular size a) (value : α) :
    a.fill value = (List.range size).foldl (fun a index => a.poke index value) a := by
  have covers : a.layout.Covers a.size a.pages := by
    rw [regular.layout, regular.size_eq]
    exact regular.covers
  rw [Cells.fill, assign_eq_foldl covers, regular.size_eq]

theorem Regular.fill {size : Nat} {a : Cells α} (regular : Regular size a) (value : α) :
    Regular size (a.fill value) := by
  rw [regular.fill_eq_foldl]
  exact (regular.foldl_poke (fun _ => value) _ fun index => List.mem_range.mp).1

theorem Regular.peekWord_fill {size : Nat} {a : Cells α} (regular : Regular size a) (value : α)
    {index : Nat} (inside : index < size) : (a.fill value).peekWord index = Element.toWord value := by
  rw [regular.fill_eq_foldl, (regular.foldl_poke (fun _ => value) _ fun index => List.mem_range.mp).2 index]
  simp [inside]

/-- Nothing is left of what a filled array held before. -/
theorem Regular.fill_eq_fill {size : Nat} {a b : Cells α} (regular : Regular size a)
    (regularToo : Regular size b) (value : α) : a.fill value = b.fill value :=
  (regular.fill value).ext (regularToo.fill value) fun _ inside =>
    (regular.peekWord_fill value inside).trans (regularToo.peekWord_fill value inside).symm

theorem peek_filled {size index : Nat} {value : α} (inside : index < size) :
    (filled size value).peek index = value := by
  rw [filled, peek, (regular_new size).peekWord_fill value inside, Element.ofWord_toWord]

end Cells
end BulkSync
