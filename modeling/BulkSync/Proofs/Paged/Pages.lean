import Mathlib.Algebra.Group.Nat.Defs
import BulkSync.Paged.Layout

/-! # Entries of pages

Plain and shared arrays look their entries up in the same way: the page of an index, and in it the
slot of the index. The laws of looking up and overwriting are stated here once, for pages of any
type of entries; an array that is not released has as many pages as its size needs, each of the full
length (`Layout.Covers`). -/

namespace BulkSync.Paged.Layout

variable {α : Type}

/-- The entry of an index, or `blank` where there is no slot for it. -/
def entry (l : Layout) (blank : α) (pages : Array (Array α)) (index : Nat) : α :=
  (pages.getD (l.pageOf index) #[]).getD (l.slotOf index) blank

/-- The pages with another entry for an index. -/
def setEntry (l : Layout) (pages : Array (Array α)) (index : Nat) (value : α) : Array (Array α) :=
  pages.modify (l.pageOf index) fun page => page.setIfInBounds (l.slotOf index) value

/-- As many pages as a size needs, each of the full length. -/
structure Covers (l : Layout) (size : Nat) (pages : Array (Array α)) : Prop where
  count : pages.size = l.pagesFor size
  full : ∀ page (inside : page < pages.size), pages[page].size = l.pageSize

/-! ## Shifts -/

theorem ofShift_allowed {shift : Nat} (allowed : shift ≤ greatestShift) : ofShift shift = .ok ⟨shift⟩ := if_pos allowed

theorem ofShift_refused {shift : Nat} (refused : greatestShift < shift) :
    ofShift shift = .error (.pageShift shift greatestShift) := if_neg (Nat.not_le_of_lt refused)

theorem pageSize_eq (l : Layout) : l.pageSize = 2 ^ l.shift := by rw [pageSize, Nat.one_shiftLeft]

/-! ## Indices -/

theorem slotOf_lt (l : Layout) (index : Nat) : l.slotOf index < l.pageSize :=
  Nat.mod_lt _ l.pageSize_pos

theorem index_ext {l : Layout} {first second : Nat} (samePage : l.pageOf first = l.pageOf second)
    (sameSlot : l.slotOf first = l.slotOf second) : first = second := by
  rw [pageOf_eq, pageOf_eq] at samePage
  have firstSplit := Nat.div_add_mod first l.pageSize
  have secondSplit := Nat.div_add_mod second l.pageSize
  rw [samePage, show first % l.pageSize = second % l.pageSize from sameSlot] at firstSplit
  exact firstSplit.symm.trans secondSplit

theorem pagesFor_eq (l : Layout) (size : Nat) :
    l.pagesFor size = (size + l.pageSize - 1) / l.pageSize := by
  have positive := l.pageSize_pos
  rw [pagesFor, Word.ceilDiv, if_neg (by omega)]

theorem pageOf_lt_pagesFor {l : Layout} {index size : Nat} (inside : index < size) :
    l.pageOf index < l.pagesFor size := by
  have positive := l.pageSize_pos
  rw [pageOf_eq, pagesFor_eq, Nat.div_lt_iff_lt_mul positive]
  have split := Nat.div_add_mod (size + l.pageSize - 1) l.pageSize
  have rest := Nat.mod_lt (size + l.pageSize - 1) positive
  rw [Nat.mul_comm] at split
  omega

/-! ## Looking up what was written -/

theorem entry_setEntry_ne (l : Layout) (blank : α) (pages : Array (Array α)) {written read : Nat}
    (value : α) (distinct : written ≠ read) :
    l.entry blank (l.setEntry pages written value) read = l.entry blank pages read := by
  simp only [entry, setEntry, Array.getD_eq_getD_getElem?, Array.getElem?_modify]
  by_cases samePage : l.pageOf written = l.pageOf read
  · have otherSlot : l.slotOf written ≠ l.slotOf read :=
      fun sameSlot => distinct (index_ext samePage sameSlot)
    rw [if_pos samePage]
    cases pages[l.pageOf read]? with
    | none => rfl
    | some page =>
      simp only [Option.map_some, Option.getD_some]
      rw [Array.getElem?_setIfInBounds_ne otherSlot]
  · rw [if_neg samePage]

namespace Covers

variable {l : Layout} {size : Nat} {pages : Array (Array α)}

theorem entry_setEntry (covers : l.Covers size pages) (blank value : α) {index : Nat}
    (inside : index < size) : l.entry blank (l.setEntry pages index value) index = value := by
  have page : l.pageOf index < pages.size := by
    rw [covers.count]
    exact pageOf_lt_pagesFor inside
  have slot : l.slotOf index < pages[l.pageOf index].size := by
    rw [covers.full _ page]
    exact l.slotOf_lt index
  simp only [entry, setEntry, Array.getD_eq_getD_getElem?, Array.getElem?_modify, if_true,
    Array.getElem?_eq_getElem page, Option.map_some, Option.getD_some]
  rw [Array.getElem?_setIfInBounds_self_of_lt slot, Option.getD_some]

theorem setEntry (covers : l.Covers size pages) (index : Nat) (value : α) :
    l.Covers size (l.setEntry pages index value) := by
  constructor
  · simpa [Layout.setEntry] using covers.count
  · intro page inside
    have before : page < pages.size := by simpa [Layout.setEntry] using inside
    simp only [Layout.setEntry, Array.getElem_modify]
    split
    · simpa using covers.full page before
    · exact covers.full page before

theorem size_le (covers : l.Covers size pages) : size ≤ pages.size * l.pageSize := by
  rw [covers.count, pagesFor_eq]
  have split := Nat.div_add_mod (size + l.pageSize - 1) l.pageSize
  have rest := Nat.mod_lt (size + l.pageSize - 1) l.pageSize_pos
  rw [Nat.mul_comm] at split
  omega

theorem ext {others : Array (Array α)} (covers : l.Covers size pages)
    (coversToo : l.Covers size others) (blank : α)
    (same : ∀ index, l.entry blank pages index = l.entry blank others index) : pages = others := by
  apply Array.ext (covers.count.trans coversToo.count.symm)
  intro page inside insideToo
  apply Array.ext ((covers.full page inside).trans (coversToo.full page insideToo).symm)
  intro slot here there
  have slotBound : slot < l.pageSize := by rwa [covers.full page inside] at here
  have lookup := same (page * l.pageSize + slot)
  have itsPage : l.pageOf (page * l.pageSize + slot) = page := by
    rw [pageOf_eq, Nat.mul_comm, Nat.mul_add_div l.pageSize_pos, Nat.div_eq_of_lt slotBound,
      Nat.add_zero]
  have itsSlot : l.slotOf (page * l.pageSize + slot) = slot := by
    rw [slotOf, Nat.mul_comm, Nat.mul_add_mod, Nat.mod_eq_of_lt slotBound]
  simp only [entry, itsPage, itsSlot, Array.getD_eq_getD_getElem?,
    Array.getElem?_eq_getElem inside, Array.getElem?_eq_getElem insideToo, Option.getD_some,
    Array.getElem?_eq_getElem here, Array.getElem?_eq_getElem there] at lookup
  exact lookup

end Covers

/-! ## Fresh pages -/

theorem covers_fresh (l : Layout) (size : Nat) (value : α) :
    l.Covers size (Array.ofFn fun _ : Fin (l.pagesFor size) => Array.replicate l.pageSize value) := by
  constructor
  · simp
  · intro page inside
    simp

theorem entry_fresh (l : Layout) (blank value : α) {index size : Nat} (inside : index < size) :
    l.entry blank (Array.ofFn fun _ : Fin (l.pagesFor size) => Array.replicate l.pageSize value)
      index = value := by
  simp [entry, pageOf_lt_pagesFor inside, l.slotOf_lt index]

/-- Where the entries of fresh pages are blank, every index reads as blank. -/
theorem entry_fresh_blank (l : Layout) (blank : α) (count index : Nat) :
    l.entry blank (Array.ofFn fun _ : Fin count => Array.replicate l.pageSize blank) index = blank := by
  by_cases inside : l.pageOf index < count
  · simp [entry, inside, l.slotOf_lt index]
  · simp [entry, inside]

end BulkSync.Paged.Layout
