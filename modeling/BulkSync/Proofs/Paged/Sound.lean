import BulkSync.Proofs.Paged.Cursor
import BulkSync.Proofs.Paged.Filling
import BulkSync.Proofs.Paged.Regular
import BulkSync.Proofs.Paged.Storage

/-! # Paged arrays as lists

Whatever is done to a paged array, it has as many pages as its size needs, each of the full length
(`Paged.Sound`). So there is a list that it stands for (`Paged.flat`), and each operation does to that list
what the same operation on lists does: `read_flat`, `write_flat`, `assign_flat`, `fill_flat`, `grow_flat`
and `release_flat`. -/

namespace BulkSync

namespace Paged

variable {α : Type} [Inhabited α]

/-- All the pages that the size needs; nothing is left behind a release. -/
structure Sound (a : Paged α) : Prop where
  covers : a.layout.Covers a.size a.pages
  empty : a.released = true → a.size = 0

def elements (a : Paged α) : List α := (List.range a.size).map a.peek

/-- The list that an array stands for. -/
def flat (a : Paged α) : Flat α := ⟨a.elements, a.released⟩

@[simp] theorem length_elements (a : Paged α) : a.elements.length = a.size := by simp [elements]

theorem getElem_elements (a : Paged α) {index : Nat} (inside : index < a.elements.length) :
    a.elements[index] = a.peek index := by simp [elements]

/-! ## One element -/

theorem elements_poke {a : Paged α} (covers : a.layout.Covers a.size a.pages) (index : Nat) (value : α) :
    (a.poke index value).elements = a.elements.set index value := by
  apply List.ext_getElem
  · rw [length_elements, List.length_set, length_elements]
    rfl
  · intro read here there
    have inside : read < a.size := by simpa using there
    rw [getElem_elements, List.getElem_set, getElem_elements]
    split
    · next same =>
      subst same
      exact covers.entry_setEntry default value inside
    · next distinct => exact peek_poke_ne a value distinct

namespace Sound

variable {a : Paged α}

omit [Inhabited α] in
theorem poke (sound : a.Sound) (index : Nat) (value : α) : (a.poke index value).Sound :=
  ⟨sound.covers.setEntry index value, sound.empty⟩

theorem read_flat (a : Paged α) (index : Nat) : a.read index = a.flat.read index := by
  rw [read, check, Flat.read, flat]
  cases released : a.released with
  | true => rfl
  | false =>
    rcases Nat.lt_or_ge index a.size with inside | behind
    · have found : a.elements[index]? = some (a.peek index) := by simp [elements, inside]
      simp [Nat.not_le_of_lt inside, found]
    · simp [behind]

theorem write_flat (sound : a.Sound) (index : Nat) (value : α) :
    a.flat.write index value = (a.write index value).map flat ∧
      ∀ next, a.write index value = .ok next → next.Sound ∧ next.layout = a.layout := by
  rw [write, check, Flat.write, flat]
  cases released : a.released with
  | true => exact ⟨rfl, fun next written => by cases written⟩
  | false =>
    rcases Nat.lt_or_ge index a.size with inside | behind
    · simp only [Bool.false_eq_true, if_false, length_elements, inside, if_true, Nat.not_le_of_lt inside]
      refine ⟨?_, fun next written => ?_⟩
      · change _ = Except.ok (a.poke index value).flat
        rw [flat, elements_poke sound.covers, ← released]
        rfl
      · cases written
        exact ⟨sound.poke index value, rfl⟩
    · simp only [Bool.false_eq_true, if_false, length_elements, Nat.not_lt_of_le behind, if_pos behind]
      exact ⟨rfl, fun next written => by cases written⟩

end Sound

/-! ## All elements -/

omit [Inhabited α] in
theorem pour_shape (a : Paged α) (start : Nat) (values : List α) :
    (a.pour start values).layout = a.layout ∧ (a.pour start values).size = a.size ∧
      (a.pour start values).released = a.released := by
  induction values generalizing a start with
  | nil => exact ⟨rfl, rfl, rfl⟩
  | cons value values inductionHypothesis => exact inductionHypothesis (a.poke start value) (start + 1)

omit [Inhabited α] in
theorem Sound.pour {a : Paged α} (sound : a.Sound) (start : Nat) (values : List α) :
    (a.pour start values).Sound := by
  induction values generalizing a start with
  | nil => exact sound
  | cons value values inductionHypothesis => exact inductionHypothesis (sound.poke start value) (start + 1)

theorem Sound.elements_pour {a : Paged α} (sound : a.Sound) (start : Nat) (values : List α)
    (fits : start + values.length ≤ a.size) :
    (a.pour start values).elements =
      a.elements.take start ++ values ++ a.elements.drop (start + values.length) := by
  induction values generalizing a start with
  | nil => simp [Paged.pour]
  | cons value values inductionHypothesis =>
    rw [List.length_cons] at fits
    have inside : start < a.elements.length := by
      rw [length_elements]
      omega
    have onward := inductionHypothesis (sound.poke start value) (start + 1) (by
      change start + 1 + values.length ≤ a.size
      omega)
    rw [Paged.pour, onward, elements_poke sound.covers, List.take_set, List.drop_set_of_lt (by omega),
      List.take_succ_eq_append_getElem inside, List.set_append_right _ _ (List.length_take_le _ _),
      List.length_cons, List.length_take, Nat.min_eq_left (Nat.le_of_lt inside), Nat.sub_self]
    simp [Nat.add_assoc, Nat.add_comm 1]

theorem Sound.flat_pour {a : Paged α} (sound : a.Sound) {values : List α}
    (all : values.length = a.size) : (a.pour 0 values).flat = { a.flat with elements := values } := by
  have elements := sound.elements_pour 0 values (by omega)
  rw [Nat.zero_add, all, List.drop_of_length_le (by simp), List.take_zero, List.nil_append,
    List.append_nil] at elements
  rw [flat, flat, elements, (pour_shape a 0 values).2.2]

omit [Inhabited α] in
/-- What is done with a list of answers has to be right only for as many answers as there are questions. -/
theorem mapM_bind_congr {m : Type → Type} [Monad m] [LawfulMonad m] {ι β : Type} {f : ι → m α}
    {questions : List ι} {further furtherToo : List α → m β}
    (same : ∀ answers, answers.length = questions.length → further answers = furtherToo answers) :
    questions.mapM f >>= further = questions.mapM f >>= furtherToo := by
  induction questions generalizing further furtherToo with
  | nil =>
    simp only [List.mapM_nil, pure_bind]
    exact same [] rfl
  | cons question rest inductionHypothesis =>
    simp only [List.mapM_cons, bind_assoc, pure_bind]
    refine bind_congr fun answer => inductionHypothesis fun answers counted => ?_
    exact same (answer :: answers) (congrArg Nat.succ counted)

namespace Sound

variable {a : Paged α}

theorem assign_flat {m : Type → Type} [Monad m] [LawfulMonad m] (sound : a.Sound) (f : Nat → m α)
    {β : Type} {further : Paged α → m β} {furtherToo : Flat α → m β}
    (same : ∀ next, next.Sound → next.layout = a.layout → further next = furtherToo next.flat) :
    a.assignM f >>= further = a.flat.assign f >>= furtherToo := by
  rw [assignM_eq_pour sound.covers, Flat.assign, bind_map_left]
  simp only [bind_assoc, pure_bind, flat, length_elements]
  refine mapM_bind_congr fun values counted => ?_
  rw [List.length_range] at counted
  rw [same _ (sound.pour 0 values) (pour_shape a 0 values).1, sound.flat_pour counted]
  rfl

theorem fill_flat (sound : a.Sound) (value : α) :
    a.flat.fill value = (a.fill value).flat ∧ (a.fill value).Sound ∧
      (a.fill value).layout = a.layout := by
  have filled : a.fill value = a.pour 0 ((List.range a.size).map fun _ => value) := by
    rw [fill, assign_eq_pour sound.covers]
  rw [filled]
  refine ⟨?_, sound.pour _ _, (pour_shape _ _ _).1⟩
  rw [sound.flat_pour (by simp), Flat.fill, flat, length_elements, List.map_const', List.length_range]

end Sound

/-! ## Growth and release -/

omit [Inhabited α] in
theorem foldl_poke_eq_pour (a : Paged α) (start count : Nat) (value : α) :
    (List.range' start count).foldl (fun a index => a.poke index value) a =
      a.pour start (List.replicate count value) := by
  induction count generalizing a start with
  | zero => rfl
  | succ count inductionHypothesis =>
    rw [List.range'_succ, List.foldl_cons, inductionHypothesis]
    rfl

/-- A slot that is reset reads as the default, even if there is none. -/
theorem peek_poke_default (a : Paged α) (index : Nat) : (a.poke index default).peek index = default := by
  simp only [peek, poke, Array.getD_eq_getD_getElem?, Array.getElem?_modify, if_true]
  cases a.pages[a.layout.pageOf index]? with
  | none => rfl
  | some page =>
    simp only [Option.map_some, Option.getD_some, Array.getElem?_setIfInBounds, if_true]
    split <;> rfl

theorem peek_pour_default (a : Paged α) (start count index : Nat) :
    (a.pour start (List.replicate count default)).peek index =
      if start ≤ index ∧ index < start + count then default else a.peek index := by
  induction count generalizing a start with
  | zero =>
    rw [if_neg (by omega)]
    rfl
  | succ count inductionHypothesis =>
    rw [List.replicate_succ, pour, inductionHypothesis]
    by_cases here : index = start
    · subst here
      rw [if_neg (by omega), if_pos (by omega), peek_poke_default]
    · rw [peek_poke_ne a default (Ne.symm here)]
      split <;> split <;> first | rfl | omega

theorem entry_append_fresh (l : Layout) (pages : Array (Array α)) (count index : Nat) :
    l.entry default (pages ++ freshPages l count) index =
      if l.pageOf index < pages.size then l.entry default pages index else default := by
  simp only [Layout.entry, Array.getD_eq_getD_getElem?, Array.getElem?_append]
  split
  · rfl
  · simp only [freshPages, freshPage, Array.getElem?_ofFn]
    split <;> simp [l.slotOf_lt index]

theorem Layout.pagesFor_mono (l : Layout) {size larger : Nat} (grows : size ≤ larger) :
    l.pagesFor size ≤ l.pagesFor larger := by
  rw [pagesFor_eq, pagesFor_eq]
  exact Nat.div_le_div_right (by omega)

theorem Layout.Covers.append_fresh {l : Layout} {size larger : Nat} {pages : Array (Array α)}
    (covers : l.Covers size pages) (grows : size ≤ larger) :
    l.Covers larger (pages ++ freshPages l (l.pagesFor larger - pages.size)) := by
  constructor
  · have more := l.pagesFor_mono grows
    simp only [Array.size_append, freshPages, Array.size_ofFn, covers.count]
    omega
  · intro page inside
    rw [Array.getElem_append]
    split
    · next old => exact covers.full page old
    · simp [freshPages, freshPage]

theorem Layout.lt_of_pageOf_lt {l : Layout} {index pages : Nat} (on : l.pageOf index < pages) :
    index < pages * l.pageSize := by
  rw [pageOf_eq, Nat.div_lt_iff_lt_mul l.pageSize_pos] at on
  exact on

/-- The array with the rest of its last page reset and with more pages behind it. -/
def grown (a : Paged α) (size : Nat) : Paged α :=
  let cleared := a.pour a.size
    (List.replicate (min size (a.pages.size * a.layout.pageSize) - a.size) default)
  { cleared with
    pages := cleared.pages ++ freshPages a.layout (a.layout.pagesFor size - cleared.pages.size)
    size := size }

theorem grow_of_lt {a : Paged α} {size : Nat} (unreleased : a.released = false) (more : a.size < size) :
    a.grow size = .ok (a.grown size) := by
  simp only [grow, unreleased, Bool.false_eq_true, if_false, Nat.not_le_of_lt more, foldl_poke_eq_pour]
  rfl

namespace Sound

variable {a : Paged α} {size : Nat}

theorem grown (sound : a.Sound) (unreleased : a.released = false) (more : a.size ≤ size) :
    (a.grown size).Sound := by
  obtain ⟨layout, kept, given⟩ := pour_shape a a.size
    (List.replicate (min size (a.pages.size * a.layout.pageSize) - a.size) default)
  have covers := (sound.pour a.size
    (List.replicate (min size (a.pages.size * a.layout.pageSize) - a.size) default)).covers
  rw [layout, kept] at covers
  constructor
  · rw [Paged.grown, layout]
    exact covers.append_fresh more
  · intro gone
    rw [Paged.grown, given, unreleased] at gone
    cases gone

theorem peek_grown (sound : a.Sound) {index : Nat} (inside : index < size) :
    (a.grown size).peek index = if index < a.size then a.peek index else default := by
  obtain ⟨layout, kept, _⟩ := pour_shape a a.size
    (List.replicate (min size (a.pages.size * a.layout.pageSize) - a.size) default)
  have covers := (sound.pour a.size
    (List.replicate (min size (a.pages.size * a.layout.pageSize) - a.size) default)).covers
  have reset := peek_pour_default a a.size (min size (a.pages.size * a.layout.pageSize) - a.size) index
  rw [peek_eq, layout] at reset
  have counts := covers.count
  rw [layout, kept, ← sound.covers.count] at counts
  rw [peek_eq, Paged.grown, layout, entry_append_fresh, counts]
  by_cases old : index < a.size
  · have page : a.layout.pageOf index < a.pages.size := by
      rw [sound.covers.count]
      exact Layout.pageOf_lt_pagesFor old
    rw [if_pos page, if_pos old]
    exact reset.trans (if_neg (by omega))
  · rw [if_neg old]
    split
    · next page =>
      -- behind the old size and on an old page: it has been reset
      have allocated := Layout.lt_of_pageOf_lt page
      exact reset.trans (if_pos (by omega))
    · rfl

theorem grow_flat (sound : a.Sound) (size : Nat) :
    a.flat.grow size = (a.grow size).map flat ∧
      ∀ next, a.grow size = .ok next → next.Sound ∧ next.layout = a.layout := by
  rw [Flat.grow, flat, length_elements]
  cases released : a.released with
  | true =>
    rw [grow, released]
    exact ⟨rfl, fun next grown => by cases grown⟩
  | false =>
    rcases Nat.lt_or_ge a.size size with more | enough
    · rw [grow_of_lt released more]
      refine ⟨congrArg Except.ok ?_, fun next grown => ?_⟩
      · have elements : (a.grown size).elements =
            a.elements ++ List.replicate (size - a.size) default := by
          apply List.ext_getElem
          · simp [Paged.grown]
            omega
          · intro index here there
            have inside : index < size := by simpa [Paged.grown] using here
            rw [getElem_elements, sound.peek_grown inside, List.getElem_append]
            simp [getElem_elements]
        rw [flat, elements, Paged.grown, (pour_shape _ _ _).2.2, released]
      · cases grown
        exact ⟨sound.grown released (Nat.le_of_lt more), (pour_shape _ _ _).1⟩
    · have same : a.grow size = .ok a := by simp [grow, released, enough]
      rw [same, Nat.sub_eq_zero_of_le enough]
      refine ⟨congrArg Except.ok ?_, fun next grown => ?_⟩
      · simp [flat, released]
      · cases grown
        exact ⟨sound, rfl⟩

theorem pageCount_flat (sound : a.Sound) : a.pageCount = a.flat.pageCount a.layout.shift := by
  rw [pageCount, sound.covers.count, Layout.pagesFor_eq, Layout.pageSize_eq,
    Flat.pageCount, flat, length_elements]
  cases released : a.released with
  | true => simp [sound.empty released, Nat.sub_lt (Nat.two_pow_pos _)]
  | false => rfl

theorem release_flat (sound : a.Sound) (kind : Element α) :
    a.flat.release kind a.layout.shift = (a.release.1, a.release.2.flat) ∧ a.release.2.Sound ∧
      a.release.2.layout = a.layout := by
  have pages := sound.pageCount_flat
  rw [pageCount] at pages
  rw [release, Flat.release, ← pages]
  cases released : a.released with
  | true =>
    have gone : a.flat = ⟨[], true⟩ := by simp [flat, elements, sound.empty released, released]
    have flag : a.flat.released = true := released
    rw [if_pos flag, if_pos rfl, gone]
    exact ⟨rfl, sound, rfl⟩
  | false =>
    have flag : a.flat.released = false := released
    rw [flag, if_neg Bool.false_ne_true, if_neg Bool.false_ne_true, Layout.pageSize_eq]
    refine ⟨rfl, ⟨⟨?_, fun page inside => ?_⟩, fun _ => rfl⟩, rfl⟩
    · rw [Layout.pagesFor_eq, Nat.zero_add, Nat.div_eq_of_lt (Nat.sub_lt a.layout.pageSize_pos Nat.one_pos)]
      rfl
    · exact absurd inside (Nat.not_lt_zero page)

end Sound

end Paged
end BulkSync
