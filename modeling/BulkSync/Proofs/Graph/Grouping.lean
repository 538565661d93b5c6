import BulkSync.Graph.Rows
import BulkSync.Proofs.Paged.Regular

/-! # Items grouped by row

`Rows.group` is a counting sort. The items of a row come out as they went in (`peek_group`), and the
rows lie one behind the other: a row starts behind all items of the rows before it (`bounds_group`).

The sums of the counts and the places of the items are each followed by an invariant over the loop that
makes them: after some steps, the rows passed are final and the others untouched. -/

namespace BulkSync.Rows

variable {α : Type}

/-- The items of a row, in the order in which they came. -/
def itemsOf (items : List (Nat × α)) (row : Nat) : List α :=
  items.filterMap fun item => if item.1 = row then some item.2 else none

/-- How many items belong to the rows before a row. -/
def before (items : List (Nat × α)) (row : Nat) : Nat := items.countP fun item => item.1 < row

/-! ## Items and their numbers -/

@[simp] theorem itemsOf_nil (row : Nat) : itemsOf ([] : List (Nat × α)) row = [] := rfl

theorem itemsOf_append (first second : List (Nat × α)) (row : Nat) :
    itemsOf (first ++ second) row = itemsOf first row ++ itemsOf second row :=
  List.filterMap_append ..

theorem itemsOf_flatMap {β : Type} (sources : List β) (items : β → List (Nat × α)) (row : Nat) :
    itemsOf (sources.flatMap items) row = sources.flatMap fun source => itemsOf (items source) row := by
  induction sources with
  | nil => rfl
  | cons head tail inductionHypothesis =>
    simp only [List.flatMap_cons, itemsOf_append, inductionHypothesis]

theorem itemsOf_singleton (item : Nat × α) (row : Nat) :
    itemsOf [item] row = if item.1 = row then [item.2] else [] := by
  simp only [itemsOf, List.filterMap_cons, List.filterMap_nil]
  by_cases here : item.1 = row
  · simp [here]
  · simp [here]

theorem mem_itemsOf {items : List (Nat × α)} {row : Nat} {item : α} :
    item ∈ itemsOf items row ↔ (row, item) ∈ items := by
  rw [itemsOf, List.mem_filterMap]
  constructor
  · rintro ⟨⟨other, value⟩, member, here⟩
    by_cases same : other = row
    · simp only [same, if_true, Option.some.injEq] at here
      rwa [← same, ← here]
    · simp [same] at here
  · exact fun member => ⟨(row, item), member, by simp⟩

theorem itemsOf_eq_nil {items : List (Nat × α)} {row : Nat} (absent : row ∉ items.map (·.1)) :
    itemsOf items row = [] := by
  refine List.eq_nil_iff_forall_not_mem.mpr fun item member => absent ?_
  exact List.mem_map_of_mem (mem_itemsOf.mp member)

theorem itemsOf_eq_singleton {items : List (Nat × α)} (distinct : (items.map (·.1)).Nodup) {row : Nat} {item : α}
    (member : (row, item) ∈ items) : itemsOf items row = [item] := by
  obtain ⟨first, last, rfl⟩ := List.append_of_mem member
  rw [List.map_append, List.map_cons, List.nodup_append, List.nodup_cons] at distinct
  obtain ⟨_, ⟨behind, _⟩, apart⟩ := distinct
  have ahead : row ∉ first.map (·.1) := fun within => apart row within row (List.mem_cons_self ..) rfl
  rw [itemsOf_append, itemsOf_eq_nil ahead, List.nil_append, ← List.singleton_append, itemsOf_append,
    itemsOf_eq_nil behind, itemsOf_singleton, if_pos rfl, List.append_nil]

theorem length_itemsOf (items : List (Nat × α)) (row : Nat) :
    (itemsOf items row).length = items.countP fun item => item.1 = row := by
  induction items with
  | nil => rfl
  | cons item items inductionHypothesis =>
    rw [← List.singleton_append, itemsOf_append, List.length_append, inductionHypothesis,
      List.countP_append, itemsOf_singleton]
    by_cases here : item.1 = row <;> simp [here]

@[simp] theorem before_zero (items : List (Nat × α)) : before items 0 = 0 := by simp [before]

theorem before_succ (items : List (Nat × α)) (row : Nat) :
    before items (row + 1) = before items row + (itemsOf items row).length := by
  rw [length_itemsOf]
  induction items with
  | nil => rfl
  | cons item items inductionHypothesis =>
    simp only [before, List.countP_cons, decide_eq_true_eq] at inductionHypothesis ⊢
    split <;> split <;> split <;> omega

theorem before_le (items : List (Nat × α)) {row later : Nat} (order : row ≤ later) :
    before items row ≤ before items later := by
  apply List.countP_mono_left
  intro item _ below
  simp only [decide_eq_true_eq] at below ⊢
  omega

theorem before_le_length (items : List (Nat × α)) (row : Nat) : before items row ≤ items.length :=
  List.countP_le_length

/-! ## The starts of rows -/

theorem bump_regular {counters : Paged Nat} {size index : Nat} (regular : counters.Regular size)
    (inside : index < size) : (bump counters index).Regular size :=
  regular.poke inside _

theorem peek_bump {counters : Paged Nat} {size index : Nat} (regular : counters.Regular size)
    (inside : index < size) (other : Nat) :
    (bump counters index).peek other = counters.peek other + if other = index then 1 else 0 := by
  rw [bump]
  by_cases here : other = index
  · rw [here, regular.peek_poke inside, if_pos rfl]
  · rw [Paged.peek_poke_ne _ _ (Ne.symm here), if_neg here, Nat.add_zero]

theorem foldl_bump {counters : Paged Nat} {size : Nat} (regular : counters.Regular size)
    (items : List (Nat × α)) (inside : ∀ item ∈ items, item.1 + 1 < size) :
    (items.foldl (fun counts item => bump counts (item.1 + 1)) counters).Regular size ∧
      ∀ index, (items.foldl (fun counts item => bump counts (item.1 + 1)) counters).peek index =
        counters.peek index + items.countP fun item => item.1 + 1 = index := by
  induction items generalizing counters with
  | nil => exact ⟨regular, fun index => by simp⟩
  | cons item items inductionHypothesis =>
    have here := inside item (List.mem_cons_self ..)
    obtain ⟨keeps, counts⟩ := inductionHypothesis (bump_regular regular here)
      fun other member => inside other (List.mem_cons_of_mem _ member)
    refine ⟨keeps, fun index => (counts index).trans ?_⟩
    rw [peek_bump regular here, List.countP_cons]
    by_cases same : index = item.1 + 1
    · simp [same]
      omega
    · simp [same, Ne.symm same]

/-- The step that adds the sum so far to the next count. -/
def addUp (offsets : Paged Nat) (index : Nat) : Paged Nat :=
  offsets.poke index (offsets.peek index + offsets.peek (index - 1))

theorem foldl_addUp {counts : Paged Nat} {count : Nat} (regular : counts.Regular (count + 1))
    (items : List (Nat × α)) (first : counts.peek 0 = 0)
    (counted : ∀ row, counts.peek (row + 1) = (itemsOf items row).length) (steps : Nat)
    (bound : steps ≤ count) :
    ((List.range' 1 steps).foldl addUp counts).Regular (count + 1) ∧
      ∀ row, ((List.range' 1 steps).foldl addUp counts).peek row =
        if row ≤ steps then before items row else counts.peek row := by
  induction steps with
  | zero =>
    refine ⟨regular, fun row => ?_⟩
    cases row with
    | zero => simpa using first
    | succ row => simp
  | succ steps inductionHypothesis =>
    obtain ⟨keeps, sums⟩ := inductionHypothesis (by omega)
    rw [List.range'_1_concat, List.foldl_append, List.foldl_cons, List.foldl_nil]
    have inside : 1 + steps < count + 1 := by omega
    refine ⟨keeps.poke inside _, fun row => ?_⟩
    -- the row that is summed up now takes the total of the one before, which is final
    by_cases here : row = 1 + steps
    · rw [here, addUp, keeps.peek_poke inside, sums, sums, if_neg (by omega), if_pos (by omega),
        if_pos (by omega), Nat.add_sub_cancel_left, Nat.add_comm 1 steps, counted, before_succ]
      omega
    · rw [addUp, Paged.peek_poke_ne _ _ (Ne.symm here), sums]
      by_cases passed : row ≤ steps
      · rw [if_pos passed, if_pos (by omega)]
      · rw [if_neg passed, if_neg (by omega)]

theorem startsOf_spec (count : Nat) (items : List (Nat × α)) (inside : ∀ item ∈ items, item.1 < count) :
    (startsOf count items).Regular (count + 1) ∧
      ∀ row ≤ count, (startsOf count items).peek row = before items row := by
  obtain ⟨regular, counted⟩ := foldl_bump (Paged.regular_new (count + 1)) items
    fun item member => Nat.succ_lt_succ (inside item member)
  have first := counted 0
  have later : ∀ row, _ = (itemsOf items row).length := fun row =>
    (counted (row + 1)).trans (by rw [Paged.peek_new, length_itemsOf]; simp [default])
  simp only [Paged.peek_new, Nat.succ_ne_zero, decide_false, List.countP_false] at first
  obtain ⟨keeps, sums⟩ := foldl_addUp regular items first later count (Nat.le_refl _)
  exact ⟨keeps, fun row bound => (sums row).trans (if_pos bound)⟩

/-! ## The places of items -/

/-- The places are those of the items put down so far. -/
structure Placed [Inhabited α] (count : Nat) (items done : List (Nat × α)) (filled : Paged Nat)
    (values : Paged α) : Prop where
  counters : filled.Regular count
  places : values.Regular items.length
  counted : ∀ row < count, filled.peek row = (itemsOf done row).length
  placed : ∀ row < count, ∀ place (there : place < (itemsOf done row).length),
    values.peek (before items row + place) = (itemsOf done row)[place]

/-- Of two rows, all places of the one lie before those of the other. -/
theorem places_distinct (items : List (Nat × α)) {row other place otherPlace : Nat}
    (distinct : row ≠ other) (inside : place < (itemsOf items row).length)
    (insideToo : otherPlace < (itemsOf items other).length) :
    before items row + place ≠ before items other + otherPlace := by
  have here := before_succ items row
  have there := before_succ items other
  rcases Nat.lt_or_gt_of_ne distinct with earlier | later
  · have order := before_le items (show row + 1 ≤ other from earlier)
    omega
  · have order := before_le items (show other + 1 ≤ row from later)
    omega

theorem Placed.place [Inhabited α] {count : Nat} {items done todo : List (Nat × α)} {item : Nat × α}
    {filled offsets : Paged Nat} {values : Paged α} (split : items = done ++ item :: todo)
    (inside : ∀ item ∈ items, item.1 < count)
    (starts : ∀ row ≤ count, offsets.peek row = before items row)
    (placed : Placed count items done filled values) :
    Placed count items (done ++ [item]) (place offsets (filled, values) item).1
      (place offsets (filled, values) item).2 := by
  have row : item.1 < count := inside item (by simp [split])
  have room : (itemsOf done item.1).length < (itemsOf items item.1).length := by
    rw [split, itemsOf_append, List.length_append, ← List.singleton_append, itemsOf_append,
      itemsOf_singleton, if_pos rfl, List.length_append, List.length_singleton]
    omega
  have slot : offsets.peek item.1 + filled.peek item.1 =
      before items item.1 + (itemsOf done item.1).length := by
    rw [starts _ (Nat.le_of_lt row), placed.counted _ row]
  have slotInside : before items item.1 + (itemsOf done item.1).length < items.length := by
    have bound := before_le_length items (item.1 + 1)
    rw [before_succ] at bound
    omega
  simp only [Rows.place, slot]
  refine ⟨bump_regular placed.counters row, placed.places.poke slotInside _, ?_, ?_⟩
  · intro other otherInside
    rw [peek_bump placed.counters row, placed.counted other otherInside, itemsOf_append,
      itemsOf_singleton, List.length_append]
    by_cases here : other = item.1
    · simp [here]
    · simp [here, Ne.symm here]
  · intro other otherInside place there
    -- in its own row the item comes last; in all others nothing has been written
    by_cases here : other = item.1
    · subst here
      simp only [itemsOf_append, itemsOf_singleton, if_true] at there ⊢
      rw [List.getElem_append]
      split
      · next earlier =>
        rw [Paged.peek_poke_ne _ _ (by omega), placed.placed _ otherInside _ earlier]
      · next last =>
        rw [List.length_append, List.length_singleton] at there
        obtain rfl : place = (itemsOf done item.1).length := by omega
        rw [placed.places.peek_poke slotInside]
        simp
    · have unchanged : itemsOf (done ++ [item]) other = itemsOf done other := by
        rw [itemsOf_append, itemsOf_singleton, if_neg (Ne.symm here), List.append_nil]
      simp only [unchanged] at there ⊢
      have upTo : (itemsOf done other).length ≤ (itemsOf items other).length := by
        rw [split, itemsOf_append, List.length_append]
        omega
      rw [Paged.peek_poke_ne _ _ (places_distinct items (Ne.symm here) room (by omega)),
        placed.placed other otherInside place there]

theorem foldl_place [Inhabited α] {count : Nat} {items : List (Nat × α)} {offsets : Paged Nat}
    (inside : ∀ item ∈ items, item.1 < count)
    (starts : ∀ row ≤ count, offsets.peek row = before items row) (done todo : List (Nat × α))
    (state : Paged Nat × Paged α) (split : items = done ++ todo)
    (placed : Placed count items done state.1 state.2) :
    Placed count items items (todo.foldl (place offsets) state).1
      (todo.foldl (place offsets) state).2 := by
  induction todo generalizing done state with
  | nil => simpa [split] using placed
  | cons item todo inductionHypothesis =>
    exact inductionHypothesis (done ++ [item]) _ (by simp [split])
      (placed.place split inside starts)

/-! ## The rows -/

section Group

variable [Inhabited α] {count : Nat} {items : List (Nat × α)}

theorem placed_group (inside : ∀ item ∈ items, item.1 < count) :
    ∃ filled, Placed count items items filled (group count items).values := by
  have start : Placed count items [] (Paged.new count) (Paged.new items.length) :=
    ⟨Paged.regular_new _, Paged.regular_new _, fun row _ => Paged.peek_new _ _,
      fun row _ place there => absurd there (by simp)⟩
  exact ⟨_, foldl_place inside (startsOf_spec count items inside).2 [] items _ rfl start⟩

theorem bounds_group (inside : ∀ item ∈ items, item.1 < count) {row : Nat} (bound : row < count) :
    (group count items).bounds row =
      (before items row, before items row + (itemsOf items row).length) := by
  have starts := (startsOf_spec count items inside).2
  rw [← before_succ]
  exact Prod.ext (starts row (Nat.le_of_lt bound)) (starts (row + 1) bound)

theorem peek_group (inside : ∀ item ∈ items, item.1 < count) {row : Nat} (bound : row < count) :
    (List.range' (before items row) (itemsOf items row).length).map (group count items).values.peek =
      itemsOf items row := by
  obtain ⟨filled, placed⟩ := placed_group inside
  apply List.ext_getElem
  · simp
  · intro place _ there
    simpa using placed.placed row bound place there

theorem group_nil (count : Nat) : group count ([] : List (Nat × α)) = empty count := by
  obtain ⟨regular, starts⟩ := startsOf_spec count ([] : List (Nat × α)) (by simp)
  have released : ∀ (steps : List Nat) (offsets : Paged Nat),
      (steps.foldl addUp offsets).released = offsets.released := by
    intro steps
    induction steps with
    | nil => exact fun _ => rfl
    | cons index steps inductionHypothesis => exact fun offsets => inductionHypothesis _
  have offsets : startsOf count ([] : List (Nat × α)) = Paged.new (count + 1) :=
    regular.ext (Paged.regular_new _) (released _ _) fun row bound => by
      rw [starts row (by omega), Paged.peek_new]
      rfl
  rw [group, offsets]
  rfl

end Group
end BulkSync.Rows
