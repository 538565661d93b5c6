import BulkSync.Proofs.Paged.Refinement

/-! # Shared arrays as plain ones

The words of a shared array, read back as elements, make up a plain array (`Cells.plain`). Whatever is done
to the shared array is done to that one: setting an element (`plain_poke`), filling (`Sound.assign_plain`),
growing (`Sound.grow`) and giving up (`Sound.release`). So shared arrays refine plain ones
(`refines_plain`). -/

namespace BulkSync.Cells

variable {α : Type} [Element α]

/-- The plain array of the same pages. -/
def plain (a : Cells α) : Paged α := ⟨a.layout, a.size, a.pages.map (·.map Element.ofWord), a.released⟩

/-- All the pages that the size needs, and no word in them that is not the word of an element. -/
structure Sound (a : Cells α) : Prop where
  plain : a.plain.Sound
  encoded : ∀ page ∈ a.pages, ∀ word ∈ page, Element.toWord (Element.ofWord word : α) = word

theorem Sound.covers {a : Cells α} (sound : a.Sound) : a.layout.Covers a.size a.pages := by
  obtain ⟨count, full⟩ := sound.plain.covers
  simp only [Cells.plain, Array.size_map] at count full
  exact ⟨count, fun page inside => by simpa using full page inside⟩

theorem Sound.unreleased {a : Cells α} (sound : a.Sound) {index : Nat} (inside : index < a.size) :
    a.released = false := by
  cases released : a.released with
  | false => rfl
  | true =>
    have none : a.size = 0 := sound.plain.empty released
    omega

/-! ## Single elements -/

theorem peekWord_eq_getElem {a : Cells α} (covers : a.layout.Covers a.size a.pages) {index : Nat}
    (inside : index < a.size) : ∃ page ∈ a.pages, ∃ slot, ∃ bound : slot < page.size,
      a.peekWord index = page[slot] ∧ a.plain.peek index = Element.ofWord page[slot] := by
  have page : a.layout.pageOf index < a.pages.size := by
    rw [covers.count]
    exact Paged.Layout.pageOf_lt_pagesFor inside
  have slot : a.layout.slotOf index < a.pages[a.layout.pageOf index].size := by
    rw [covers.full _ page]
    exact a.layout.slotOf_lt index
  refine ⟨a.pages[a.layout.pageOf index], Array.getElem_mem page, a.layout.slotOf index, slot, ?_, ?_⟩
  · simp [peekWord, page, slot]
  · simp [Paged.peek, plain, page, slot]

theorem peek_plain {a : Cells α} (covers : a.layout.Covers a.size a.pages) {index : Nat}
    (inside : index < a.size) : a.plain.peek index = a.peek index := by
  obtain ⟨page, _, slot, bound, word, element⟩ := peekWord_eq_getElem covers inside
  rw [element, peek, word]

theorem Sound.toWord_peek {a : Cells α} (sound : a.Sound) {index : Nat} (inside : index < a.size) :
    Element.toWord (a.peek index) = a.peekWord index := by
  obtain ⟨page, member, slot, bound, word, _⟩ := peekWord_eq_getElem sound.covers inside
  rw [peek, word]
  exact sound.encoded page member _ (Array.getElem_mem bound)

theorem plain_poke (a : Cells α) (index : Nat) (value : α) :
    (a.poke index value).plain = a.plain.poke index value := by
  simp only [plain, poke, pokeWord, Paged.poke, Paged.mk.injEq, true_and, and_true]
  apply Array.ext (by simp)
  intro page here there
  simp only [Array.getElem_map, Array.getElem_modify]
  split
  · simp [Element.ofWord_toWord]
  · rfl

theorem Sound.poke {a : Cells α} (sound : a.Sound) (index : Nat) (value : α) :
    (a.poke index value).Sound := by
  refine ⟨plain_poke a index value ▸ sound.plain.poke index value, fun page member word within => ?_⟩
  obtain ⟨place, bound, rfl⟩ := Array.getElem_of_mem member
  simp only [Cells.poke, pokeWord, Array.getElem_modify] at within
  split at within
  · rcases Array.mem_or_eq_of_mem_setIfInBounds within with old | new
    · exact sound.encoded _ (Array.getElem_mem _) word old
    · rw [new, Element.ofWord_toWord]
  · exact sound.encoded _ (Array.getElem_mem _) word within

/-! ## All elements -/

theorem foldlM_poke_plain {m : Type → Type} [Monad m] [LawfulMonad m] {β : Type} {a : Cells α}
    (sound : a.Sound) (f : Nat → m α) (indices : List Nat) {further : Cells α → m β}
    {furtherToo : Paged α → m β}
    (same : ∀ next : Cells α, next.Sound → next.layout = a.layout → further next = furtherToo next.plain) :
    indices.foldlM (fun a index => return a.poke index (← f index)) a >>= further =
      indices.foldlM (fun a index => return a.poke index (← f index)) a.plain >>= furtherToo := by
  induction indices generalizing a with
  | nil =>
    simp only [List.foldlM_nil, pure_bind]
    exact same a sound rfl
  | cons index indices inductionHypothesis =>
    simp only [List.foldlM_cons, bind_assoc, pure_bind, ← plain_poke]
    exact bind_congr fun value => inductionHypothesis (sound.poke index value) same

theorem Sound.assign_plain {m : Type → Type} [Monad m] [LawfulMonad m] {β : Type} {a : Cells α}
    (sound : a.Sound) (f : Nat → m α) {further : Cells α → m β} {furtherToo : Paged α → m β}
    (same : ∀ next : Cells α, next.Sound → next.layout = a.layout → further next = furtherToo next.plain) :
    a.assignM f >>= further = a.plain.assignM f >>= furtherToo := by
  rw [assignM_eq_foldlM sound.covers, Paged.assignM_eq_foldlM sound.plain.covers]
  exact foldlM_poke_plain sound f (List.range a.size) same

theorem Sound.foldl_poke {a : Cells α} (sound : a.Sound) (f : Nat → α) (indices : List Nat) :
    (indices.foldl (fun a index => a.poke index (f index)) a).Sound ∧
      (indices.foldl (fun a index => a.poke index (f index)) a).plain =
        indices.foldl (fun a index => a.poke index (f index)) a.plain := by
  induction indices generalizing a with
  | nil => exact ⟨sound, rfl⟩
  | cons index indices inductionHypothesis =>
    rw [List.foldl_cons, List.foldl_cons, ← plain_poke]
    exact inductionHypothesis (sound.poke index (f index))

theorem Sound.assign {a : Cells α} (sound : a.Sound) (f : Nat → α) :
    (a.assign f).Sound ∧ (a.assign f).plain = a.plain.assign f := by
  rw [assign_eq_foldl sound.covers, Paged.assign_eq_foldl sound.plain.covers]
  exact sound.foldl_poke f (List.range a.size)

theorem Sound.toList_plain {a : Cells α} (sound : a.Sound) : a.plain.toList = a.toList := by
  rw [Paged.toList_eq sound.plain.covers, toList]
  exact List.map_congr_left fun index member => peek_plain sound.covers (List.mem_range.mp member)

/-! ## Growth and release -/

theorem map_freshPages (layout : Paged.Layout) (count : Nat) :
    (freshPages α layout count).map (·.map Element.ofWord) = (Paged.freshPages layout count : Array (Array α)) := by
  simp [freshPages, Paged.freshPages, freshPage, Paged.freshPage, Array.map_ofFn, Function.comp_def,
    Element.ofWord_toWord]

theorem encoded_freshPages {layout : Paged.Layout} {count : Nat} :
    ∀ page ∈ freshPages α layout count, ∀ word ∈ page, Element.toWord (Element.ofWord word : α) = word := by
  intro page member word within
  obtain ⟨_, rfl⟩ := Array.mem_ofFn.mp member
  rw [Array.eq_of_mem_replicate within, Element.ofWord_toWord]

theorem sound_ofLayout (size : Nat) (layout : Paged.Layout) : (ofLayout size layout : Cells α).Sound ∧
    (ofLayout size layout : Cells α).plain = Paged.ofLayout size layout := by
  have same : (ofLayout size layout : Cells α).plain = Paged.ofLayout size layout :=
    congrArg (Paged.mk layout size · false) (map_freshPages layout _)
  exact ⟨⟨same ▸ Paged.sound_ofLayout size layout, encoded_freshPages⟩, same⟩

/-- The array with the rest of its last page reset, before there are more pages. -/
def cleared (a : Cells α) (size : Nat) : Cells α :=
  (List.range' a.size (min size (a.pages.size * a.layout.pageSize) - a.size)).foldl
    (fun a index => a.poke index default) a

/-- The array with more pages behind those it has. -/
def extended (a : Cells α) (size : Nat) (layout : Paged.Layout) : Cells α :=
  { a with
    pages := a.pages ++ freshPages α layout (layout.pagesFor size - a.pages.size)
    size := size }

theorem plain_extended (a : Cells α) (size : Nat) (layout : Paged.Layout) :
    (a.extended size layout).plain = { a.plain with
      pages := a.plain.pages ++ Paged.freshPages layout (layout.pagesFor size - a.plain.pages.size)
      size := size } := by
  simp [extended, plain, map_freshPages]

theorem Sound.grow {a : Cells α} (sound : a.Sound) (size : Nat) :
    a.plain.grow size = (a.grow size).map Cells.plain ∧ ∀ next, a.grow size = .ok next → next.Sound := by
  cases released : a.released with
  | true => simp [Paged.grow, Cells.grow, Cells.plain, released, Except.map]
  | false =>
    rcases Nat.lt_or_ge a.size size with more | enough
    · have grown : a.grow size = .ok ((a.cleared size).extended size a.layout) := by
        simp only [Cells.grow, released, Bool.false_eq_true, if_false, Nat.not_le_of_lt more]
        rfl
      obtain ⟨kept, agrees⟩ := sound.foldl_poke (fun _ => default)
        (List.range' a.size (min size (a.pages.size * a.layout.pageSize) - a.size))
      -- the plain array is reset element by element too, and the new pages are read back from words
      have same : a.plain.grow size = .ok ((a.cleared size).extended size a.layout).plain := by
        have pages : a.plain.pages.size = a.pages.size := by simp [Cells.plain]
        rw [plain_extended, cleared, agrees, Paged.grow, pages]
        simp [Cells.plain, released, Nat.not_le_of_lt more]
      have wholeness := (sound.plain.grow_flat size).2 _ same
      rw [grown, same]
      refine ⟨rfl, fun next equal => ?_⟩
      cases equal
      refine ⟨wholeness.1, fun page member => ?_⟩
      rcases Array.mem_append.mp member with old | new
      · exact kept.encoded page old
      · exact encoded_freshPages page new
    · have same : a.grow size = .ok a := by simp [Cells.grow, released, enough]
      have sameToo : a.plain.grow size = .ok a.plain := by simp [Paged.grow, Cells.plain, released, enough]
      rw [same, sameToo]
      exact ⟨rfl, fun next equal => by cases equal; exact sound⟩

/-- How many bytes are freed depends on a kind of elements, and nothing else does. -/
theorem Sound.release {β : Type} (kind : Element β) [Element β] {a : Cells β} (sound : a.Sound) :
    @Paged.release β kind a.plain = ((@Cells.release β kind a).1, (@Cells.release β kind a).2.plain) ∧
      (@Cells.release β kind a).2.Sound := by
  have same : @Paged.release β kind a.plain =
      ((@Cells.release β kind a).1, (@Cells.release β kind a).2.plain) := by
    cases released : a.released <;> simp [Paged.release, Cells.release, Cells.plain, released]
  refine ⟨same, ?_, ?_⟩
  · have wholeness := (sound.plain.release_flat kind).2.1
    rwa [same] at wholeness
  · cases released : a.released with
    | true => simpa [Cells.release, released] using sound.encoded
    | false => simp [Cells.release, released]

/-! ## As a storage -/

/-- A shared array as its user sees it. -/
def storage (m : Type → Type) [Monad m] (α : Type) [Element α] : Storage m (Cells α) α where
  read := read
  write := write
  fill := fill
  assign := assignM
  grow := grow
  release kind a := @release α kind a
  toList := toList
  size := size
  pageCount := pageCount

omit [Element α] in
theorem check_of_lt {a : Cells α} (unreleased : a.released = false) {index : Nat} (inside : index < a.size) :
    a.check index = .ok () := by
  simp [check, unreleased, Nat.not_le_of_lt inside]

omit [Element α] in
theorem check_of_ge {a : Cells α} {index : Nat} (beyond : a.size ≤ index) :
    ∃ error, a.check index = .error error := by
  cases released : a.released <;> simp [check, released, beyond]

theorem Sound.read_plain {a : Cells α} (sound : a.Sound) (index : Nat) :
    a.plain.read index = a.read index := by
  change (a.check index >>= fun _ => _) = (a.check index >>= fun _ => _)
  rcases Nat.lt_or_ge index a.size with inside | beyond
  · rw [peek_plain sound.covers inside]
  · obtain ⟨error, refused⟩ := check_of_ge beyond
    rw [refused]
    rfl

theorem Sound.write_plain {a : Cells α} (sound : a.Sound) (index : Nat) (value : α) :
    a.plain.write index value = (a.write index value).map Cells.plain ∧
      ∀ next, a.write index value = .ok next → next.Sound := by
  have same : a.plain.write index value = a.check index >>= fun _ => pure (a.poke index value).plain := by
    rw [plain_poke]
    rfl
  rw [same, write]
  cases a.check index with
  | error error => exact ⟨rfl, fun next written => by cases written⟩
  | ok =>
    refine ⟨rfl, fun next written => ?_⟩
    cases written
    exact sound.poke index value

theorem refines_plain (m : Type → Type) [Monad m] [LawfulMonad m] (α : Type) [element : Element α] :
    (storage m α).Refines (Paged.storage m α) Sound plain where
  read sound index := (sound.read_plain index).symm
  write sound index value := sound.write_plain index value
  fill sound value := ⟨(sound.assign fun _ => value).2.symm, (sound.assign fun _ => value).1⟩
  assign sound f _ _ _ same := sound.assign_plain f fun next kept _ => same next kept
  grow sound size := sound.grow size
  release sound kind := @Sound.release α kind element _ sound
  toList sound := sound.toList_plain.symm
  size _ := rfl
  pageCount {a} _ := by simp [storage, Paged.storage, pageCount, Paged.pageCount, plain]

/-! ## The copy -/

theorem toPaged_elements (a : Cells α) :
    a.toPaged.layout = a.layout ∧ a.toPaged.released = false ∧ a.toPaged.toList = a.toList := by
  have fresh := Paged.sound_ofLayout (α := α) a.size a.layout
  have poured : a.toPaged = (Paged.ofLayout a.size a.layout).pour 0 ((List.range a.size).map a.peek) :=
    Paged.assign_eq_pour fresh.covers a.peek
  have whole := fresh.pour 0 ((List.range a.size).map a.peek)
  have all : ((List.range a.size).map a.peek).length = a.size := by simp
  have elements := fresh.flat_pour all
  obtain ⟨layout, _, released⟩ := Paged.pour_shape (Paged.ofLayout a.size a.layout) 0
    ((List.range a.size).map a.peek)
  rw [poured]
  refine ⟨layout, released, ?_⟩
  rw [Paged.toList_eq whole.covers]
  exact congrArg Flat.elements elements

end BulkSync.Cells
