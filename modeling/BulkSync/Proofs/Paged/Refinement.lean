import BulkSync.Proofs.Paged.Sound

/-! # Paged arrays refine lists

However paged arrays are made, and whatever is then done to them and to copies of them, they answer what
lists would answer (`refinement`): each operation does so (`refines_flat`), and an array that is just made
stands for the list of what its maker was asked for. -/

namespace BulkSync.Paged

variable {α : Type} [Inhabited α]

/-! ## Any operations -/

/-- A paged array as its user sees it. -/
def storage (m : Type → Type) [Monad m] (α : Type) [Inhabited α] : Storage m (Paged α) α where
  read := read
  write := write
  fill := fill
  assign := assignM
  grow := grow
  release kind a := @release α kind a
  toList := toList
  size := size
  pageCount := pageCount

/-- A paged array does as the list that it stands for. -/
theorem refines_flat (m : Type → Type) [Monad m] [LawfulMonad m] (shift : Nat) :
    (storage m α).Refines (Flat.storage m shift) (fun a => a.Sound ∧ a.layout.shift = shift) flat where
  read _ index := Sound.read_flat _ index
  write := by
    rintro a ⟨sound, rfl⟩ index value
    obtain ⟨agrees, keeps⟩ := sound.write_flat index value
    exact ⟨agrees, fun next written => ⟨(keeps next written).1, congrArg _ (keeps next written).2⟩⟩
  fill := by
    rintro a ⟨sound, rfl⟩ value
    obtain ⟨agrees, keeps, layout⟩ := sound.fill_flat value
    exact ⟨agrees, keeps, congrArg _ layout⟩
  assign := by
    rintro a ⟨sound, rfl⟩ f β further furtherToo same
    exact sound.assign_flat f fun next keeps layout => same next ⟨keeps, congrArg _ layout⟩
  grow := by
    rintro a ⟨sound, rfl⟩ size
    obtain ⟨agrees, keeps⟩ := sound.grow_flat size
    exact ⟨agrees, fun next grown => ⟨(keeps next grown).1, congrArg _ (keeps next grown).2⟩⟩
  release := by
    rintro a ⟨sound, rfl⟩ kind
    obtain ⟨agrees, keeps, layout⟩ := sound.release_flat kind
    exact ⟨agrees, keeps, congrArg _ layout⟩
  toList holds := toList_eq holds.1.covers
  size {a} _ := (length_elements a).symm
  pageCount := by
    rintro a ⟨sound, rfl⟩
    exact sound.pageCount_flat

/-! ## From the making on -/

/-- How an array is made. -/
inductive Origin (m : Type → Type) (α : Type) where
  | new (size : Nat)
  | withShift (size shift : Nat)
  | filled (size : Nat) (value : α)
  | ofFn (size : Nat) (f : Nat → m α)

namespace Origin

variable {m : Type → Type} [Monad m]

def make : Origin m α → Except Fault (m (Paged α))
  | .new size => .ok (pure (Paged.new size))
  | .withShift size shift => (Paged.withShift size shift).map pure
  | .filled size value => .ok (pure (Paged.filled size value))
  | .ofFn size f => .ok (Paged.ofFnM size f)

/-- The elements asked for. -/
def elements : Origin m α → m (List α)
  | .new size | .withShift size _ => pure (List.replicate size default)
  | .filled size value => pure (List.replicate size value)
  | .ofFn size f => (List.range size).mapM f

def shift : Origin m α → Nat
  | .withShift _ shift => shift
  | .new _ | .filled _ _ | .ofFn _ _ => 12

/-- The shift is allowed, and the directory of the pages can be reserved. -/
def Allocatable : Origin m α → Prop
  | .withShift size shift =>
      shift ≤ 30 ∧ (size + 2 ^ shift - 1) / 2 ^ shift * 16 ≤ Word.greatestBytes
  | .new _ | .filled _ _ | .ofFn _ _ => True

end Origin

theorem sound_ofLayout (size : Nat) (layout : Layout) : (ofLayout size layout : Paged α).Sound :=
  ⟨Layout.covers_fresh _ _ _, fun gone => nomatch gone⟩

theorem flat_ofLayout (size : Nat) (layout : Layout) :
    (ofLayout size layout : Paged α).flat = ⟨List.replicate size default, false⟩ := by
  have peek : (ofLayout size layout : Paged α).peek = fun _ => default :=
    funext fun index => Layout.entry_fresh_blank _ _ _ _
  rw [flat, elements, peek, List.map_const', List.length_range]
  rfl

theorem withShift_of_allocatable {size shift : Nat} (allowed : shift ≤ 30)
    (reservable : (size + 2 ^ shift - 1) / 2 ^ shift * 16 ≤ Word.greatestBytes) :
    (withShift size shift : Except Fault (Paged α)) = .ok (ofLayout size ⟨shift⟩) := by
  have pages : (⟨shift⟩ : Layout).pagesFor size = (size + 2 ^ shift - 1) / 2 ^ shift := by
    rw [Layout.pagesFor_eq, Layout.pageSize_eq]
  have reserved : Word.reserve ((⟨shift⟩ : Layout).pagesFor size) Layout.directoryEntry = .ok () := by
    rw [pages]
    exact if_pos reservable
  rw [withShift, Layout.ofShift_allowed allowed]
  change (Word.reserve _ _ >>= fun _ => _) = _
  rw [reserved]
  rfl

/-- However an array is made, and whatever is done to it and to copies of it: the answers are those of
lists that hold the elements it was made with. -/
theorem refinement {m : Type → Type} [Monad m] [LawfulMonad m] (origin : Origin m α)
    (allocatable : origin.Allocatable) (commands : List (Command m α)) :
    ∃ made, origin.make = .ok made ∧
      (made >>= fun a => (storage m α).run [a] commands) =
        origin.elements >>= fun elements =>
          (Flat.storage m origin.shift).run [⟨elements, false⟩] commands := by
  have law : ∀ {a : Paged α}, a.Sound → a.layout.shift = origin.shift →
      (storage m α).run [a] commands = (Flat.storage m origin.shift).run [a.flat] commands :=
    fun sound shift => (refines_flat m origin.shift).run_eq commands [_] fun b member =>
      List.mem_singleton.mp member ▸ ⟨sound, shift⟩
  cases origin with
  | new size =>
    refine ⟨_, rfl, ?_⟩
    rw [Origin.elements, pure_bind, pure_bind, ← flat_ofLayout size .usual]
    exact law (sound_ofLayout size .usual) rfl
  | withShift size shift =>
    obtain ⟨allowed, reservable⟩ := allocatable
    refine ⟨pure (ofLayout size ⟨shift⟩), ?_, ?_⟩
    · rw [Origin.make, withShift_of_allocatable allowed reservable]
      rfl
    · rw [Origin.elements, pure_bind, pure_bind, ← flat_ofLayout size ⟨shift⟩]
      exact law (sound_ofLayout size ⟨shift⟩) rfl
  | filled size value =>
    obtain ⟨agrees, sound, layout⟩ := (sound_ofLayout (α := α) size .usual).fill_flat value
    have filled : (Paged.filled size value).flat = ⟨List.replicate size value, false⟩ := by
      rw [Paged.filled, Paged.new, ← agrees, flat_ofLayout, Flat.fill, List.length_replicate]
    refine ⟨_, rfl, ?_⟩
    rw [Origin.elements, pure_bind, pure_bind, ← filled]
    exact law sound (congrArg _ layout)
  | ofFn size f =>
    have filled : (ofFnM size f >>= fun a => (storage m α).run [a] commands) =
        (ofLayout size .usual : Paged α).flat.assign f >>= fun l =>
          (Flat.storage m (Origin.ofFn size f).shift).run [l] commands :=
      (sound_ofLayout size .usual).assign_flat f fun next sound layout =>
        law sound (congrArg Layout.shift layout)
    refine ⟨_, rfl, filled.trans ?_⟩
    rw [flat_ofLayout, Flat.assign, List.length_replicate]
    simp only [bind_assoc, pure_bind]
    rfl

/-- Five elements on pages of two slots are filled, cut off from a copy, enlarged and released. -/
def excursion : List (Command (StateM (List Nat)) Int64) :=
  [.at 0 (.assign fun index => do
      modify (· ++ [index])
      return Int64.ofNat (3 * index)),
    .clone 0, .at 0 (.set 4 7), .at 0 (.trySet 5 1), .at 0 (.grow 8), .at 0 .toList, .at 0 .pageCount,
    .at 1 .toList, .at 0 (.release inferInstance), .at 0 (.get 4), .at 0 (.grow 9), .at 0 .pageCount,
    .at 0 (.release inferInstance), .at 1 (.tryGet 4)]

theorem refinement_excursion :
    ∃ made, (Origin.withShift 5 1 : Origin (StateM (List Nat)) Int64).make = .ok made ∧
    (made >>= fun a => (storage _ _).run [a] excursion).run [] =
      ([.done, .done, .refused (.outOfBounds 5 5), .done, .elements [0, 3, 6, 9, 7, 0, 0, 0], .count 4,
        .elements [0, 3, 6, 9, 12], .count 64, .failed (.access .released), .failed (.access .released),
        .count 0, .count 0, .element 12], [0, 1, 2, 3, 4]) := by
  obtain ⟨made, ok, law⟩ := refinement (.withShift 5 1) ⟨by decide, by decide⟩ excursion
  exact ⟨made, ok, by rw [law]; rfl⟩

end BulkSync.Paged
