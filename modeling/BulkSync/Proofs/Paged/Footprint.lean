import Mathlib.Algebra.Order.Floor.Div
import BulkSync.Proofs.Paged.Reachable

/-! # How many bytes an array takes

The footprint of an array is the number of bytes of its page directory and its pages, and nothing comes of it where
that number needs more than 64 bits (`footprint_eq`): the bytes of the pages are pressed into the range, but there is
always a directory to be added to them. -/

namespace BulkSync

namespace Word

theorem satMul_satMul (a b c : Nat) : satMul (satMul a b) c = min (a * b * c) top := by
  rcases Nat.le_total (a * b) top with fits | beyond
  · rw [satMul, satMul, Nat.min_eq_left fits]
  · rw [satMul, satMul, Nat.min_eq_right beyond]
    cases c with
    | zero => rfl
    | succ c =>
      have least : top ≤ top * (c + 1) := Nat.le_mul_of_pos_right top c.succ_pos
      have more : top * (c + 1) ≤ a * b * (c + 1) := Nat.mul_le_mul_right _ beyond
      rw [Nat.min_eq_right least, Nat.min_eq_right (Nat.le_trans least more)]

/-- Where there is anything to be added to it, a count that is pressed into the range makes the sum leave it. -/
theorem add?_min {a b : Nat} (some : top < b → 0 < a) :
    add? a (min b top) = if limit ≤ a + b then .error .additionOverflow else .ok (a + b) := by
  have greatest : top + 1 = limit := rfl
  rw [add?]
  rcases Nat.le_total b top with fits | beyond
  · rw [Nat.min_eq_left fits]
    split
    · next below => rw [if_neg (Nat.not_le_of_lt below)]
    · next above => rw [if_pos (Nat.le_of_not_lt above)]
  · rw [Nat.min_eq_right beyond]
    split
    · next below =>
      have exact : b = top := by omega
      rw [if_neg (by omega), exact]
    · next above => rw [if_pos (by omega)]

end Word

namespace Paged

/-- The bytes of the directory and of the pages of `2 ^ shift` slots. -/
def bytes (size shift width : Nat) : Nat := size ⌈/⌉ 2 ^ shift * 16 + size ⌈/⌉ 2 ^ shift * 2 ^ shift * width

theorem pagesFor_mk (size shift : Nat) : (⟨shift⟩ : Layout).pagesFor size = size ⌈/⌉ 2 ^ shift := by
  rw [Layout.pagesFor_eq, Layout.pageSize_eq, Nat.ceilDiv_eq_add_pred_div]

theorem bytes_mono {size larger width wider : Nat} (shift : Nat) (grows : size ≤ larger) (widens : width ≤ wider) :
    bytes size shift width ≤ bytes larger shift wider := by
  have pages : size ⌈/⌉ 2 ^ shift ≤ larger ⌈/⌉ 2 ^ shift := by
    rw [← pagesFor_mk, ← pagesFor_mk]
    exact Layout.pagesFor_mono _ grows
  apply Nat.add_le_add
  · exact Nat.mul_le_mul_right 16 pages
  · exact Nat.mul_le_mul (Nat.mul_le_mul_right _ pages) widens

theorem footprint_eq (size shift width : Nat) : footprint size shift width =
    if Layout.greatestShift < shift then .error (.pageShift shift Layout.greatestShift)
    else if Word.limit ≤ size ⌈/⌉ 2 ^ shift * 16 then .error .multiplicationOverflow
    else if Word.limit ≤ bytes size shift width then .error .additionOverflow
    else .ok (bytes size shift width) := by
  rcases Nat.lt_or_ge Layout.greatestShift shift with refused | allowed
  · rw [if_pos refused, footprint, Layout.ofShift_refused refused]
    rfl
  · rw [if_neg (Nat.not_lt_of_le allowed), footprint, Layout.ofShift_allowed allowed]
    change (Word.mul? ((⟨shift⟩ : Layout).pagesFor size) 16 >>= fun directory =>
      Word.add? directory (Word.satMul (Word.satMul ((⟨shift⟩ : Layout).pagesFor size) (⟨shift⟩ : Layout).pageSize)
        width)) = _
    rw [Word.satMul_satMul, pagesFor_mk, Layout.pageSize_eq, bytes]
    generalize size ⌈/⌉ 2 ^ shift = pages
    have directory : Word.top < pages * 2 ^ shift * width → 0 < pages * 16 := by
      intro many
      apply Nat.mul_pos _ (by decide)
      apply Nat.pos_of_ne_zero
      rintro rfl
      simp at many
    rw [Word.mul?]
    by_cases fits : pages * 16 < Word.limit
    · rw [if_pos fits, if_neg (Nat.not_le_of_lt fits)]
      exact Word.add?_min directory
    · rw [if_neg fits, if_pos (Nat.le_of_not_lt fits)]
      rfl

theorem footprint_eq_ok_iff {size shift width count : Nat} (allowed : shift ≤ Layout.greatestShift) :
    footprint size shift width = .ok count ↔ bytes size shift width < Word.limit ∧ count = bytes size shift width := by
  have directory : size ⌈/⌉ 2 ^ shift * 16 ≤ bytes size shift width := Nat.le_add_right _ _
  rw [footprint_eq, if_neg (Nat.not_lt_of_le allowed)]
  constructor
  · intro returned
    split at returned
    · cases returned
    · split at returned
      · cases returned
      · next fits =>
        cases returned
        exact ⟨Nat.lt_of_not_le fits, rfl⟩
  · rintro ⟨fits, rfl⟩
    rw [if_neg (by omega), if_neg (Nat.not_le_of_lt fits)]

/-- The footprint is what pressing the bytes into the range would give only where there is nothing to be pressed. -/
theorem footprint_eq_min_iff {size shift width : Nat} (allowed : shift ≤ Layout.greatestShift) :
    footprint size shift width = .ok (min (bytes size shift width) Word.top) ↔ bytes size shift width < Word.limit := by
  have greatest : Word.top + 1 = Word.limit := rfl
  rw [footprint_eq_ok_iff allowed]
  constructor
  · exact And.left
  · intro fits
    exact ⟨fits, Nat.min_eq_left (by omega)⟩

theorem footprint_mono {size larger shift width wider count : Nat} (grows : size ≤ larger) (widens : width ≤ wider)
    (returned : footprint larger shift wider = .ok count) : ∃ fewer ≤ count, footprint size shift width = .ok fewer := by
  have allowed : shift ≤ Layout.greatestShift := by
    by_contra refused
    rw [footprint_eq, if_pos (Nat.lt_of_not_le refused)] at returned
    cases returned
  obtain ⟨fits, rfl⟩ := (footprint_eq_ok_iff allowed).mp returned
  have fewer := bytes_mono shift grows widens
  exact ⟨_, fewer, (footprint_eq_ok_iff allowed).mpr ⟨Nat.lt_of_le_of_lt fewer fits, rfl⟩⟩

/-- The directory and what a release gives back are the bytes of the array. -/
theorem Sound.bytes_eq {α : Type} [Element α] {a : Paged α} (sound : a.Sound) :
    16 * a.pageCount + a.release.1 = bytes a.size a.layout.shift (Element.width α) := by
  have pages : a.pages.size = a.size ⌈/⌉ 2 ^ a.layout.shift := by
    rw [sound.covers.count, ← pagesFor_mk]
  rw [pageCount, release, bytes]
  cases released : a.released with
  | true =>
    have gone : a.pages.size = 0 := by
      rw [pages, sound.empty released]
      exact zero_ceilDiv _
    rw [if_pos rfl, ← pages, gone]
    simp
  | false =>
    rw [if_neg Bool.false_ne_true, ← pages, Layout.pageSize_eq, Nat.mul_comm 16]

theorem Reachable.footprint_eq {α : Type} [Element α] {a : Paged α} (reachable : a.Reachable)
    (fits : 16 * a.pageCount + a.release.1 < Word.limit) :
    footprint a.size a.layout.shift (Element.width α) = .ok (16 * a.pageCount + a.release.1) := by
  obtain ⟨sound, allowed⟩ := reachable.invariant
  rw [sound.bytes_eq] at fits ⊢
  exact (footprint_eq_ok_iff allowed).mpr ⟨fits, rfl⟩

/-- The footprint is the number of bytes of the directory and the pages, or a fault if that takes more than 64 bits. It
grows with the size and with the width of the elements, and is what an array that has been made takes. -/
theorem estimate (size shift width : Nat) :
    (footprint size shift width =
      if Layout.greatestShift < shift then .error (.pageShift shift Layout.greatestShift)
      else if Word.limit ≤ size ⌈/⌉ 2 ^ shift * 16 then .error .multiplicationOverflow
      else if Word.limit ≤ bytes size shift width then .error .additionOverflow
      else .ok (bytes size shift width)) ∧
    (shift ≤ Layout.greatestShift →
      (footprint size shift width = .ok (min (bytes size shift width) Word.top) ↔
        bytes size shift width < Word.limit)) ∧
    (∀ larger wider count, size ≤ larger → width ≤ wider → footprint larger shift wider = .ok count →
      ∃ fewer ≤ count, footprint size shift width = .ok fewer) ∧
    ∀ {α : Type} [Element α] {a : Paged α}, a.Reachable → 16 * a.pageCount + a.release.1 < Word.limit →
      footprint a.size a.layout.shift (Element.width α) = .ok (16 * a.pageCount + a.release.1) :=
  ⟨footprint_eq size shift width, footprint_eq_min_iff, fun _ _ _ grows widens returned =>
    footprint_mono grows widens returned, fun reachable fits => reachable.footprint_eq fits⟩

/-- Seven elements of eight bytes on two pages of four slots, and five of four bytes. -/
theorem estimate_seven :
    (ofLayout 7 ⟨2⟩ : Paged Int64).Reachable ∧
      16 * (ofLayout 7 ⟨2⟩ : Paged Int64).pageCount + (ofLayout 7 ⟨2⟩ : Paged Int64).release.1 < Word.limit ∧
      footprint 7 2 8 = .ok 96 ∧ 5 ≤ 7 ∧ 4 ≤ 8 ∧ (∃ fewer ≤ 96, footprint 5 2 4 = .ok fewer) ∧
      2 ≤ Layout.greatestShift ∧
      (footprint 5 2 4 = .ok (min (bytes 5 2 4) Word.top) ↔ bytes 5 2 4 < Word.limit) := by
  have made : (Origin.withShift 7 2 : Origin Id Int64).make = .ok (ofLayout 7 ⟨2⟩) := rfl
  have fits : 16 * (ofLayout 7 ⟨2⟩ : Paged Int64).pageCount + (ofLayout 7 ⟨2⟩ : Paged Int64).release.1 <
      Word.limit := by decide
  obtain ⟨-, pressed, grows, taken⟩ := estimate 5 2 4
  have seven : footprint 7 2 8 = .ok 96 := taken (.made made) fits
  have more : ∃ fewer ≤ 96, footprint 5 2 4 = .ok fewer := grows 7 8 96 (by decide) (by decide) seven
  exact ⟨.made made, fits, seven, by decide, by decide, more, by decide, pressed (by decide)⟩

/-- The estimate is not pressed into the range as a whole: pages whose bytes are beyond it are too many to add their
directory. -/
theorem footprint_unsaturated :
    ¬∀ size < Word.limit, ∀ shift ≤ Layout.greatestShift, ∀ width < Word.limit,
      footprint size shift width = .ok (min (bytes size shift width) Word.top) := by
  intro saturates
  have returned := saturates 4611686018427387904 (by decide) 12 (by decide) 8 (by decide)
  have fails : footprint 4611686018427387904 12 8 = .error .additionOverflow := by rfl
  rw [fails] at returned
  cases returned

end Paged
end BulkSync
