import BulkSync.Proofs.Property.Words
import Mathlib.Data.List.Nodup

/-! # Keys of declarations

A schema that declares a key more than once can be asked for its first declaration (`get?`) or for its
last one (`last?`). A store goes by the last one (`place_cases`). They are the same exactly if no key is
repeated (`get?_eq_last?`). -/

namespace BulkSync

/-- Where keys are distinct, an entry is the one found under its key. -/
theorem find?_key {α β : Type} [BEq β] [LawfulBEq β] {key : α → β} {entries : List α}
    (distinct : (entries.map key).Nodup) {entry : α} (inside : entry ∈ entries) :
    entries.find? (fun other => key other == key entry) = some entry := by
  cases found : entries.find? (fun other => key other == key entry) with
  | none => exact absurd (List.find?_eq_none.mp found entry inside) (by simp)
  | some other =>
    have same : key other = key entry := by simpa using List.find?_some found
    rw [List.inj_on_of_nodup_map distinct (List.mem_of_find?_eq_some found) inside same]

namespace Schema

/-- The last declaration of a key. -/
def last? (s : Schema) (key : String) : Option Property := s.properties.reverse.find? (·.key == key)

theorem last?_eq_none_iff {s : Schema} {key : String} :
    s.last? key = none ↔ ∀ p ∈ s.properties, p.key ≠ key := by
  simp [last?]

end Schema

namespace PropertyStore

/-- The place of the last declaration is where that declaration is. -/
theorem getElem?_lastPlace (key : String) (start : Nat) (properties : List Property) :
    (lastPlace key start properties).bind (fun index => properties[index - start]?) =
      properties.reverse.find? (·.key == key) := by
  induction properties generalizing start with
  | nil => rfl
  | cons p properties inductionHypothesis =>
    have later := inductionHypothesis (start + 1)
    rw [lastPlace, List.reverse_cons, List.find?_append, ← later]
    cases found : lastPlace key (start + 1) properties with
    | none => by_cases here : p.key = key <;> simp [here]
    | some index =>
      have bounds := lastPlace_lt found
      have inside : index - (start + 1) < properties.length := by omega
      have place : index - start = index - (start + 1) + 1 := by omega
      simp [place, inside]

end PropertyStore

namespace Schema

/-- What stands under a key: no declaration, or the last one, which is of one kind only. -/
theorem place_cases (s : Schema) (kind : PropertyKind) (key : String) :
    (s.last? key = none ∧ s.place kind key = .error (.unknown key)) ∨
    (∃ p, s.last? key = some p ∧ p.kind ≠ kind ∧ s.place kind key = .error (.mismatch key kind p.kind)) ∨
    ∃ index p, s.last? key = some p ∧ p.kind = kind ∧ s.properties[index]? = some p ∧
      PropertyStore.lastPlace key 0 s.properties = some index ∧ s.place kind key = .ok index := by
  have last := PropertyStore.getElem?_lastPlace key 0 s.properties
  rw [place]
  cases found : PropertyStore.lastPlace key 0 s.properties with
  | none =>
    rw [found] at last
    exact .inl ⟨last.symm, rfl⟩
  | some index =>
    rw [found, Option.bind_some, Nat.sub_zero] at last
    have inside : index < s.properties.length := by simpa using (PropertyStore.lastPlace_lt found).2
    have there := List.getElem?_eq_getElem inside
    have itself : s.last? key = some s.properties[index] := last.symm.trans there
    simp only [there]
    split
    · next same => exact .inr (.inr ⟨index, _, itself, same, there, rfl, rfl⟩)
    · next other => exact .inr (.inl ⟨_, itself, other, rfl⟩)

theorem place_eq_ok {s : Schema} {kind : PropertyKind} {key : String} {index : Nat}
    (found : s.place kind key = .ok index) : ∃ p, s.last? key = some p ∧ p.kind = kind ∧
      s.properties[index]? = some p ∧ PropertyStore.lastPlace key 0 s.properties = some index := by
  rcases s.place_cases kind key with ⟨-, place⟩ | ⟨_, -, -, place⟩ |
    ⟨_, p, declared, same, there, last, place⟩
  · rw [place] at found
    cases found
  · rw [place] at found
    cases found
  · rw [place] at found
    cases found
    exact ⟨p, declared, same, there, last⟩

theorem place_undeclared {s : Schema} {key : String} (undeclared : s.last? key = none)
    (kind : PropertyKind) : s.place kind key = .error (.unknown key) := by
  rcases s.place_cases kind key with ⟨-, place⟩ | ⟨_, declared, -, -⟩ | ⟨_, _, declared, -, -, -, -⟩
  · exact place
  · cases undeclared.symm.trans declared
  · cases undeclared.symm.trans declared

theorem exists_place {s : Schema} {key : String} {p : Property} (declared : s.last? key = some p) :
    ∃ index, s.place p.kind key = .ok index := by
  rcases s.place_cases p.kind key with ⟨undeclared, -⟩ | ⟨q, declaredToo, other, -⟩ |
    ⟨index, _, -, -, -, -, place⟩
  · cases undeclared.symm.trans declared
  · cases declared.symm.trans declaredToo
    exact absurd rfl other
  · exact ⟨index, place⟩

theorem key_of_lastPlace {s : Schema} {key : String} {index : Nat} {p : Property}
    (last : PropertyStore.lastPlace key 0 s.properties = some index)
    (there : s.properties[index]? = some p) : p.key = key := by
  have found := PropertyStore.getElem?_lastPlace key 0 s.properties
  rw [last, Option.bind_some, Nat.sub_zero, there] at found
  simpa using List.find?_some found.symm

/-- A place belongs to one key. -/
theorem eq_of_lastPlace {s : Schema} {key other : String} {index : Nat}
    (last : PropertyStore.lastPlace key 0 s.properties = some index)
    (lastToo : PropertyStore.lastPlace other 0 s.properties = some index) : key = other := by
  have inside : index < s.properties.length := by simpa using (PropertyStore.lastPlace_lt last).2
  have there := List.getElem?_eq_getElem inside
  exact (key_of_lastPlace last there).symm.trans (key_of_lastPlace lastToo there)

end Schema

theorem Column.Regular.kind_eq {nodes : Nat} {kind : PropertyKind} {c : Column}
    (regular : Column.Regular nodes kind c) : c.kind = kind := by
  cases regular <;> rfl

/-- A key stands for the column of its last declaration. -/
theorem PropertyStore.Regular.column_last {schema : Schema} {nodes : Nat} {s : PropertyStore}
    (regular : Regular schema nodes s) (key : String) :
    (schema.last? key = none ∧ s.column key = .error (.unknown key)) ∨
    ∃ p index c, schema.last? key = some p ∧ schema.place p.kind key = .ok index ∧
      s.columns[index]? = some c ∧ s.column key = .ok c ∧ Column.Regular nodes p.kind c := by
  cases declared : schema.last? key with
  | none =>
    have nowhere := Schema.place_undeclared declared .long
    rcases regular.column_cases .long key with ⟨_, _, place, -⟩ | ⟨-, column⟩ | ⟨_, _, -, place, -⟩
    · cases nowhere.symm.trans place
    · exact .inl ⟨rfl, column⟩
    · cases nowhere.symm.trans place
  | some p =>
    obtain ⟨index, found⟩ := Schema.exists_place declared
    rcases regular.column_cases p.kind key with ⟨_, c, place, there, kindRegular, column, -⟩ |
      ⟨place, -⟩ | ⟨_, _, -, place, -⟩
    · cases found.symm.trans place
      exact .inr ⟨p, index, c, rfl, found, there, column, kindRegular⟩
    · cases found.symm.trans place
    · cases found.symm.trans place

end BulkSync
