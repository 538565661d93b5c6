import BulkSync.Proofs.Lockstep
import BulkSync.Proofs.Property.Keys

/-! # Schemas with distinct keys

Declaring properties one after the other never makes a key occur twice, whatever is refused on the way
(`nodup_declared_iff`). Where no key occurs twice, the first declaration of a key is the last one
(`get?_eq_last?`). The properties that are part of a result are declared again for it, which succeeds
just if their keys are distinct (`exposed_succeeds_iff`). -/

namespace BulkSync

namespace Schema

/-- The keys that are declared, in order. -/
def keys (s : Schema) : List String := s.properties.map (·.key)

/-- The request to declare a property. A schema that refuses it stays as it is. -/
def declare (p : Property) : StateM Schema (Except Fault Unit) := fun s =>
  match s.add p with
  | .ok t => (.ok (), t)
  | .error fault => (.error fault, s)

variable {s t : Schema} {p : Property} {key : String}

theorem keys_append (s : Schema) (ps : List Property) :
    (⟨s.properties ++ ps⟩ : Schema).keys = s.keys ++ ps.map (·.key) := by
  simp [keys]

theorem add_eq (s : Schema) (p : Property) : s.add p =
    if p.key ∈ s.keys then .error (.declaredTwice p.key) else .ok ⟨s.properties ++ [p]⟩ := by
  have found : (s.get? p.key).isSome = true ↔ p.key ∈ s.keys := by
    simp [get?, keys, List.find?_isSome]
  simp only [add, found]

theorem nodup_keys_added (fresh : p.key ∉ s.keys) :
    (⟨s.properties ++ [p]⟩ : Schema).keys.Nodup ↔ s.keys.Nodup := by
  rw [keys_append, List.map_singleton, List.nodup_append_comm, List.singleton_append, List.nodup_cons]
  exact and_iff_right fresh

theorem nodup_exposed (distinct : s.keys.Nodup) : (⟨s.exposed⟩ : Schema).keys.Nodup :=
  distinct.sublist (List.filter_sublist.map _)

/-! ## One after the other -/

/-- A refusal names the key and changes nothing. -/
theorem run_declare (s : Schema) (p : Property) : (declare p).run s =
    if p.key ∈ s.keys then (.error (.declaredTwice p.key), s) else (.ok (), ⟨s.properties ++ [p]⟩) := by
  simp only [declare, StateT.run, add_eq]
  by_cases declared : p.key ∈ s.keys
  · simp only [declared, if_true]
  · simp only [declared, if_false]

theorem nodup_declared_iff (s : Schema) (ps : List Property) :
    ((ps.mapM declare).run s).2.keys.Nodup ↔ s.keys.Nodup := by
  have kept : ∀ p (t : Schema), (t.keys.Nodup ↔ s.keys.Nodup) →
      (((declare p).run t).2.keys.Nodup ↔ s.keys.Nodup) := by
    intro p t same
    rw [run_declare]
    split
    · exact same
    · next fresh => exact (nodup_keys_added fresh).trans same
  exact Lockstep.keeps_mapM kept ps Iff.rfl

theorem addAll_eq_ok_iff (distinct : s.keys.Nodup) {ps : List Property} :
    s.addAll ps = .ok t ↔ t = ⟨s.properties ++ ps⟩ ∧ t.keys.Nodup := by
  induction ps generalizing s with
  | nil =>
    rw [List.append_nil]
    constructor
    · rintro ⟨⟩
      exact ⟨rfl, distinct⟩
    · rintro ⟨rfl, -⟩
      rfl
  | cons p ps inductionHypothesis =>
    have first : s.addAll (p :: ps) = s.add p >>= fun next => next.addAll ps := rfl
    rw [first, add_eq]
    by_cases declared : p.key ∈ s.keys
    · -- a key that is declared already would occur twice among the keys of all
      rw [if_pos declared]
      constructor
      · rintro ⟨⟩
      · rintro ⟨rfl, distinctToo⟩
        rw [keys_append, List.map_cons] at distinctToo
        exact absurd rfl (List.nodup_append.mp distinctToo |>.2.2 _ declared _ (List.mem_cons_self ..))
    · rw [if_neg declared]
      have later := inductionHypothesis ((nodup_keys_added declared).mpr distinct)
      rw [List.append_assoc, List.singleton_append] at later
      exact later

/-- Properties can be declared from the start on just if their keys are distinct. -/
theorem ofList_succeeds_iff {ps : List Property} :
    (∃ t, ofList ps = .ok t) ↔ (ps.map (·.key)).Nodup := by
  have none : empty.keys.Nodup := List.nodup_nil
  have whole : ∀ t, ofList ps = .ok t ↔ t = ⟨ps⟩ ∧ t.keys.Nodup := fun t => addAll_eq_ok_iff none
  simp only [whole, exists_eq_left]
  rfl

/-! ## First and last declarations -/

theorem get?_eq_last? (distinct : s.keys.Nodup) (key : String) : s.get? key = s.last? key := by
  cases last : s.last? key with
  | none =>
    rw [get?, List.find?_eq_none]
    intro p declared
    simpa using last?_eq_none_iff.mp last p declared
  | some p =>
    have here : p ∈ s.properties := List.mem_reverse.mp (List.mem_of_find?_eq_some last)
    have same : p.key = key := by simpa using List.find?_some last
    rw [get?, ← same]
    exact find?_key distinct here

end Schema

/-! ## The result -/

namespace PropertyStore

/-- The declarations of a store, each with its column. -/
def listed (s : PropertyStore) : List (Property × Column) := s.schema.properties.zip s.columns.toList

/-- Those that are exposed. -/
def kept (s : PropertyStore) : List (Property × Column) := s.listed.filter (·.1.visibility == .exposed)

namespace Regular

variable {schema : Schema} {nodes : Nat} {s : PropertyStore}

theorem map_listed (regular : Regular schema nodes s) : s.listed.map (·.1) = schema.properties := by
  have enough : schema.properties.length ≤ s.columns.toList.length := by
    simpa using Nat.le_of_eq regular.size_eq.symm
  rw [listed, regular.schema_eq, List.map_fst_zip enough]

theorem map_kept (regular : Regular schema nodes s) : s.kept.map (·.1) = schema.exposed :=
  calc s.kept.map (·.1)
    _ = (s.listed.map (·.1)).filter (·.visibility == .exposed) := by
        rw [List.filter_map]
        rfl
    _ = schema.exposed := by rw [regular.map_listed, Schema.exposed]

/-- What is declared again for a result are the exposed properties. -/
theorem declared_again (regular : Regular schema nodes s) :
    (s.kept.map fun entry => { entry.1 with visibility := Visibility.exposed }) = schema.exposed := by
  rw [← regular.map_kept]
  apply List.map_congr_left
  rintro ⟨⟨key, kind, visibility⟩, c⟩ member
  obtain ⟨-, exposed⟩ := List.mem_filter.mp member
  cases eq_of_beq exposed
  rfl

/-- The properties of a result have been declared once more, so that it fails if two have one key. -/
theorem exposed_succeeds_iff (regular : Regular schema nodes s) :
    (∃ values, s.exposed = .ok values) ↔ (schema.exposed.map (·.key)).Nodup := by
  have again := regular.declared_again
  rw [kept, listed] at again
  rw [← Schema.ofList_succeeds_iff, exposed_of_kept, again]
  constructor
  · rintro ⟨values, ran⟩
    obtain ⟨declared, made, -⟩ := bind_eq_ok_iff.mp ran
    exact ⟨declared, made⟩
  · rintro ⟨declared, made⟩
    exact ⟨_, bind_eq_ok_iff.mpr ⟨declared, made, rfl⟩⟩

end Regular
end PropertyStore
end BulkSync
