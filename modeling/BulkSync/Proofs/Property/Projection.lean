import BulkSync.Proofs.Property.Distinct

/-! # Projection to the exposed properties

Where no key is declared twice, what stands under a key is the column of its declaration (`Regular.column_of_listed`).
The projection keeps pairs of a declaration and its column as they are (`Regular.listed_kept`), and so each key
that is left stands for the column for which it stood before (`Regular.projects`). -/

namespace BulkSync.PropertyStore

/-- What a projection makes of a store: it has the exposed properties in their order, and under their keys the columns
that were there. -/
structure Projects (s values : PropertyStore) : Prop where
  nodes_eq : values.nodes = s.nodes
  schema_eq : values.schema = ⟨s.schema.exposed⟩
  column : ∀ p ∈ s.schema.exposed, ∃ c, s.column p.key = .ok c ∧ values.column p.key = .ok c ∧ c.kind = p.kind
  unknown : ∀ key, key ∉ s.schema.exposed.map (·.key) → values.column key = .error (.unknown key)
  internal : ∀ p ∈ s.schema.properties, p.visibility = .internal → values.column p.key = .error (.unknown p.key)

theorem mem_listed_iff {s : PropertyStore} {p : Property} {c : Column} :
    (p, c) ∈ s.listed ↔ ∃ index : Nat, s.schema.properties[index]? = some p ∧ s.columns[index]? = some c := by
  simp [listed, List.mem_iff_getElem?, List.getElem?_zip_eq_some]

namespace Regular

variable {schema : Schema} {nodes : Nat} {s : PropertyStore}

theorem of_listed (regular : Regular schema nodes s) {p : Property} {c : Column} (member : (p, c) ∈ s.listed) :
    Column.Regular nodes p.kind c := by
  obtain ⟨index, declared, there⟩ := mem_listed_iff.mp member
  rw [regular.schema_eq] at declared
  obtain ⟨inSchema, rfl⟩ := List.getElem?_eq_some_iff.mp declared
  obtain ⟨inColumns, rfl⟩ := Array.getElem?_eq_some_iff.mp there
  exact regular.column index inSchema inColumns

theorem exists_listed (regular : Regular schema nodes s) {p : Property} (declared : p ∈ schema.properties) :
    ∃ c, (p, c) ∈ s.listed := by
  rw [← regular.map_listed] at declared
  obtain ⟨⟨_, c⟩, member, rfl⟩ := List.mem_map.mp declared
  exact ⟨c, member⟩

theorem declared_of_listed (regular : Regular schema nodes s) {p : Property} {c : Column}
    (member : (p, c) ∈ s.listed) : p ∈ schema.properties := by
  rw [← regular.map_listed]
  exact List.mem_map_of_mem (f := (·.1)) member

/-! ## Under a key -/

/-- Under a key stands the column of one of its declarations, if it has any. -/
theorem column_listed (regular : Regular schema nodes s) (key : String) :
    (key ∉ schema.keys ∧ s.column key = .error (.unknown key)) ∨
    ∃ p c, (p, c) ∈ s.listed ∧ p.key = key ∧ s.column key = .ok c := by
  rcases regular.column_last key with ⟨undeclared, column⟩ | ⟨p, index, c, -, place, there, column, -⟩
  · refine .inl ⟨fun declared => ?_, column⟩
    obtain ⟨p, member, same⟩ := List.mem_map.mp declared
    exact Schema.last?_eq_none_iff.mp undeclared p member same
  · obtain ⟨q, -, -, declared, last⟩ := Schema.place_eq_ok place
    have inSchema : s.schema.properties[index]? = some q := by rw [regular.schema_eq, declared]
    exact .inr ⟨q, c, mem_listed_iff.mpr ⟨index, inSchema, there⟩, Schema.key_of_lastPlace last declared, column⟩

theorem column_unknown (regular : Regular schema nodes s) {key : String} (undeclared : key ∉ schema.keys) :
    s.column key = .error (.unknown key) := by
  rcases regular.column_listed key with ⟨-, column⟩ | ⟨p, c, member, rfl, -⟩
  · exact column
  · exact absurd (List.mem_map_of_mem (regular.declared_of_listed member)) undeclared

/-- Where no key is declared twice, under a key stands the column of its declaration. -/
theorem column_of_listed (regular : Regular schema nodes s) (distinct : schema.keys.Nodup) {p : Property}
    {c : Column} (member : (p, c) ∈ s.listed) : s.column p.key = .ok c := by
  have keys : (s.listed.map (·.1.key)).Nodup := by
    rw [Schema.keys, ← regular.map_listed, List.map_map] at distinct
    exact distinct
  rcases regular.column_listed p.key with ⟨undeclared, -⟩ | ⟨q, d, memberToo, same, column⟩
  · exact absurd (List.mem_map_of_mem (regular.declared_of_listed member)) undeclared
  · -- no other declaration has this key
    cases List.inj_on_of_nodup_map keys memberToo member same
    exact column

/-! ## What is kept -/

theorem exposed_eq_kept (regular : Regular schema nodes s) (distinct : schema.keys.Nodup) :
    s.exposed = .ok ⟨nodes, ⟨schema.exposed⟩, (s.kept.map (·.2)).toArray⟩ := by
  have again := regular.declared_again
  have distinctToo := Schema.nodup_exposed distinct
  have none : Schema.empty.keys.Nodup := List.nodup_nil
  have made : Schema.empty.addAll schema.exposed = .ok ⟨schema.exposed⟩ :=
    (Schema.addAll_eq_ok_iff none).mpr ⟨rfl, distinctToo⟩
  rw [kept, listed] at again ⊢
  rw [exposed_of_kept, again, Schema.ofList, made, regular.nodes_eq]
  rfl

variable {values : PropertyStore}

/-- No declaration is paired with the column of another one. -/
theorem listed_kept (regular : Regular schema nodes s) :
    listed ⟨nodes, ⟨schema.exposed⟩, (s.kept.map (·.2)).toArray⟩ = s.kept := by
  rw [listed, ← regular.map_kept]
  exact (List.zip_of_prod rfl rfl).symm

theorem regular_kept (regular : Regular schema nodes s) :
    Regular ⟨schema.exposed⟩ nodes ⟨nodes, ⟨schema.exposed⟩, (s.kept.map (·.2)).toArray⟩ where
  nodes_eq := rfl
  schema_eq := rfl
  size_eq := by simp [← regular.map_kept]
  column index declared there := by
    have inside : index < s.kept.length := by simpa using there
    have member : s.kept[index] ∈ s.listed := (List.mem_filter.mp (List.getElem_mem inside)).1
    simpa [← regular.map_kept] using regular.of_listed member

theorem projects (regular : Regular schema nodes s) (distinct : schema.keys.Nodup)
    (ran : s.exposed = .ok values) : s.Projects values := by
  cases (regular.exposed_eq_kept distinct).symm.trans ran
  obtain rfl := regular.schema_eq
  have regularToo := regular.regular_kept
  have distinctToo := Schema.nodup_exposed distinct
  refine ⟨regular.nodes_eq.symm, rfl, fun p member => ?_, fun key undeclared => ?_, fun p declared internal => ?_⟩
  · obtain ⟨c, memberToo⟩ := regularToo.exists_listed member
    have before : (p, c) ∈ s.listed := by
      rw [regular.listed_kept] at memberToo
      exact (List.mem_filter.mp memberToo).1
    exact ⟨c, regular.column_of_listed distinct before, regularToo.column_of_listed distinctToo memberToo,
      (regular.of_listed before).kind_eq⟩
  · exact regularToo.column_unknown undeclared
  · -- what is left under the key would be this declaration, which was not kept
    apply regularToo.column_unknown
    intro member
    obtain ⟨q, memberToo, same⟩ := List.mem_map.mp member
    obtain ⟨there, exposed⟩ := List.mem_filter.mp memberToo
    cases List.inj_on_of_nodup_map distinct there declared same
    rw [internal] at exposed
    cases exposed

end Regular
end BulkSync.PropertyStore
