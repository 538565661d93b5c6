import BulkSync.Property.Store
import BulkSync.Proofs.Fault
import BulkSync.Proofs.Paged.Regular

/-! # Words of property stores

The numbers of a store lie in a table of words, a row per node and a column per declaration. What is
read under a key is a word of the table, at a place that the schema alone decides (`Schema.place`), and
what is written replaces that one word. A store of a run is known by its schema and its words
(`Regular.ext`). -/

namespace BulkSync

namespace Column

/-- The word of a node. -/
def word : Column → Nat → UInt64
  | .long cells, node => cells.peekWord node
  | .double cells, node => cells.peekWord node

/-- The column with another word for a node. -/
def putWord (node : Nat) (word : UInt64) : Column → Column
  | .long cells => .long (cells.pokeWord node word)
  | .double cells => .double (cells.pokeWord node word)

/-- A column of numbers of a kind, one per node. -/
inductive Regular (nodes : Nat) : PropertyKind → Column → Prop
  | long {cells : Cells Int64} (regular : cells.Regular nodes) : Regular nodes .long (.long cells)
  | double {cells : Cells Binary64} (regular : cells.Regular nodes) : Regular nodes .double (.double cells)

theorem regular_new (kind : PropertyKind) (nodes : Nat) : Regular nodes kind (new kind nodes) := by
  cases kind
  · exact .long (Cells.regular_new nodes)
  · exact .double (Cells.regular_new nodes)

namespace Regular

variable {nodes : Nat} {kind : PropertyKind} {c d : Column}

theorem putWord (regular : Regular nodes kind c) {node : Nat} (inside : node < nodes) (word : UInt64) :
    Regular nodes kind (c.putWord node word) := by
  cases regular with
  | long cells => exact .long (cells.pokeWord inside word)
  | double cells => exact .double (cells.pokeWord inside word)

theorem word_putWord (regular : Regular nodes kind c) {node : Nat} (inside : node < nodes)
    (word : UInt64) (other : Nat) :
    (c.putWord node word).word other = if other = node then word else c.word other := by
  split
  · next here =>
    subst here
    cases regular with
    | long cells => exact cells.peekWord_pokeWord inside word
    | double cells => exact cells.peekWord_pokeWord inside word
  · next elsewhere =>
    cases c <;> exact Cells.peekWord_pokeWord_ne _ word (Ne.symm elsewhere)

theorem ext (regular : Regular nodes kind c) (regularToo : Regular nodes kind d)
    (same : ∀ node < nodes, c.word node = d.word node) : c = d := by
  cases regular with
  | long cells => cases regularToo with | long others => rw [cells.ext others same]
  | double cells => cases regularToo with | double others => rw [cells.ext others same]

end Regular
end Column

/-- The place of the column for a key, if it has numbers of a kind. -/
def Schema.place (s : Schema) (kind : PropertyKind) (key : String) : Except PropertyError Nat :=
  match PropertyStore.lastPlace key 0 s.properties with
  | none => .error (.unknown key)
  | some index =>
      match s.properties[index]? with
      | none => .error (.unknown key)
      | some p => if p.kind = kind then .ok index else .error (.mismatch key kind p.kind)

namespace PropertyStore

theorem lastPlace_lt {key : String} {start index : Nat} {properties : List Property}
    (found : lastPlace key start properties = some index) :
    start ≤ index ∧ index < start + properties.length := by
  induction properties generalizing start with
  | nil => cases found
  | cons p properties inductionHypothesis =>
    rw [lastPlace, Option.or_eq_some_iff] at found
    rcases found with later | ⟨-, here⟩
    · have bounds := inductionHypothesis later
      simp only [List.length_cons]
      omega
    · split at here
      · cases here
        simp
      · cases here

/-- The word of a node in a column. -/
def word (s : PropertyStore) (index node : Nat) : UInt64 :=
  match s.columns[index]? with
  | some column => column.word node
  | none => 0

/-- The store with another word for a node in a column. -/
def putWord (s : PropertyStore) (index node : Nat) (word : UInt64) : PropertyStore :=
  { s with columns := s.columns.modify index (Column.putWord node word) }

/-- A store of a schema: a column of the right kind for each of its declarations. -/
structure Regular (schema : Schema) (nodes : Nat) (s : PropertyStore) : Prop where
  nodes_eq : s.nodes = nodes
  schema_eq : s.schema = schema
  size_eq : s.columns.size = schema.properties.length
  column : ∀ index (declared : index < schema.properties.length) (there : index < s.columns.size),
    Column.Regular nodes schema.properties[index].kind s.columns[index]

theorem regular_new (schema : Schema) (nodes : Nat) : Regular schema nodes (new schema nodes) where
  nodes_eq := rfl
  schema_eq := rfl
  size_eq := by simp [new]
  column index declared there := by
    simp only [new, List.getElem_toArray, List.getElem_map]
    exact Column.regular_new _ nodes

namespace Regular

variable {schema : Schema} {nodes : Nat} {s t : PropertyStore}

theorem putWord (regular : Regular schema nodes s) (index : Nat) {node : Nat} (inside : node < nodes)
    (word : UInt64) : Regular schema nodes (s.putWord index node word) where
  nodes_eq := regular.nodes_eq
  schema_eq := regular.schema_eq
  size_eq := by simpa [PropertyStore.putWord] using regular.size_eq
  column other declared there := by
    have before : other < s.columns.size := by simpa [PropertyStore.putWord] using there
    simp only [PropertyStore.putWord, Array.getElem_modify]
    split
    · exact (regular.column other declared before).putWord inside word
    · exact regular.column other declared before

theorem word_putWord (regular : Regular schema nodes s) {index node : Nat}
    (declared : index < schema.properties.length) (inside : node < nodes) (word : UInt64)
    (column row : Nat) : (s.putWord index node word).word column row =
      if row = node then (if column = index then word else s.word column row) else s.word column row := by
  have there : index < s.columns.size := by rw [regular.size_eq]; exact declared
  simp only [PropertyStore.word, PropertyStore.putWord, Array.getElem?_modify]
  by_cases here : column = index
  · subst here
    simp only [if_true, Array.getElem?_eq_getElem there, Option.map_some]
    exact (regular.column column declared there).word_putWord inside word row
  · simp [here, Ne.symm here]

theorem ext (regular : Regular schema nodes s) (regularToo : Regular schema nodes t)
    (same : ∀ index, ∀ node < nodes, s.word index node = t.word index node) : s = t := by
  have columns : s.columns = t.columns := by
    apply Array.ext (regular.size_eq.trans regularToo.size_eq.symm)
    intro index there thereToo
    have declared : index < schema.properties.length := by rw [← regular.size_eq]; exact there
    apply (regular.column index declared there).ext (regularToo.column index declared thereToo)
    intro node inside
    simpa [PropertyStore.word, there, thereToo] using same index node inside
  have counts := regular.nodes_eq.trans regularToo.nodes_eq.symm
  have schemas := regular.schema_eq.trans regularToo.schema_eq.symm
  cases s
  cases t
  simp_all

/-! ## Keys -/

/-- What stands under a key that is asked for numbers of a kind: the column at the place that the schema
says, no column at all, or one of another kind. -/
theorem column_cases (regular : Regular schema nodes s) (kind : PropertyKind) (key : String) :
    (∃ index c, schema.place kind key = .ok index ∧ s.columns[index]? = some c ∧
      Column.Regular nodes kind c ∧ s.column key = .ok c ∧ ∀ column,
        s.setColumn key column = { s with columns := s.columns.setIfInBounds index column }) ∨
    (schema.place kind key = .error (.unknown key) ∧ s.column key = .error (.unknown key)) ∨
    ∃ other c, other ≠ kind ∧ schema.place kind key = .error (.mismatch key kind other) ∧
      Column.Regular nodes other c ∧ s.column key = .ok c := by
  cases found : lastPlace key 0 schema.properties with
  | none =>
    refine .inr (.inl ⟨by simp [Schema.place, found], ?_⟩)
    simp [PropertyStore.column, PropertyStore.place, regular.schema_eq, found, bind, Except.bind]
  | some index =>
    have declared : index < schema.properties.length := by simpa using (lastPlace_lt found).2
    have there : index < s.columns.size := by rw [regular.size_eq]; exact declared
    have column : s.column key = .ok s.columns[index] := by
      simp [PropertyStore.column, PropertyStore.place, regular.schema_eq, found, bind, Except.bind,
        there, pure, Except.pure]
    have itsKind := regular.column index declared there
    by_cases same : schema.properties[index].kind = kind
    · refine .inl ⟨index, s.columns[index], by simp [Schema.place, found, declared, same],
        Array.getElem?_eq_getElem there, same ▸ itsKind, column, fun other => ?_⟩
      simp [setColumn, regular.schema_eq, found]
    · exact .inr (.inr ⟨schema.properties[index].kind, s.columns[index], same,
        by simp [Schema.place, found, declared, same], itsKind, column⟩)

theorem longs_cases (regular : Regular schema nodes s) (key : String) :
    (∃ error, schema.place .long key = .error error ∧ s.longs key = .error error) ∨
      ∃ index cells, schema.place .long key = .ok index ∧ s.columns[index]? = some (.long cells) ∧
        Cells.Regular nodes cells ∧ s.longs key = .ok cells ∧ ∀ column,
          s.setColumn key column = { s with columns := s.columns.setIfInBounds index column } := by
  rcases regular.column_cases .long key with
    ⟨index, c, place, there, kind, column, set⟩ | ⟨place, column⟩ |
      ⟨other, c, different, place, kind, column⟩
  · cases kind with
    | long cells => exact .inr ⟨index, _, place, there, cells, by rw [longs, column]; rfl, set⟩
  · exact .inl ⟨_, place, by rw [longs, column]; rfl⟩
  · cases kind with
    | long cells => exact absurd rfl different
    | double cells => exact .inl ⟨_, place, by rw [longs, column]; rfl⟩

theorem doubles_cases (regular : Regular schema nodes s) (key : String) :
    (∃ error, schema.place .double key = .error error ∧ s.doubles key = .error error) ∨
      ∃ index cells, schema.place .double key = .ok index ∧
        s.columns[index]? = some (.double cells) ∧ Cells.Regular nodes cells ∧
        s.doubles key = .ok cells ∧ ∀ column,
          s.setColumn key column = { s with columns := s.columns.setIfInBounds index column } := by
  rcases regular.column_cases .double key with
    ⟨index, c, place, there, kind, column, set⟩ | ⟨place, column⟩ |
      ⟨other, c, different, place, kind, column⟩
  · cases kind with
    | double cells => exact .inr ⟨index, _, place, there, cells, by rw [doubles, column]; rfl, set⟩
  · exact .inl ⟨_, place, by rw [doubles, column]; rfl⟩
  · cases kind with
    | double cells => exact absurd rfl different
    | long cells => exact .inl ⟨_, place, by rw [doubles, column]; rfl⟩

/-- What is declared again for the result are the exposed properties, each with the column it has. -/
theorem exposed_of_kept (s : PropertyStore) : s.exposed =
    Schema.ofList (((s.schema.properties.zip s.columns.toList).filter (·.1.visibility == .exposed)).map
      fun kept => { kept.1 with visibility := .exposed }) >>= fun schema =>
        pure ⟨s.nodes, schema, (((s.schema.properties.zip s.columns.toList).filter
          (·.1.visibility == .exposed)).map (·.2)).toArray⟩ := rfl

/-- If every property is part of the result and no key is declared twice, the result is the whole store. -/
theorem exposed_eq (regular : Regular schema nodes s) (declares : Schema.ofList schema.properties = .ok schema)
    (all : ∀ p ∈ schema.properties, p.visibility = .exposed) : s.exposed = .ok s := by
  have sized : s.columns.toList.length = schema.properties.length := by
    simpa using regular.size_eq
  have kept : (schema.properties.zip s.columns.toList).filter (·.1.visibility == .exposed) =
      schema.properties.zip s.columns.toList := by
    rw [List.filter_eq_self]
    rintro ⟨p, column⟩ member
    simp [all p (List.of_mem_zip member).1]
  have same : (schema.properties.zip s.columns.toList).map (fun kept =>
      { kept.1 with visibility := Visibility.exposed }) = schema.properties := by
    refine (List.map_congr_left ?_).trans (List.map_fst_zip (Nat.le_of_eq sized.symm))
    rintro ⟨p, column⟩ member
    rw [← all p (List.of_mem_zip member).1]
  rw [exposed_of_kept, regular.schema_eq, kept, same, declares]
  change Except.ok _ = _
  rw [List.map_snd_zip (Nat.le_of_eq sized)]
  obtain ⟨nodes, schema, columns⟩ := s
  cases regular.schema_eq
  rfl

/-! ## Numbers under keys -/

variable {node : Nat}

theorem readLong (regular : Regular schema nodes s) (key : String) (inside : node < nodes) :
    s.readLong key node = ((schema.place .long key).mapError .property).map fun index =>
      Element.ofWord (s.word index node) := by
  rcases regular.longs_cases key with
    ⟨error, place, none⟩ | ⟨index, cells, place, there, cellsRegular, some, _⟩
  · rw [PropertyStore.readLong, place, none]
    rfl
  · have word : s.word index node = cells.peekWord node := by
      rw [PropertyStore.word, there]
      rfl
    rw [PropertyStore.readLong, place, some]
    change (cells.read node).mapError Fault.access = _
    rw [cellsRegular.read inside]
    simp only [mapError_ok, Except.map, word]
    rfl

theorem readDouble (regular : Regular schema nodes s) (key : String) (inside : node < nodes) :
    s.readDouble key node = ((schema.place .double key).mapError .property).map fun index =>
      Element.ofWord (s.word index node) := by
  rcases regular.doubles_cases key with
    ⟨error, place, none⟩ | ⟨index, cells, place, there, cellsRegular, some, _⟩
  · rw [PropertyStore.readDouble, place, none]
    rfl
  · have word : s.word index node = cells.peekWord node := by
      rw [PropertyStore.word, there]
      rfl
    rw [PropertyStore.readDouble, place, some]
    change (cells.read node).mapError Fault.access = _
    rw [cellsRegular.read inside]
    simp only [mapError_ok, Except.map, word]
    rfl

theorem putWord_eq {index : Nat} {column : Column} (there : s.columns[index]? = some column)
    (word : UInt64) : s.putWord index node word =
      { s with columns := s.columns.setIfInBounds index (column.putWord node word) } := by
  obtain ⟨inside, rfl⟩ := Array.getElem?_eq_some_iff.mp there
  have columns : s.columns.modify index (Column.putWord node word) =
      s.columns.setIfInBounds index (s.columns[index].putWord node word) := by
    apply Array.ext
    · simp
    · intro other here _
      rw [Array.getElem_modify, Array.getElem_setIfInBounds (by simpa using here)]
      split
      · next same =>
        subst same
        rfl
      · rfl
  rw [PropertyStore.putWord, columns]

theorem writeLong (regular : Regular schema nodes s) (key : String) (inside : node < nodes)
    (value : Int64) :
    s.writeLong key node value = ((schema.place .long key).mapError .property).map fun index =>
      s.putWord index node (Element.toWord value) := by
  rcases regular.longs_cases key with ⟨error, place, none⟩ |
    ⟨index, cells, place, there, cellsRegular, some, set⟩
  · rw [PropertyStore.writeLong, place, none]
    rfl
  · rw [PropertyStore.writeLong, place, some]
    change ((cells.write node value).mapError Fault.access >>= fun cells => _) = _
    rw [cellsRegular.write inside]
    simp only [mapError_ok, Except.map, putWord_eq there]
    exact congrArg Except.ok (set _)

theorem writeDouble (regular : Regular schema nodes s) (key : String) (inside : node < nodes)
    (value : Binary64) :
    s.writeDouble key node value = ((schema.place .double key).mapError .property).map fun index =>
      s.putWord index node (Element.toWord value) := by
  rcases regular.doubles_cases key with ⟨error, place, none⟩ |
    ⟨index, cells, place, there, cellsRegular, some, set⟩
  · rw [PropertyStore.writeDouble, place, none]
    rfl
  · rw [PropertyStore.writeDouble, place, some]
    change ((cells.write node value).mapError Fault.access >>= fun cells => _) = _
    rw [cellsRegular.write inside]
    simp only [mapError_ok, Except.map, putWord_eq there]
    exact congrArg Except.ok (set _)

/-- A number that is set is one of a node: there are no others. -/
theorem writeLong_regular (regular : Regular schema nodes s) {key : String} {value : Int64}
    (wrote : s.writeLong key node value = .ok t) : Regular schema nodes t := by
  rcases Nat.lt_or_ge node nodes with inside | behind
  · rw [regular.writeLong key inside value] at wrote
    cases place : schema.place .long key with
    | error error => simp [place, mapError_error, Except.map] at wrote
    | ok index =>
      simp only [place, mapError_ok, Except.map, Except.ok.injEq] at wrote
      exact wrote ▸ regular.putWord index inside _
  · rw [PropertyStore.writeLong] at wrote
    obtain ⟨cells, found, written⟩ := bind_eq_ok_iff.mp wrote
    rcases regular.longs_cases key with ⟨error, _, none⟩ | ⟨_, own, _, _, ownRegular, some, _⟩
    · rw [none] at found
      cases found
    · rw [some] at found
      cases found
      rw [ownRegular.write_behind behind] at written
      cases written

theorem writeDouble_regular (regular : Regular schema nodes s) {key : String} {value : Binary64}
    (wrote : s.writeDouble key node value = .ok t) : Regular schema nodes t := by
  rcases Nat.lt_or_ge node nodes with inside | behind
  · rw [regular.writeDouble key inside value] at wrote
    cases place : schema.place .double key with
    | error error => simp [place, mapError_error, Except.map] at wrote
    | ok index =>
      simp only [place, mapError_ok, Except.map, Except.ok.injEq] at wrote
      exact wrote ▸ regular.putWord index inside _
  · rw [PropertyStore.writeDouble] at wrote
    obtain ⟨cells, found, written⟩ := bind_eq_ok_iff.mp wrote
    rcases regular.doubles_cases key with ⟨error, _, none⟩ | ⟨_, own, _, _, ownRegular, some, _⟩
    · rw [none] at found
      cases found
    · rw [some] at found
      cases found
      rw [ownRegular.write_behind behind] at written
      cases written

end Regular
end PropertyStore

theorem Schema.place_lt {s : Schema} {kind : PropertyKind} {key : String} {index : Nat}
    (found : s.place kind key = .ok index) : index < s.properties.length := by
  rw [place] at found
  split at found
  · cases found
  · next place located =>
    split at found
    · cases found
    · split at found
      · cases found
        simpa using (PropertyStore.lastPlace_lt located).2
      · cases found

end BulkSync
