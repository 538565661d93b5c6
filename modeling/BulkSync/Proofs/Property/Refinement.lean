import BulkSync.Proofs.Lockstep
import BulkSync.Proofs.Property.Keys

/-! # Property stores refine typed maps

Whatever is asked of a store, it replies what a map from keys and nodes to numbers replies
(`refines_numbers`). The schema alone decides which requests are refused (`Refused`); the map holds zeros at
the start, and a write changes it for one key and one node. The columns list the numbers of the map, each
under the last declaration of its key, and zeros under the other ones. -/

namespace BulkSync

/-! ## Numbers of either kind -/

namespace Value

/-- The kind of a number. -/
def kind : Value → PropertyKind
  | .long _ => .long
  | .double _ => .double

/-- Zero as a number of a kind. -/
def zero : PropertyKind → Value
  | .long => .long 0
  | .double => .double (Binary.ofParts false 0)

/-- The word that a number is kept as. -/
def word : Value → UInt64
  | .long i => Element.toWord i
  | .double x => Element.toWord x

/-- The number of a kind that is kept as a word. -/
def ofWord : PropertyKind → UInt64 → Value
  | .long, word => .long (Element.ofWord word)
  | .double, word => .double (Element.ofWord word)

theorem ofWord_word (v : Value) : ofWord v.kind v.word = v := by
  cases v <;> simp [ofWord, kind, word, Element.ofWord_toWord]

theorem ofWord_zero (kind : PropertyKind) : ofWord kind 0 = zero kind := by
  cases kind <;> rfl

@[simp] theorem word_zero (kind : PropertyKind) : (zero kind).word = 0 := by
  cases kind <;> rfl

@[simp] theorem kind_zero (kind : PropertyKind) : (zero kind).kind = kind := by
  cases kind <;> rfl

end Value

/-- The numbers of a column. -/
def Column.numbers : Column → List Value
  | .long cells => cells.toList.map .long
  | .double cells => cells.toList.map .double

namespace PropertyStore

/-- The number of a node, asked for as one of a kind. -/
def readNumber (s : PropertyStore) (kind : PropertyKind) (key : String) (node : Nat) :
    Except Fault Value :=
  match kind with
  | .long => (s.readLong key node).map .long
  | .double => (s.readDouble key node).map .double

/-- Sets the number of a node. -/
def writeNumber (s : PropertyStore) (key : String) (node : Nat) : Value → Except Fault PropertyStore
  | .long i => s.writeLong key node i
  | .double x => s.writeDouble key node x

/-- The numbers of all nodes, asked for as numbers of a kind. -/
def numbers (s : PropertyStore) (kind : PropertyKind) (key : String) : Except PropertyError (List Value) :=
  match kind with
  | .long => (s.longs key).map fun cells => (Column.long cells).numbers
  | .double => (s.doubles key).map fun cells => (Column.double cells).numbers

end PropertyStore

/-! ## Columns -/

theorem Column.Regular.numbers_eq {nodes : Nat} {kind : PropertyKind} {c : Column}
    (regular : Column.Regular nodes kind c) :
    c.numbers = (List.range nodes).map fun node => Value.ofWord kind (c.word node) := by
  cases regular with
  | long cells =>
    rw [Column.numbers, Cells.toList, cells.size_eq, List.map_map]
    rfl
  | double cells =>
    rw [Column.numbers, Cells.toList, cells.size_eq, List.map_map]
    rfl

theorem Cells.Regular.read_eq {α : Type} [Element α] {size : Nat} {a : Cells α} (regular : Cells.Regular size a)
    (index : Nat) : a.read index =
      if index < size then .ok (Element.ofWord (a.peekWord index)) else .error (.outOfBounds index size) := by
  split
  · next inside => exact regular.read inside
  · next behind => exact regular.read_behind (Nat.le_of_not_lt behind)

theorem Cells.Regular.write_eq {α : Type} [Element α] {size : Nat} {a : Cells α} (regular : Cells.Regular size a)
    (index : Nat) (value : α) : a.write index value =
      if index < size then .ok (a.pokeWord index (Element.toWord value))
      else .error (.outOfBounds index size) := by
  split
  · next inside => exact regular.write inside value
  · next behind => exact regular.write_behind (Nat.le_of_not_lt behind) value

theorem Cells.Regular.addAt_eq {α : Type} [Element α] {size : Nat} {a : Cells α}
    (regular : Cells.Regular size a) (index : Nat) (delta : α) : (addAt index delta).outcome a =
      if index < size then
        match Element.add? (Element.ofWord (a.peekWord index)) delta with
        | .ok sum => (.ok ⟨Element.ofWord (a.peekWord index), sum, 1⟩, a.pokeWord index (Element.toWord sum))
        | .error fault => (.error fault, a)
      else (.error (.access (.outOfBounds index size)), a) := by
  rw [addAt, transformAmid, Attempt.outcome_of, regular.check]
  by_cases inside : index < size
  · simp only [inside, if_true, transformFrom, peek]
    cases Element.add? (Element.ofWord (a.peekWord index)) delta <;> rfl
  · simp only [inside, if_false]

/-- The place of the column that has the number of a node. -/
def Schema.slot (s : Schema) (nodes : Nat) (kind : PropertyKind) (key : String) (node : Nat) :
    Except Fault Nat :=
  ((s.place kind key).mapError .property).bind fun index =>
    if node < nodes then .ok index else .error (.access (.outOfBounds node nodes))

theorem Schema.slot_eq_ok {s : Schema} {nodes : Nat} {kind : PropertyKind} {key : String} {node index : Nat}
    (found : s.slot nodes kind key node = .ok index) : s.place kind key = .ok index ∧ node < nodes := by
  rw [slot] at found
  cases place : s.place kind key with
  | error error =>
    rw [place] at found
    cases found
  | ok first =>
    rw [place] at found
    change (if node < nodes then _ else _) = Except.ok index at found
    split at found
    · next inside =>
      cases found
      exact ⟨rfl, inside⟩
    · cases found

namespace PropertyStore

variable {schema : Schema} {nodes : Nat} {s : PropertyStore}

theorem word_of_column {index : Nat} {c : Column} (there : s.columns[index]? = some c) (node : Nat) :
    s.word index node = c.word node := by
  rw [word, there]

/-! ## What the operations do

They ask the schema for a place. Behind the nodes there is no number at that place. -/

theorem Regular.readNumber_eq (regular : Regular schema nodes s) (kind : PropertyKind) (key : String)
    (node : Nat) : s.readNumber kind key node =
      (schema.slot nodes kind key node).map fun index => .ofWord kind (s.word index node) := by
  rw [Schema.slot]
  cases kind with
  | long =>
    rw [readNumber, PropertyStore.readLong]
    rcases regular.longs_cases key with ⟨error, place, refused⟩ |
      ⟨index, cells, place, there, cellsRegular, found, -⟩
    · rw [place, refused]
      rfl
    · rw [place, found]
      change ((cells.read node).mapError Fault.access).map Value.long = Except.map _ (if node < nodes then _ else _)
      rw [cellsRegular.read_eq]
      split
      · simp only [Except.map, word_of_column there]
        rfl
      · rfl
  | double =>
    rw [readNumber, PropertyStore.readDouble]
    rcases regular.doubles_cases key with ⟨error, place, refused⟩ |
      ⟨index, cells, place, there, cellsRegular, found, -⟩
    · rw [place, refused]
      rfl
    · rw [place, found]
      change ((cells.read node).mapError Fault.access).map Value.double = Except.map _ (if node < nodes then _ else _)
      rw [cellsRegular.read_eq]
      split
      · simp only [Except.map, word_of_column there]
        rfl
      · rfl

theorem Regular.writeNumber_eq (regular : Regular schema nodes s) (key : String) (node : Nat)
    (value : Value) : s.writeNumber key node value =
      (schema.slot nodes value.kind key node).map fun index => s.putWord index node value.word := by
  rw [Schema.slot]
  cases value with
  | long i =>
    rw [writeNumber, PropertyStore.writeLong, Value.kind]
    rcases regular.longs_cases key with ⟨error, place, refused⟩ |
      ⟨index, cells, place, there, cellsRegular, found, set⟩
    · rw [place, refused]
      rfl
    · rw [place, found]
      change ((cells.write node i).mapError Fault.access).map (fun cells => s.setColumn key (.long cells)) =
        Except.map _ (if node < nodes then _ else _)
      rw [cellsRegular.write_eq]
      split
      · simp only [Except.map, putWord_eq there, ← set]
        rfl
      · rfl
  | double x =>
    rw [writeNumber, PropertyStore.writeDouble, Value.kind]
    rcases regular.doubles_cases key with ⟨error, place, refused⟩ |
      ⟨index, cells, place, there, cellsRegular, found, set⟩
    · rw [place, refused]
      rfl
    · rw [place, found]
      change ((cells.write node x).mapError Fault.access).map (fun cells => s.setColumn key (.double cells)) =
        Except.map _ (if node < nodes then _ else _)
      rw [cellsRegular.write_eq]
      split
      · simp only [Except.map, putWord_eq there, ← set]
        rfl
      · rfl

theorem Regular.addLong_eq (regular : Regular schema nodes s) (key : String) (node : Nat) (delta : Int64) :
    s.addLong key node delta = (schema.slot nodes .long key node).bind fun index =>
      (Element.add? (Element.ofWord (s.word index node)) delta).map fun sum =>
        (Element.ofWord (s.word index node), s.putWord index node (Value.long sum).word) := by
  rw [Schema.slot, PropertyStore.addLong]
  rcases regular.longs_cases key with ⟨error, place, refused⟩ |
    ⟨index, cells, place, there, cellsRegular, found, set⟩
  · rw [place, refused]
    rfl
  · rw [place, found]
    change ((Cells.addAt node delta).outcome cells).1.map (fun result =>
      (result.before, s.setColumn key (.long ((Cells.addAt node delta).outcome cells).2))) =
        Except.bind (if node < nodes then _ else _) _
    rw [cellsRegular.addAt_eq]
    split
    · simp only [Except.bind, word_of_column there, putWord_eq there, ← set, Column.word]
      cases Element.add? (Element.ofWord (cells.peekWord node)) delta <;> rfl
    · rfl

theorem Regular.numbers_eq (regular : Regular schema nodes s) (kind : PropertyKind) (key : String) :
    s.numbers kind key = (schema.place kind key).map fun index =>
      (List.range nodes).map fun node => Value.ofWord kind (s.word index node) := by
  cases kind with
  | long =>
    rw [numbers]
    rcases regular.longs_cases key with ⟨error, place, refused⟩ |
      ⟨index, cells, place, there, cellsRegular, found, -⟩
    · rw [place, refused]
      rfl
    · simp only [place, found, Except.map, word_of_column there, (Column.Regular.long cellsRegular).numbers_eq]
  | double =>
    rw [numbers]
    rcases regular.doubles_cases key with ⟨error, place, refused⟩ |
      ⟨index, cells, place, there, cellsRegular, found, -⟩
    · rw [place, refused]
      rfl
    · simp only [place, found, Except.map, word_of_column there, (Column.Regular.double cellsRegular).numbers_eq]

end PropertyStore

/-! ## Typed maps -/

/-- Why a number of a kind cannot be had: its key is not declared, or declared last with the other kind,
or its node is none. -/
inductive Refused (schema : Schema) (nodes : Nat) (kind : PropertyKind) (key : String) (node : Nat) :
    Fault → Prop
  | unknown (undeclared : schema.last? key = none) :
      Refused schema nodes kind key node (.property (.unknown key))
  | mismatch {p : Property} (declared : schema.last? key = some p) (other : p.kind ≠ kind) :
      Refused schema nodes kind key node (.property (.mismatch key kind p.kind))
  | outOfBounds {p : Property} (declared : schema.last? key = some p) (same : p.kind = kind)
      (behind : nodes ≤ node) : Refused schema nodes kind key node (.access (.outOfBounds node nodes))

namespace Schema

/-- Refuses a key that is not declared, or declared last with another kind. -/
def ensure (s : Schema) (kind : PropertyKind) (key : String) : Except PropertyError Unit :=
  match s.last? key with
  | none => .error (.unknown key)
  | some p => if p.kind = kind then .ok () else .error (.mismatch key kind p.kind)

/-- Refuses also a node behind the last one. -/
def access (s : Schema) (nodes : Nat) (kind : PropertyKind) (key : String) (node : Nat) :
    Except Fault Unit :=
  match s.ensure kind key with
  | .error error => .error (.property error)
  | .ok () => if node < nodes then .ok () else .error (.access (.outOfBounds node nodes))

theorem ensure_eq (s : Schema) (kind : PropertyKind) (key : String) :
    s.ensure kind key = (s.place kind key).map fun _ => () := by
  rcases s.place_cases kind key with ⟨undeclared, place⟩ | ⟨p, declared, other, place⟩ |
    ⟨index, p, declared, same, -, -, place⟩
  · rw [ensure, undeclared, place]
    rfl
  · simp only [ensure, declared, other, place, if_false, Except.map]
  · simp only [ensure, declared, same, place, if_true, Except.map]

theorem access_eq (s : Schema) (nodes : Nat) (kind : PropertyKind) (key : String) (node : Nat) :
    s.access nodes kind key node = (s.slot nodes kind key node).map fun _ => () := by
  rw [access, ensure_eq, slot]
  cases s.place kind key with
  | error error => rfl
  | ok index =>
    change (if node < nodes then _ else _) = Except.map _ (if node < nodes then _ else _)
    split <;> rfl

theorem access_eq_error_iff {s : Schema} {nodes : Nat} {kind : PropertyKind} {key : String} {node : Nat}
    {fault : Fault} : s.access nodes kind key node = .error fault ↔ Refused s nodes kind key node fault := by
  constructor
  · intro refused
    rw [access, ensure] at refused
    cases declared : s.last? key with
    | none =>
      simp only [declared] at refused
      cases refused
      exact .unknown declared
    | some p =>
      by_cases same : p.kind = kind
      · by_cases inside : node < nodes
        · simp [declared, same, inside] at refused
        · simp only [declared, same, inside, if_true, if_false] at refused
          cases refused
          exact .outOfBounds declared same (Nat.le_of_not_lt inside)
      · simp only [declared, same, if_false] at refused
        cases refused
        exact .mismatch declared same
  · intro refused
    cases refused with
    | unknown undeclared => simp only [access, ensure, undeclared]
    | mismatch declared other => simp only [access, ensure, declared, other, if_false]
    | outOfBounds declared same behind =>
      simp only [access, ensure, declared, same, Nat.not_lt.mpr behind, if_true, if_false]

end Schema

/-- Numbers for keys and nodes. -/
abbrev Numbers : Type := String → Nat → Value

namespace Numbers

/-- Zeros of the kinds that the keys are declared with. -/
def zeros (schema : Schema) : Numbers := fun key _ =>
  match schema.last? key with
  | none => .long 0
  | some p => .zero p.kind

/-- The same numbers but for one key and node. -/
def set (m : Numbers) (key : String) (node : Nat) (value : Value) : Numbers :=
  Function.update m key (Function.update (m key) node value)

theorem set_apply (m : Numbers) (key : String) (node : Nat) (value : Value) (other : String) (row : Nat) :
    m.set key node value other row = if other = key ∧ row = node then value else m other row := by
  by_cases here : other = key
  · subst here
    simp [set, Function.update_apply]
  · simp [set, here]

end Numbers

/-! ## Requests -/

/-- What a store is asked for. -/
inductive PropertyRequest where
  | kindOf (key : String)
  | all (kind : PropertyKind) (key : String)
  | read (kind : PropertyKind) (key : String) (node : Nat)
  | write (key : String) (node : Nat) (value : Value)
  | add (key : String) (node : Nat) (delta : Int64)

/-- What it replies. -/
inductive PropertyReply where
  | done
  | kind (kind : PropertyKind)
  | all (values : List Value)
  | number (value : Value)

namespace PropertyRequest

/-- The request to a store. -/
def onStore : PropertyRequest → StateM PropertyStore (Except Fault PropertyReply)
  | .kindOf key => fun s => (((s.column key).mapError .property).map fun c => .kind c.kind, s)
  | .all kind key => fun s => (((s.numbers kind key).mapError .property).map .all, s)
  | .read kind key node => fun s => ((s.readNumber kind key node).map .number, s)
  | .write key node value => fun s =>
      match s.writeNumber key node value with
      | .ok t => (.ok .done, t)
      | .error fault => (.error fault, s)
  | .add key node delta => fun s =>
      match s.addLong key node delta with
      | .ok (before, t) => (.ok (.number (.long before)), t)
      | .error fault => (.error fault, s)

/-- The request to a map: what is not refused is read from it, or changes it for one key and node. -/
def onNumbers (schema : Schema) (nodes : Nat) :
    PropertyRequest → StateM Numbers (Except Fault PropertyReply)
  | .kindOf key => fun m =>
      match schema.last? key with
      | none => (.error (.property (.unknown key)), m)
      | some p => (.ok (.kind p.kind), m)
  | .all kind key => fun m =>
      match schema.ensure kind key with
      | .error error => (.error (.property error), m)
      | .ok () => (.ok (.all ((List.range nodes).map (m key))), m)
  | .read kind key node => fun m =>
      match schema.access nodes kind key node with
      | .error fault => (.error fault, m)
      | .ok () => (.ok (.number (m key node)), m)
  | .write key node value => fun m =>
      match schema.access nodes value.kind key node with
      | .error fault => (.error fault, m)
      | .ok () => (.ok .done, m.set key node value)
  | .add key node delta => fun m =>
      match schema.access nodes .long key node with
      | .error fault => (.error fault, m)
      | .ok () =>
          match Element.add? (m key node).toLong delta with
          | .error fault => (.error fault, m)
          | .ok sum => (.ok (.number (m key node)), m.set key node (.long sum))

end PropertyRequest

/-! ## One request -/

/-- The store has the numbers of the map under the last declaration of each key, and zeros in the columns
that no key stands for. -/
structure PropertyStore.Holds (schema : Schema) (nodes : Nat) (s : PropertyStore) (m : Numbers) : Prop where
  regular : Regular schema nodes s
  typed : ∀ key p, schema.last? key = some p → ∀ node, (m key node).kind = p.kind
  reached : ∀ key index, lastPlace key 0 schema.properties = some index → ∀ node < nodes,
    s.word index node = (m key node).word
  hidden : ∀ index, (∀ key, lastPlace key 0 schema.properties ≠ some index) → ∀ node < nodes,
    s.word index node = 0

namespace PropertyStore

theorem word_new (schema : Schema) {nodes node : Nat} (inside : node < nodes) (index : Nat) :
    (new schema nodes).word index node = 0 := by
  rw [word, new, List.getElem?_toArray, List.getElem?_map]
  cases schema.properties[index]? with
  | none => rfl
  | some p =>
    rw [Option.map_some]
    cases p.kind with
    | long => exact Cells.peekWord_new inside
    | double => exact Cells.peekWord_new inside

namespace Holds

variable {schema : Schema} {nodes : Nat} {s : PropertyStore} {m : Numbers}

theorem new (schema : Schema) (nodes : Nat) :
    Holds schema nodes (PropertyStore.new schema nodes) (.zeros schema) where
  regular := regular_new schema nodes
  typed key p declared node := by simp [Numbers.zeros, declared]
  reached key index found node inside := by
    rw [word_new schema inside, Numbers.zeros]
    split
    · rfl
    · exact (Value.word_zero _).symm
  hidden index _ node inside := word_new schema inside index

/-- A number is what the word at its place is kept for. -/
theorem number (holds : Holds schema nodes s m) {kind : PropertyKind} {key : String} {index node : Nat}
    (found : schema.place kind key = .ok index) (inside : node < nodes) :
    Value.ofWord kind (s.word index node) = m key node := by
  obtain ⟨p, declared, same, -, last⟩ := Schema.place_eq_ok found
  rw [holds.reached key index last node inside, ← same, ← holds.typed key p declared node]
  exact Value.ofWord_word _

/-- A word at the place of a key is a number under that key and under no other one. -/
theorem set (holds : Holds schema nodes s m) {key : String} {index node : Nat} {value : Value}
    (found : schema.place value.kind key = .ok index) (inside : node < nodes) :
    Holds schema nodes (s.putWord index node value.word) (m.set key node value) := by
  obtain ⟨p, declared, same, there, last⟩ := Schema.place_eq_ok found
  have inSchema : index < schema.properties.length := (List.getElem?_eq_some_iff.mp there).1
  have words := holds.regular.word_putWord inSchema inside value.word
  -- one word is replaced, and one number: the place is that of this key and of no other
  refine ⟨holds.regular.putWord index inside value.word, ?_, ?_, ?_⟩
  · intro other q declaredToo row
    rw [Numbers.set_apply]
    split
    · next here =>
      obtain ⟨rfl, -⟩ := here
      cases declared.symm.trans declaredToo
      exact same.symm
    · exact holds.typed other q declaredToo row
  · intro other column lastToo row insideToo
    have before := holds.reached other column lastToo row insideToo
    rw [words, Numbers.set_apply]
    by_cases sameKey : other = key
    · subst sameKey
      cases last.symm.trans lastToo
      by_cases sameNode : row = node <;> simp [sameNode, before]
    · have elsewhere : column ≠ index := by
        rintro rfl
        exact sameKey (Schema.eq_of_lastPlace lastToo last)
      simp [sameKey, elsewhere, before]
  · intro column unreached row insideToo
    have elsewhere : column ≠ index := by
      rintro rfl
      exact unreached key last
    rw [words]
    simp [elsewhere, holds.hidden column unreached row insideToo]

/-- What a store is asked for it replies as the map does, and they still agree. -/
theorem step (holds : Holds schema nodes s m) (request : PropertyRequest) :
    ((request.onStore).run s).1 = ((request.onNumbers schema nodes).run m).1 ∧
      Holds schema nodes ((request.onStore).run s).2 ((request.onNumbers schema nodes).run m).2 := by
  cases request with
  | kindOf key =>
    rcases holds.regular.column_last key with ⟨undeclared, column⟩ |
      ⟨p, _, c, declared, -, -, column, regular⟩
    · simp only [PropertyRequest.onStore, PropertyRequest.onNumbers, StateT.run, column, undeclared]
      exact ⟨rfl, holds⟩
    · simp only [PropertyRequest.onStore, PropertyRequest.onNumbers, StateT.run, column, declared,
        ← regular.kind_eq]
      exact ⟨rfl, holds⟩
  | all kind key =>
    simp only [PropertyRequest.onStore, PropertyRequest.onNumbers, StateT.run,
      holds.regular.numbers_eq, schema.ensure_eq]
    cases found : schema.place kind key with
    | error error => exact ⟨rfl, holds⟩
    | ok index =>
      refine ⟨congrArg (Except.ok ∘ PropertyReply.all) (List.map_congr_left fun node member => ?_), holds⟩
      exact holds.number found (List.mem_range.mp member)
  | read kind key node =>
    simp only [PropertyRequest.onStore, PropertyRequest.onNumbers, StateT.run,
      holds.regular.readNumber_eq, schema.access_eq]
    cases found : schema.slot nodes kind key node with
    | error fault => exact ⟨rfl, holds⟩
    | ok index =>
      obtain ⟨place, inside⟩ := Schema.slot_eq_ok found
      exact ⟨congrArg (Except.ok ∘ PropertyReply.number) (holds.number place inside), holds⟩
  | write key node value =>
    simp only [PropertyRequest.onStore, PropertyRequest.onNumbers, StateT.run,
      holds.regular.writeNumber_eq, schema.access_eq]
    cases found : schema.slot nodes value.kind key node with
    | error fault => exact ⟨rfl, holds⟩
    | ok index =>
      obtain ⟨place, inside⟩ := Schema.slot_eq_ok found
      exact ⟨rfl, holds.set place inside⟩
  | add key node delta =>
    simp only [PropertyRequest.onStore, PropertyRequest.onNumbers, StateT.run,
      holds.regular.addLong_eq, schema.access_eq]
    cases found : schema.slot nodes .long key node with
    | error fault => exact ⟨rfl, holds⟩
    | ok index =>
      obtain ⟨place, inside⟩ := Schema.slot_eq_ok found
      have held := holds.number place inside
      simp only [← held, Except.bind, Except.map, Value.ofWord, Value.toLong]
      cases Element.add? (Element.ofWord (s.word index node)) delta with
      | error fault => exact ⟨rfl, holds⟩
      | ok sum =>
        have placeOfSum : schema.place (Value.long sum).kind key = .ok index := place
        exact ⟨rfl, holds.set placeOfSum inside⟩

theorem column_numbers (holds : Holds schema nodes s m) {index : Nat} {p : Property}
    (declared : schema.properties[index]? = some p) : ∃ c, s.columns[index]? = some c ∧ c.kind = p.kind ∧
      c.numbers = (List.range nodes).map fun node =>
        if lastPlace p.key 0 schema.properties = some index then m p.key node else .zero p.kind := by
  obtain ⟨inSchema, rfl⟩ := List.getElem?_eq_some_iff.mp declared
  have inColumns : index < s.columns.size := by rw [holds.regular.size_eq]; exact inSchema
  have there := Array.getElem?_eq_getElem inColumns
  have regular := holds.regular.column index inSchema inColumns
  refine ⟨_, there, regular.kind_eq, regular.numbers_eq.trans (List.map_congr_left fun node member => ?_)⟩
  have inside := List.mem_range.mp member
  rw [← word_of_column there]
  -- under a declaration that is not the last one of its key nothing was ever written
  split
  · next last =>
    have declaredLast : schema.last? schema.properties[index].key = some schema.properties[index] := by
      rw [Schema.last?, ← getElem?_lastPlace _ 0, last]
      exact declared
    rw [holds.reached _ index last node inside, ← holds.typed _ _ declaredLast node]
    exact Value.ofWord_word _
  · next notLast =>
    have unreached : ∀ key, lastPlace key 0 schema.properties ≠ some index := by
      intro key last
      exact notLast (Schema.key_of_lastPlace last declared ▸ last)
    rw [holds.hidden index unreached node inside]
    exact Value.ofWord_zero _

theorem column_of_last (holds : Holds schema nodes s m) {key : String} {p : Property}
    (declared : schema.last? key = some p) : ∃ c, s.column key = .ok c ∧ c.kind = p.kind ∧
      c.numbers = (List.range nodes).map (m key) := by
  rcases holds.regular.column_last key with ⟨undeclared, -⟩ |
    ⟨_, index, c, declaredToo, place, there, column, regular⟩
  · cases undeclared.symm.trans declared
  · cases declared.symm.trans declaredToo
    refine ⟨c, column, regular.kind_eq, regular.numbers_eq.trans (List.map_congr_left fun node member => ?_)⟩
    rw [← word_of_column there]
    exact holds.number place (List.mem_range.mp member)

theorem readNumber_eq_error_iff (holds : Holds schema nodes s m) {kind : PropertyKind} {key : String}
    {node : Nat} {fault : Fault} :
    s.readNumber kind key node = .error fault ↔ Refused schema nodes kind key node fault := by
  rw [← Schema.access_eq_error_iff, holds.regular.readNumber_eq, schema.access_eq]
  cases schema.slot nodes kind key node <;> simp [Except.map]

theorem writeNumber_eq_error_iff (holds : Holds schema nodes s m) {key : String} {node : Nat}
    {value : Value} {fault : Fault} :
    s.writeNumber key node value = .error fault ↔ Refused schema nodes value.kind key node fault := by
  rw [← Schema.access_eq_error_iff, holds.regular.writeNumber_eq, schema.access_eq]
  cases schema.slot nodes value.kind key node <;> simp [Except.map]

theorem eq_of_readNumber (holds : Holds schema nodes s m) {kind : PropertyKind} {key : String} {node : Nat}
    {value : Value} (read : s.readNumber kind key node = .ok value) : value = m key node := by
  rw [holds.regular.readNumber_eq] at read
  cases found : schema.slot nodes kind key node with
  | error fault =>
    rw [found] at read
    cases read
  | ok index =>
    rw [found] at read
    cases read
    obtain ⟨place, inside⟩ := Schema.slot_eq_ok found
    exact holds.number place inside

end Holds

/-! ## Any requests -/

/-- Whatever a store of zeros is asked for, it replies what a map of zeros replies. In the end it has a
column per declaration, of its kind and with a number per node: those of the map under the last declaration
of a key, zeros under the others. A key stands for the column of its last declaration, and what is refused
to be read or written under a key is what its last declaration and the number of nodes exclude. -/
theorem refines_numbers (schema : Schema) (nodes : Nat) (requests : List PropertyRequest) :
    let store := (requests.mapM PropertyRequest.onStore).run (new schema nodes)
    let map := (requests.mapM (PropertyRequest.onNumbers schema nodes)).run (.zeros schema)
    store.1 = map.1 ∧ store.2.nodes = nodes ∧ store.2.schema = schema ∧
    store.2.columns.size = schema.properties.length ∧
    (∀ index p, schema.properties[index]? = some p → ∃ c, store.2.columns[index]? = some c ∧
      c.kind = p.kind ∧ c.numbers = (List.range nodes).map fun node =>
        if lastPlace p.key 0 schema.properties = some index then map.2 p.key node else .zero p.kind) ∧
    (∀ key, schema.last? key = none → store.2.column key = .error (.unknown key)) ∧
    (∀ key p, schema.last? key = some p → ∃ c, store.2.column key = .ok c ∧ c.kind = p.kind ∧
      c.numbers = (List.range nodes).map (map.2 key)) ∧
    (∀ kind key node fault, store.2.readNumber kind key node = .error fault ↔
      Refused schema nodes kind key node fault) ∧
    (∀ kind key node value, store.2.readNumber kind key node = .ok value → value = map.2 key node) ∧
    (∀ key node value fault, store.2.writeNumber key node value = .error fault ↔
      Refused schema nodes value.kind key node fault) := by
  intro store map
  obtain ⟨replies, holds⟩ := Lockstep.alike_mapM
    (fun request s m (holds : Holds schema nodes s m) => holds.step request) requests (.new schema nodes)
  refine ⟨replies, holds.regular.nodes_eq, holds.regular.schema_eq, holds.regular.size_eq,
    fun index p declared => holds.column_numbers declared, fun key undeclared => ?_,
    fun key p declared => holds.column_of_last declared,
    fun kind key node fault => holds.readNumber_eq_error_iff,
    fun kind key node value read => holds.eq_of_readNumber read,
    fun key node value fault => holds.writeNumber_eq_error_iff⟩
  rcases holds.regular.column_last key with ⟨-, column⟩ | ⟨_, _, _, declared, -⟩
  · exact column
  · cases undeclared.symm.trans declared

/-- A schema, as one can be read from a text, that declares a key first with one kind and then with the
other. -/
def redeclared : Schema := ⟨[⟨"a", .long, .exposed⟩, ⟨"b", .long, .internal⟩, ⟨"a", .double, .exposed⟩]⟩

/-- Requests for it, some of which are refused. -/
def touches : List PropertyRequest :=
  [.write "a" 1 (.double ⟨1⟩), .write "a" 2 (.long 7), .add "b" 2 5, .write "b" 3 (.long 1),
    .read .double "a" 1, .read .long "b" 1, .all .long "b", .kindOf "c"]

theorem refines_numbers_redeclared :
    ∃ replies s, (touches.mapM PropertyRequest.onStore).run (new redeclared 3) = (replies, s) ∧
    replies = [.ok .done, .error (.property (.mismatch "a" .long .double)), .ok (.number (.long 0)),
      .error (.access (.outOfBounds 3 3)), .ok (.number (.double ⟨1⟩)), .ok (.number (.long 0)),
      .ok (.all [.long 0, .long 0, .long 5]), .error (.property (.unknown "c"))] ∧
    (∃ c, s.columns[0]? = some c ∧ c.kind = .long ∧ c.numbers = [.long 0, .long 0, .long 0]) ∧
    (∃ c, s.column "a" = .ok c ∧ c.kind = .double ∧ c.numbers = [.double ⟨0⟩, .double ⟨1⟩, .double ⟨0⟩]) ∧
    s.readNumber .long "c" 9 = .error (.property (.unknown "c")) := by
  obtain ⟨replies, -, -, -, columns, -, lasts, refused, -, -⟩ := refines_numbers redeclared 3 touches
  have undeclared : redeclared.last? "c" = none := by decide
  have first : redeclared.properties[0]? = some ⟨"a", .long, .exposed⟩ := by decide
  have last : redeclared.last? "a" = some ⟨"a", .double, .exposed⟩ := by decide
  obtain ⟨hidden, there, kind, zeros⟩ := columns 0 _ first
  obtain ⟨reached, column, kindToo, numbers⟩ := lasts "a" _ last
  exact ⟨_, _, (Prod.eta _).symm, replies.trans rfl, ⟨hidden, there, kind, zeros.trans rfl⟩,
    ⟨reached, column, kindToo, numbers.trans rfl⟩, (refused _ _ _ _).mpr (.unknown undeclared)⟩

end PropertyStore
end BulkSync
