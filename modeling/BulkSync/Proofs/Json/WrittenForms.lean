import BulkSync.Json.Codec
import BulkSync.Proofs.Json.Reading
import BulkSync.Proofs.Property.Keys

/-! # Written forms are read back

A value with a written form is read back from its text if it is read back from its JSON value, since
every JSON value is read back (`ofText?_toText`). A record is read back if its fields are
(`fields?_object`). Counts are read back if they fit 64 bits; all other parts are read back without a
condition (`Lawful`). -/

namespace BulkSync

namespace Coded

/-- Values of the type are read back from their written form. -/
class Lawful (α : Type) [Coded α] : Prop where
  decode_encode : ∀ a : α, decode (encode a) = some a

export Lawful (decode_encode)

theorem ofText?_toText {α : Type} [Coded α] (a : α) : ofText? α (toText a) = decode (encode a) := by
  simp [ofText?, toText, Json.parse?_render]

theorem Lawful.read_back {α : Type} [Coded α] [Lawful α] (a : α) : ofText? α (toText a) = some a := by
  rw [ofText?_toText, decode_encode]

/-! ## Parts -/

theorem upTo?_nat {greatest n : Nat} (fits : n ≤ greatest) : upTo? greatest (.nat n) = some n := by
  simp [upTo?, Json.nat, Json.nat?, fits]

theorem upTo?_word {n : Nat} (fits : n < Word.limit) : upTo? (UInt64.size - 1) (.nat n) = some n :=
  upTo?_nat (Nat.le_sub_one_of_lt fits)

theorem optional_encode {α : Type} [Coded α] [Lawful α] (standard a : α) :
    optional standard (some (encode a)) = some a := by
  rw [optional, decode_encode]

theorem required_encode {α : Type} [Coded α] [Lawful α] (a : α) : required (some (encode a)) = some a := by
  rw [required, Option.bind_eq_bind, Option.bind_some, decode_encode]

/-- The members of a record are found under their names. -/
theorem fields?_object {names : List String} {members : List (Option String × Json)}
    (named : members.map (·.1) = names.map some) (distinct : names.Nodup) :
    fields? names (.object members) = some (members.map fun member => some member.2) := by
  have distinctKeys : (members.map (·.1)).Nodup := by
    rw [named]
    exact distinct.map fun _ _ => Option.some.inj
  have texts : members.all (·.1.isSome) = true := by
    have keys : (members.map (·.1)).all Option.isSome = true := by simp [named]
    rwa [List.all_map] at keys
  have once : ∀ name : String, members.countP (·.1 == some name) ≤ 1 := by
    intro name
    have counted := List.nodup_iff_count_le_one.mp distinctKeys (some name)
    rwa [List.count, List.countP_map] at counted
  -- a name is found where it stands, since no other member has it
  have found : names.map (fun name => (members.find? (·.1 == some name)).map (·.2)) =
      members.map fun member => some member.2 := by
    change names.map ((fun key => (members.find? (·.1 == key)).map (·.2)) ∘ some) = _
    rw [← List.map_map, ← named, List.map_map]
    apply List.map_congr_left
    intro member inside
    simp only [Function.comp_apply, find?_key distinctKeys inside, Option.map_some]
  simp [fields?, texts, once, found]

/-! ## Words and records of words -/

instance : Lawful UInt32 where
  decode_encode n := by
    have fits : n.toNat ≤ UInt32.size - 1 := Nat.le_sub_one_of_lt n.toNat_lt
    change (upTo? (UInt32.size - 1) (.nat n.toNat)).map UInt32.ofNat = some n
    rw [upTo?_nat fits, Option.map_some, UInt32.ofNat_toNat]

instance : Lawful UInt64 where
  decode_encode n := by
    change (upTo? (UInt64.size - 1) (.nat n.toNat)).map UInt64.ofNat = some n
    rw [upTo?_word n.toNat_lt, Option.map_some, UInt64.ofNat_toNat]

instance : Lawful Concurrency where
  decode_encode c := by
    change (upTo? (UInt64.size - 1) (.nat c.workers)).bind Concurrency.ofNat? = some c
    rw [upTo?_word c.bounded, Option.bind_some, Concurrency.ofNat?, dif_pos ⟨c.positive, c.bounded⟩]

instance : Lawful Partitioning where
  decode_encode p := by cases p <;> rfl

instance : Lawful PropertyKind where
  decode_encode k := by cases k <;> rfl

instance : Lawful Visibility where
  decode_encode v := by cases v <;> rfl

instance : Lawful String where
  decode_encode _ := rfl

instance : Lawful Config where
  decode_encode c := by
    have fields : fields? ["max_iterations", "concurrency", "min_batch_size", "partitioning"]
        (encode c) = some [some (encode c.maxIterations), some (encode c.concurrency),
          some (encode c.minBatchSize), some (encode c.partitioning)] :=
      fields?_object rfl (by decide)
    simp [decode, fields, optional_encode]

instance : Lawful Property where
  decode_encode p := by
    have fields : fields? ["key", "value_type", "visibility"] (encode p) =
        some [some (encode p.key), some (encode p.kind), some (encode p.visibility)] :=
      fields?_object rfl (by decide)
    simp [decode, fields, required_encode]

instance : Lawful (List Property) where
  decode_encode ps := by
    have each : (decode ∘ encode : Property → Option Property) = some := funext decode_encode
    change (ps.map encode).mapM decode = some ps
    rw [List.mapM_map, each]
    exact List.mapM_pure.trans (congrArg some ps.map_id)

instance : Lawful Schema where
  decode_encode s := by
    have fields : fields? ["elements"] (encode s) = some [some (encode s.properties)] :=
      fields?_object rfl (by decide)
    simp [decode, fields, required_encode]

/-! ## Runs of nodes -/

theorem decode_span {s : Span} (start : s.start < Word.limit) (count : s.count < Word.limit) :
    decode (encode s) = some s := by
  have fields : fields? ["start_node", "node_count"] (encode s) =
      some [some (.nat s.start), some (.nat s.count)] := fields?_object rfl (by decide)
  simp only [decode, fields, Option.bind_eq_bind, Option.bind_some, upTo?_word start, upTo?_word count,
    Option.pure_def]

theorem decode_weighedSpan {s : WeighedSpan} (start : s.span.start < Word.limit)
    (count : s.span.count < Word.limit) (weight : s.weight < Word.limit) :
    decode (encode s) = some s := by
  have fields : fields? ["partition", "degree_sum"] (encode s) =
      some [some (encode s.span), some (.nat s.weight)] := fields?_object rfl (by decide)
  have span : required (some (encode s.span)) = some s.span := decode_span start count
  simp only [decode, fields, Option.bind_eq_bind, Option.bind_some, span, upTo?_word weight,
    Option.pure_def]

end Coded

/-! ## Configurations -/

open Coded

theorem Config.validate_eq (c : Config) : c.validate =
    if 1 ≤ c.maxIterations ∧ 1 ≤ c.minBatchSize then .ok ()
    else .error (if c.maxIterations = 0 then .noIterations else .emptyBatches) := by
  have iterations : 1 ≤ c.maxIterations ↔ c.maxIterations ≠ 0 := by
    simp [UInt32.le_iff_toNat_le, ← UInt32.toNat_inj]
    omega
  have batch : 1 ≤ c.minBatchSize ↔ c.minBatchSize ≠ 0 := by
    simp [UInt64.le_iff_toNat_le, ← UInt64.toNat_inj]
    omega
  rw [validate]
  by_cases none : c.maxIterations = 0
  · simp [none]
  · by_cases empty : c.minBatchSize = 0
    · simp [none, empty]
    · simp [none, empty, iterations, batch]

/-- A configuration is read back from its text unless it is refused. -/
theorem Config.ofText_toText (c : Config) : Config.ofText (toText c) =
    if 1 ≤ c.maxIterations ∧ 1 ≤ c.minBatchSize then .ok c
    else .error (.invalid (if c.maxIterations = 0 then .noIterations else .emptyBatches)) := by
  rw [Config.ofText, Lawful.read_back]
  simp only [c.validate_eq]
  by_cases valid : 1 ≤ c.maxIterations ∧ 1 ≤ c.minBatchSize
  · simp only [valid, and_self, if_true]
  · simp only [valid, if_false]

/-- What is accepted from any text is valid, so that it is accepted again. -/
theorem Config.accepted_again {text : String} {c : Config} (accepted : Config.ofText text = .ok c) :
    Config.ofText (toText c) = .ok c := by
  have valid : c.validate = .ok () := by
    rw [Config.ofText] at accepted
    split at accepted
    · cases accepted
    · next other _ =>
      split at accepted
      · next valid =>
        cases accepted
        exact valid
      · cases accepted
  rw [Config.ofText, Lawful.read_back]
  simp only [valid]

/-! ## All written forms -/

/-- Every value is read back from its text, a count if it fits 64 bits. A configuration that is read from
its text is refused if it is not valid; one that is accepted from any text is accepted again from its
own. -/
theorem roundtrip :
    (∀ c : Config, ofText? Config (toText c) = some c) ∧
    (∀ c : Concurrency, ofText? Concurrency (toText c) = some c) ∧
    (∀ p : Partitioning, ofText? Partitioning (toText p) = some p) ∧
    (∀ s : Span, s.start < Word.limit → s.count < Word.limit → ofText? Span (toText s) = some s) ∧
    (∀ s : WeighedSpan, s.span.start < Word.limit → s.span.count < Word.limit → s.weight < Word.limit →
      ofText? WeighedSpan (toText s) = some s) ∧
    (∀ k : PropertyKind, ofText? PropertyKind (toText k) = some k) ∧
    (∀ v : Visibility, ofText? Visibility (toText v) = some v) ∧
    (∀ p : Property, ofText? Property (toText p) = some p) ∧
    (∀ s : Schema, ofText? Schema (toText s) = some s) ∧
    (∀ c : Config, Config.ofText (toText c) =
      if 1 ≤ c.maxIterations ∧ 1 ≤ c.minBatchSize then .ok c
      else .error (.invalid (if c.maxIterations = 0 then .noIterations else .emptyBatches))) ∧
    (∀ text c, Config.ofText text = .ok c → Config.ofText (toText c) = .ok c) := by
  refine ⟨Lawful.read_back, Lawful.read_back, Lawful.read_back, fun s start count => ?_,
    fun s start count weight => ?_, Lawful.read_back, Lawful.read_back, Lawful.read_back,
    Lawful.read_back, Config.ofText_toText, fun text c accepted => Config.accepted_again accepted⟩
  · rw [ofText?_toText, decode_span start count]
  · rw [ofText?_toText, decode_weighedSpan start count weight]

/-- The greatest counts are read back, and so is a configuration that was written as an array. -/
theorem roundtrip_greatest :
    let greatest : Span := ⟨Word.top, Word.top⟩
    ofText? Span (toText greatest) = some greatest ∧
    ofText? WeighedSpan (toText (⟨greatest, Word.top⟩ : WeighedSpan)) = some ⟨greatest, Word.top⟩ ∧
    Config.ofText "[5]" = .ok { maxIterations := 5 } ∧
    Config.ofText (toText ({ maxIterations := 5 } : Config)) = .ok { maxIterations := 5 } := by
  have fits : Word.top < Word.limit := by decide
  have read : Config.ofText "[5]" = .ok { maxIterations := 5 } := by cbv
  obtain ⟨-, -, -, spans, weighedSpans, -, -, -, -, -, again⟩ := roundtrip
  exact ⟨spans _ fits fits, weighedSpans _ fits fits fits, read, again "[5]" _ read⟩

end BulkSync
