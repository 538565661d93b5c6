import BulkSync.Engine.Config
import BulkSync.Json.Printer
import BulkSync.Json.Reader
import BulkSync.Partition.Span
import BulkSync.Property.Schema

/-!
# Written forms

How configurations, schemas and runs of nodes are written as JSON and read back. A record is written
as an object with its fields in order. It is read from an object, in which unknown members are passed
over and a known one must not occur twice, or from an array of its fields in order; a field may be
missing only if it has a default. A word is read from its name, or from an object with the name as its
only key and `null` under it.
-/

namespace BulkSync

/-- Types with a written form. -/
class Coded (α : Type) where
  encode : α → Json
  decode : Json → Option α

namespace Coded

/-- The text of a value. -/
def toText {α : Type} [Coded α] (a : α) : String := (encode a).render

/-- The value of a text. -/
def ofText? (α : Type) [Coded α] (s : String) : Option α := Json.parse? s >>= decode

/-! ## Parts -/

/-- The members of a record with these fields; none under a field that is missing. -/
def fields? (names : List String) : Json → Option (List (Option Json))
  | .object members =>
      if members.all (·.1.isSome) &&
          names.all fun name => decide (members.countP (·.1 == some name) ≤ 1) then
        some (names.map fun name => (members.find? (·.1 == some name)).map (·.2))
      else none
  | .array items =>
      if items.length ≤ names.length then
        some ((List.range names.length).map fun i => items[i]?)
      else none
  | _ => none

/-- A field that has to be there. -/
def required {α : Type} [Coded α] (field : Option Json) : Option α := field >>= decode

/-- A field that stands for a default when it is missing. -/
def optional {α : Type} [Coded α] (default : α) : Option Json → Option α
  | some j => decode j
  | none => some default

/-- A word of a list of words with their meanings. -/
def word? {α : Type} (words : List (String × α)) : Json → Option α
  | .string (some s) => words.lookup s
  | .object [(some s, .null)] => words.lookup s
  | _ => none

/-- A count up to a bound. -/
def upTo? (greatest : Nat) (j : Json) : Option Nat := do
  let n ← j.nat?
  if n ≤ greatest then some n else none

/-! ## Instances -/

instance : Coded UInt32 where
  encode n := .nat n.toNat
  decode j := (upTo? (UInt32.size - 1) j).map UInt32.ofNat

instance : Coded UInt64 where
  encode n := .nat n.toNat
  decode j := (upTo? (UInt64.size - 1) j).map UInt64.ofNat

instance : Coded Concurrency where
  encode c := .nat c.workers
  decode j := (upTo? (UInt64.size - 1) j).bind Concurrency.ofNat?

instance : Coded Partitioning where
  encode p := .text p.name
  decode := word? ([.range, .degree, .auto].map fun p => (p.name, p))

instance : Coded PropertyKind where
  encode k := .text k.name
  decode := word? ([.long, .double].map fun k => (k.name, k))

instance : Coded Visibility where
  encode v := .text v.name
  decode := word? ([.exposed, .internal].map fun v => (v.name, v))

instance : Coded String where
  encode := .text
  decode := Json.text?

instance : Coded Config where
  encode c := .record
    [("max_iterations", encode c.maxIterations), ("concurrency", encode c.concurrency),
      ("min_batch_size", encode c.minBatchSize), ("partitioning", encode c.partitioning)]
  decode j := do
    let standard : Config := {}
    match ← fields? ["max_iterations", "concurrency", "min_batch_size", "partitioning"] j with
    | [iterations, concurrency, batch, partitioning] =>
        return {
          maxIterations := ← optional standard.maxIterations iterations
          concurrency := ← optional standard.concurrency concurrency
          minBatchSize := ← optional standard.minBatchSize batch
          partitioning := ← optional standard.partitioning partitioning }
    | _ => none

instance : Coded Property where
  encode p := .record
    [("key", encode p.key), ("value_type", encode p.kind), ("visibility", encode p.visibility)]
  decode j := do
    match ← fields? ["key", "value_type", "visibility"] j with
    | [key, kind, visibility] =>
        return ⟨← required key, ← required kind, ← required visibility⟩
    | _ => none

instance : Coded (List Property) where
  encode ps := .array (ps.map encode)
  decode j := j.items? >>= fun items => items.mapM decode

instance : Coded Schema where
  encode s := .record [("elements", encode s.properties)]
  decode j := do
    match ← fields? ["elements"] j with
    | [properties] => return ⟨← required properties⟩
    | _ => none

/-- A run is written with counts of 64 bits. -/
instance : Coded Span where
  encode s := .record [("start_node", .nat s.start), ("node_count", .nat s.count)]
  decode j := do
    match ← fields? ["start_node", "node_count"] j with
    | [start, count] =>
        return ⟨← start >>= upTo? (UInt64.size - 1), ← count >>= upTo? (UInt64.size - 1)⟩
    | _ => none

instance : Coded WeighedSpan where
  encode s := .record [("partition", encode s.span), ("degree_sum", .nat s.weight)]
  decode j := do
    match ← fields? ["partition", "degree_sum"] j with
    | [span, weight] => return ⟨← required span, ← weight >>= upTo? (UInt64.size - 1)⟩
    | _ => none

end Coded

/-- Why a text is refused as a configuration. -/
inductive ConfigTextError where
  | unreadable
  | invalid (error : ConfigError)
  deriving DecidableEq

/-- The configuration of a text, if it is valid. -/
def Config.ofText (s : String) : Except ConfigTextError Config :=
  match Coded.ofText? Config s with
  | none => .error .unreadable
  | some c =>
      match c.validate with
      | .ok () => .ok c
      | .error error => .error (.invalid error)

end BulkSync
