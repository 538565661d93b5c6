import BulkSync.Json.Codec
import BulkSync.Proofs.Engine.Keeping
import BulkSync.Proofs.Engine.Lifecycle
import BulkSync.Proofs.Property.Distinct

/-! # The values that a run returns

A run that has come to an outcome declares the properties of its result once more. It returns them just if
no two of them have one key (`returns_iff`), and so always if the schema was made by declaring properties
one after the other (`distinct_keys`). A schema that is read from a text need not be of that kind
(`repeated_key`). -/

namespace BulkSync

variable {γ M : Type} [GraphView γ] [Element M]

namespace Engine

variable {e : Engine γ M} {executor : Nat → Executor (Board M)}

omit [GraphView γ] [Element M] in
theorem resultOf_reached {course : Course M} {outcome : Outcome} (ended : course.ending = .reached outcome) :
    (∃ result, resultOf course = .ok result ∧ result.outcome = outcome) ↔
      ∃ values, course.board.store.exposed = .ok values := by
  rw [resultOf, ended]
  cases course.board.store.exposed with
  | error fault => simp
  | ok values => simp

/-- The board of a run has a store of the declared schema at every end. -/
theorem filed_of_prepare (turns : ∀ s, (executor s).TakesTurns Board.raised) {schema : Schema}
    (declared : e.computation.schema = .ok schema) {job : Job γ M} {b : Board M}
    (prepared : e.prepare executor = .ok (job, b)) :
    (job.proceed e.config.maxIterations.toNat 0 b).board.Filed schema (GraphView.nodeCount e.graph) := by
  obtain ⟨_, mail, spans, declaredToo, -, -, jobOf, boardOf⟩ := prepare_ok prepared
  cases declared.symm.trans declaredToo
  have turnsToo : ∀ s, (job.executor s).TakesTurns Board.raised := by
    rw [jobOf]
    exact turns
  have stored : b.Filed schema (GraphView.nodeCount e.graph) := by
    rw [boardOf]
    exact PropertyStore.regular_new schema _
  exact job.proceed_filed turnsToo e.config.maxIterations.toNat 0 stored

theorem returns_iff (notStarted : e.state = .notStarted) (turns : ∀ s, (executor s).TakesTurns Board.raised)
    {schema : Schema} (declared : e.computation.schema = .ok schema) {outcome : Outcome}
    (ended : (e.runWith executor).2.state = .ended outcome) :
    (∃ result, (e.runWith executor).1 = .ok result ∧ result.outcome = outcome) ↔
      (schema.exposed.map (·.key)).Nodup := by
  rw [runWith_eq notStarted] at ended ⊢
  cases prepared : e.prepare executor with
  | error fault =>
    rw [prepared, notStarted] at ended
    cases ended
  | ok made =>
    obtain ⟨job, b⟩ := made
    rw [prepared] at ended
    have filed := filed_of_prepare turns declared prepared
    exact (resultOf_reached (Ending.state_eq_ended_iff.mp ended)).trans filed.exposed_succeeds_iff

end Engine

/-- Whatever properties are declared, one after the other, in a schema without a repeated key: none is
repeated, and a key that is declared already is refused. The first declaration of a key is that of the column
for it, and a run with such a schema that has come to an outcome returns its values. -/
theorem distinct_keys (start : Schema) (distinct : start.keys.Nodup) (properties : List Property) :
    let schema := ((properties.mapM Schema.declare).run start).2
    schema.keys.Nodup ∧
    (∀ p, p.key ∈ schema.keys → (Schema.declare p).run schema = (.error (.declaredTwice p.key), schema)) ∧
    (∀ key nodes, schema.get? key = none →
      (PropertyStore.new schema nodes).column key = .error (.unknown key)) ∧
    (∀ key nodes p, schema.get? key = some p → ∃ (index : Nat) (c : Column), schema.properties[index]? = some p ∧
      (PropertyStore.new schema nodes).columns[index]? = some c ∧
      (PropertyStore.new schema nodes).column key = .ok c ∧ c.kind = p.kind) ∧
    (∀ (e : Engine γ M) (executor : Nat → Executor (Board M)) outcome, e.state = .notStarted →
      (∀ s, (executor s).TakesTurns Board.raised) → e.computation.schema = .ok schema →
      (e.runWith executor).2.state = .ended outcome →
        ∃ result, (e.runWith executor).1 = .ok result ∧ result.outcome = outcome) := by
  intro schema
  have keys : schema.keys.Nodup := (Schema.nodup_declared_iff start properties).mpr distinct
  refine ⟨keys, fun p declared => ?_, fun key nodes undeclared => ?_, fun key nodes p declared => ?_,
    fun e executor outcome notStarted turns declared ended => ?_⟩
  · rw [Schema.run_declare, if_pos declared]
  · rw [Schema.get?_eq_last? keys] at undeclared
    rcases (PropertyStore.regular_new schema nodes).column_last key with ⟨-, column⟩ | ⟨_, _, _, declared, -⟩
    · exact column
    · cases undeclared.symm.trans declared
  · rw [Schema.get?_eq_last? keys] at declared
    rcases (PropertyStore.regular_new schema nodes).column_last key with ⟨undeclared, -⟩ |
      ⟨_, index, c, declaredToo, place, there, column, regular⟩
    · cases undeclared.symm.trans declared
    · cases declared.symm.trans declaredToo
      obtain ⟨q, last, -, here, -⟩ := Schema.place_eq_ok place
      cases declared.symm.trans last
      exact ⟨index, c, here, there, column, regular.kind_eq⟩
  · refine (Engine.returns_iff notStarted turns declared ended).mpr ?_
    exact keys.sublist (List.filter_sublist.map _)

/-- A second declaration is refused, and the two nodes return what they have heard. -/
theorem distinct_keys_greeting :
    let schema := (([⟨"heard", .long, .exposed⟩, ⟨"heard", .double, .internal⟩].mapM Schema.declare).run
      Schema.empty).2
    schema.keys.Nodup ∧
    (Schema.declare ⟨"heard", .double, .exposed⟩).run schema = (.error (.declaredTwice "heard"), schema) ∧
    ∃ result, greetingEngine.run.1 = .ok result ∧ result.outcome = .converged := by
  intro schema
  obtain ⟨keys, refused, -, -, returns⟩ := distinct_keys (γ := RowGraph) (M := Int64) .empty List.nodup_nil
    [⟨"heard", .long, .exposed⟩, ⟨"heard", .double, .internal⟩]
  refine ⟨keys, refused _ (by decide), returns greetingEngine greetingEngine.onPool .converged rfl
    (fun s => (greetingEngine.inSequence_onPool s).takesTurns) rfl (by decide +kernel)⟩

/-! ## A schema from a text -/

/-- A text that declares one key with two kinds. -/
def twiceText : String :=
  "\x7b\"elements\":[\x7b\"key\":\"a\",\"value_type\":\"Long\",\"visibility\":\"Public\"\x7d," ++
    "\x7b\"key\":\"a\",\"value_type\":\"Double\",\"visibility\":\"Public\"\x7d]\x7d"

/-- What is read from it. -/
def twice : Schema := ⟨[⟨"a", .long, .exposed⟩, ⟨"a", .double, .exposed⟩]⟩

/-- A node that votes to halt in the first superstep. -/
def twiceEngine : Engine RowGraph Int64 where
  graph := ⟨Rows.ofLists [[]], none⟩
  computation := { schema := .ok twice, compute := fun _ _ => VertexContext.halt }
  config := {}

/-- A text can repeat a key. The first declaration is then not the one of the column, and a run that has
converged returns nothing. -/
theorem repeated_key :
    Coded.ofText? Schema twiceText = some twice ∧
    ¬ twice.keys.Nodup ∧
    (twice.get? "a").map (·.kind) = some .long ∧
    ((PropertyStore.new twice 1).column "a").toOption.map (·.kind) = some .double ∧
    twiceEngine.run.2.state = .ended .converged ∧
    ∀ result, twiceEngine.run.1 ≠ .ok result := by
  refine ⟨by decide +kernel, by decide, by decide, by decide +kernel, by decide +kernel, ?_⟩
  have nothing : twiceEngine.run.1.toOption.isNone = true := by decide +kernel
  intro result ran
  rw [ran] at nothing
  cases nothing

end BulkSync
