import ApiLoom.Proofs.InputFields
import ApiLoom.Proofs.SchemaTypes

/-!
# What is left to clients

The input of a create, and the row that an update changes, have the properties that
the server does not set itself.  Nothing asks a model for such a property, so both can be
empty; the other inputs name the key and never are.
-/

namespace ApiLoom

open Schema Store
open Text (IsFilledName)

namespace Model

variable {m : Model} {config : Config}

/-- The server sets the property of a new record: it is the key, a managed time, or the owner. -/
def SetsItself (m : Model) (config : Config) (name : String) : Prop :=
  isManaged config name = true ∨ m.ownerField = some name

/-- An update leaves the column of the property as it is: it is the key or the time of the
creation, and the time of the update is another. -/
def LeavesAlone (config : Config) (name : String) : Prop :=
  isManaged config name = true ∧ name ≠ config.updatedAtField

/-! ### Inputs -/

theorem createInput_empty_iff :
    (createInput config m).fields = [] ↔ ∀ p ∈ m.properties, m.SetsItself config p.name := by
  simp only [createInput, writableProperties, List.map_eq_nil_iff, List.filter_filter,
    List.filter_eq_nil_iff, SetsItself]
  refine forall₂_congr fun p _ => ?_
  cases isManaged config p.name <;> simp

theorem inputs_of_modelBlocks {b : Block} (own : b ∈ modelBlocks config m)
    (input : b.kind = .input) :
    b = createInput config m ∨ b = updateInput config m ∨ b = deleteInput config m := by
  simp only [modelBlocks, List.mem_append, List.mem_cons, List.not_mem_nil, or_false] at own
  rcases own with (rfl | paged) | inputs
  · cases input
  · split at paged
    · cases paged
    · obtain rfl := List.mem_singleton.mp paged
      cases input
  · exact inputs

/-- Of the inputs of a model, only that of the create can be empty. -/
theorem input_empty_iff {field : RootField} {b : Block} (own : b ∈ modelBlocks config m)
    (input : b.kind = .input) (named : b.name = Naming.inputType m.name field) :
    b.fields = [] ↔ field = .create ∧ ∀ p ∈ m.properties, m.SetsItself config p.name := by
  rcases inputs_of_modelBlocks own input with rfl | rfl | rfl
  · obtain rfl : RootField.create = field := (Naming.inputType_inj.mp named).1
    simp [createInput_empty_iff]
  · obtain rfl : RootField.update = field := (Naming.inputType_inj.mp named).1
    simp [updateInput]
  · obtain rfl : RootField.delete = field := (Naming.inputType_inj.mp named).1
    simp [deleteInput]

/-! ### Updates of rows -/

theorem updateAssignments_empty_iff :
    m.updateAssignments config = [] ↔ ∀ p ∈ m.properties, LeavesAlone config p.name := by
  have writable : m.writableFields config = [] ↔
      ∀ p ∈ m.properties, isManaged config p.name = true := by
    simp [writableFields, writableProperties]
  have timed : m.updateTimestamp config = [] ↔
      ∀ p ∈ m.properties, p.name ≠ config.updatedAtField := by
    rw [updateTimestamp_eq]
    simp [hasProperty, propertyNames]
  simp only [updateAssignments, List.append_eq_nil_iff, List.map_eq_nil_iff, writable, timed,
    LeavesAlone]
  exact ⟨fun both p member => ⟨both.1 p member, both.2 p member⟩,
    fun alone => ⟨fun p member => (alone p member).1, fun p member => (alone p member).2⟩⟩

theorem mainExchange_planned {cluster : Option Cluster} {field : RootField} {r : RootResolver}
    (resolved : m.resolver config cluster field = .ok r) :
    ∃ plan ∈ r.plans, plan.operation = (m.mainExchange config field).request.operation := by
  obtain ⟨binding, _, _, ⟨_, rfl⟩ | ⟨_, fetch, _, rfl⟩⟩ := resolver_ok resolved
  · exact ⟨_, List.mem_cons_self, rfl⟩
  · refine ⟨(m.mainStage config field binding).exchange.request, ?_, rfl⟩
    refine List.mem_cons_of_mem _ (List.mem_map.mpr ⟨m.mainStage config field binding, ?_, rfl⟩)
    simp [RootResolver.stages, Execution.stages, pipelineResolver]

/-- A row is updated by a statement with these changes of the table, or with none. -/
theorem update_assigns {models : List Model} {seeds : Review.SeedData} {k : CompiledModel}
    (decoded : m.IsDecoded) (passes : Review.Passes config models seeds) (member : m ∈ models)
    (relational : m.engine = .relational) (compiled : m.compile config models = .ok k) :
    ∃ r, k.resolver .update = .ok r ∧ ∃ plan ∈ r.plans, ∃ q, plan.operation = .sql q ∧
      ∃ changes, (changes = [] ↔ ∀ p ∈ m.properties, LeavesAlone config p.name) ∧
        q.SendsFirst config fun query => ∃ conditions,
          query = .update (Naming.tableName m.name) changes conditions := by
  obtain ⟨r, found, resolved⟩ := compile_resolver compiled .update
  obtain ⟨plan, planned, operation⟩ := mainExchange_planned resolved
  refine ⟨r, found, plan, planned, m.sqlUpdate config (m.isGated .update), ?_,
    (m.updateAssignments config).map SqlStatement.changeOf, ?_, ?_⟩
  · rw [operation, mainExchange, mainOperation, relational]
    rfl
  · rw [List.map_eq_nil_iff, updateAssignments_empty_iff]
  · exact sqlUpdate_sendsFirst decoded _ (Text.isFilledName_of_isIdentifier
      (decoded.declared_identifier (passes.identifier_declared member)))

end Model

/-! ### Reviewed sets -/

/-- In a reviewed set, an input that is named for a model is one of this model. -/
theorem input_of_model {config : Config} {models : List Model} {seeds : Review.SeedData}
    {m : Model} {field : RootField} {b : Block} (passes : Review.Passes config models seeds)
    (member : m ∈ models) (listed : b ∈ (document config models).blocks) (input : b.kind = .input)
    (named : b.name = Naming.inputType m.name field) : b ∈ modelBlocks config m := by
  rcases mem_blocks listed with ⟨n, known, own⟩ | ⟨t, _, rfl⟩ | rfl
  · have same : m.name = n.name := by
      rcases Model.inputs_of_modelBlocks own input with rfl | rfl | rfl <;>
        exact (Naming.inputType_inj.mp named).2.symm
    obtain rfl := List.inj_on_of_nodup_map passes.names.1 member
      ((perm_sortedModels models).mem_iff.mp known) same
    exact own
  · cases input
  · cases input

/-- All inputs of a reviewed set are there, and no update or delete has an empty one.  The input
of a create is empty where the server sets all properties of the model itself, and the update
of a row assigns nothing where it leaves all of them alone.  Nothing is there where generation
breaks off. -/
theorem left_to_clients {config : Config} {models : List Model} {seeds : Review.SeedData}
    (decoded : ∀ m ∈ models, m.IsDecoded) (passes : Review.Passes config models seeds) :
    Compilation.BreaksOff config models ∨
      ∃ c, Compilation.build config models = .ok c ∧ ∀ m ∈ models,
      (∀ field ∈ RootField.writes,
        c.schema.Defines .input (Naming.inputType m.name field) ∧
        ∀ b ∈ c.schema.blocks, b.kind = .input → b.name = Naming.inputType m.name field →
          (b.fields = [] ↔ field = .create ∧ ∀ p ∈ m.properties, m.SetsItself config p.name)) ∧
      (m.engine = .relational → ∃ k ∈ c.models, m.compile config models = .ok k ∧
        ∃ r, k.resolver .update = .ok r ∧ ∃ plan ∈ r.plans, ∃ q, plan.operation = .sql q ∧
          ∃ changes, (changes = [] ↔ ∀ p ∈ m.properties, Model.LeavesAlone config p.name) ∧
            q.SendsFirst config fun query => ∃ conditions,
              query = .update (Naming.tableName m.name) changes conditions) := by
  refine passes.builds.imp id fun ⟨c, built⟩ => ?_
  have schema := (Compilation.build_schema built).2
  refine ⟨c, built, fun m member => ⟨fun field writes => ⟨?_, fun b listed input named => ?_⟩,
    fun relational => ?_⟩⟩
  · rw [schema]
    exact input_defined config ((perm_sortedModels models).mem_iff.mpr member) writes
  · rw [schema] at listed
    exact Model.input_empty_iff (input_of_model passes member listed input named) input named
  · obtain ⟨k, known, compiled⟩ :=
      exists_of_mapM_ok (Compilation.build_ok built).1 m member
    exact ⟨k, known, compiled,
      Model.update_assigns (decoded m member) passes member relational compiled⟩

/-- A tag that is nothing but its key. -/
def bareTag : Value := .object [
  ("name", .text "Tag"),
  ("properties", .object [("id", .object [("type", .text "ID")])]),
  ("dataSource", filedSource)]

theorem left_to_clients_bareTag :
    ∃ m c, Model.decode bareTag = .ok m ∧ Review.Passes .default [m] [] ∧
      Compilation.build .default [m] = .ok c ∧
      (∃ b ∈ c.schema.blocks, b.kind = .input ∧ b.name = "CreateTagInput" ∧ b.fields = []) ∧
      (∀ b ∈ c.schema.blocks, b.kind = .input → b.name = "UpdateTagInput" → b.fields ≠ []) ∧
      ∃ k ∈ c.models, ∃ r, k.resolver .update = .ok r ∧ ∃ plan ∈ r.plans, ∃ q,
        plan.operation = .sql q ∧ q.SendsFirst .default fun query => ∃ conditions,
          query = .update "tags" [] conditions := by
  obtain ⟨m, first, relational, named, table, properties, harmless, written⟩ : ∃ m,
      Model.decode bareTag = .ok m ∧ m.engine = .relational ∧ m.name = "Tag" ∧
      Naming.tableName m.name = "tags" ∧ m.properties.map (·.name) = ["id"] ∧
      (∀ f ∈ Review.all .default [m] [], f.level ≠ .error) ∧ ∀ x ∈ [m], ¬ x.HasLongLimit :=
    ⟨_, rfl, rfl, rfl, by decide +kernel, rfl, by decide +kernel, by decide +kernel⟩
  have passes : Review.Passes .default [m] [] := Report.isValid_ofFindings.mpr harmless
  have member : m ∈ [m] := List.mem_singleton_self m
  have keyed : ∀ p ∈ m.properties, p.name = "id" := fun p listed =>
    List.mem_singleton.mp (properties ▸ List.mem_map_of_mem listed)
  obtain ⟨c, built, all⟩ := (left_to_clients (List.forall_mem_singleton.mpr ⟨_, first⟩)
    passes).resolve_left (Compilation.not_breaksOff written)
  obtain ⟨inputs, rows⟩ := all m member
  obtain ⟨⟨b, listed, input, own⟩, creates⟩ := inputs .create (by decide)
  obtain ⟨_, updates⟩ := inputs .update (by decide)
  obtain ⟨k, known, _, r, found, plan, planned, q, operation, changes, empty, sends⟩ :=
    rows relational
  refine ⟨m, c, first, passes, built, ⟨b, listed, input, ?_, ?_⟩, ?_, k, known, r, found, plan,
    planned, q, operation, ?_⟩
  · rw [own, named]
    rfl
  · refine (creates b listed input own).mpr ⟨rfl, fun p member => Or.inl ?_⟩
    rw [keyed p member]
    decide
  · intro b listed input own empty
    have creates := (updates b listed input (own.trans (by rw [named]; rfl))).mp empty
    cases creates.1
  · obtain rfl := empty.mpr fun p member => by
      rw [keyed p member]
      exact ⟨by decide, by decide⟩
    rw [table] at sends
    exact sends

end ApiLoom
