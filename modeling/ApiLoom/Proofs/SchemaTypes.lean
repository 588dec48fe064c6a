import ApiLoom.Proofs.SchemaNames

/-!
# Types that the schema uses

The fields of the root types, the pages and the relationships use object types and
input types.  Most of these blocks are only written for some models, and the fields
that use them belong to others; still the schema of a reviewed set defines each.
-/

namespace ApiLoom

namespace Schema

/-- The scalars of the arguments of fields. -/
def argumentScalars : List String := ["ID", "Int", "String", "AWSDateTime", "AWSJSON"]

namespace Document

def Defines (d : Document) (kind : BlockKind) (name : String) : Prop :=
  ∃ b ∈ d.blocks, b.kind = kind ∧ b.name = name

/-- Where the document of some models uses an object type or an input type. -/
inductive Uses (d : Document) (models : List Model) : BlockKind → String → Prop where
  | result {b : Block} {f : Field} (listed : b ∈ d.blocks) (root : b.name ∈ rootTypeNames)
      (declared : f ∈ b.fields) : Uses d models .object f.type.name
  | argument {b : Block} {f : Field} {a : Argument} (listed : b ∈ d.blocks)
      (root : b.name ∈ rootTypeNames) (declared : f ∈ b.fields) (given : a ∈ f.arguments)
      (unscaled : a.type.name ∉ argumentScalars) : Uses d models .input a.type.name
  | item {b : Block} {f : Field} (listed : b ∈ d.blocks) (declared : f ∈ b.fields)
      (many : f.type.isList = true) : Uses d models .object f.type.name
  | link {b : Block} {m : Model} {field : String} {r : Relationship} (member : m ∈ models)
      (related : (field, r) ∈ m.relationships) (listed : b ∈ d.blocks) (named : b.name = m.name)
      (declared : relationshipField field r ∈ b.fields) :
      Uses d models .object (relationshipField field r).type.name

end Document

/-! ### Blocks of a document -/

section Blocks

variable {config : Config} {models : List Model} {m : Model}

/-- A block belongs to a model, is a root type, or is the type of the results of jobs. -/
theorem mem_blocks {b : Block} (listed : b ∈ (documentOf config models).blocks) :
    (∃ m ∈ models, b ∈ modelBlocks config m) ∨
      (∃ t ∈ rootTypes config models, b = ⟨.object, t.1, t.2⟩) ∨ b = jobResultBlock := by
  rw [documentOf_blocks] at listed
  rcases List.mem_append.mp listed with earlier | last
  · rcases List.mem_append.mp earlier with modelled | rooted
    · exact Or.inl (List.mem_flatMap.mp modelled)
    · obtain ⟨t, known, block⟩ := List.mem_flatMap.mp rooted
      rw [rootBlock] at block
      split at block
      · cases block
      · exact Or.inr (Or.inl ⟨t, known, List.mem_singleton.mp block⟩)
  · split at last
    · exact Or.inr (Or.inr (List.mem_singleton.mp last))
    · cases last

theorem mem_of_modelBlocks (member : m ∈ models) {b : Block} (own : b ∈ modelBlocks config m) :
    b ∈ (documentOf config models).blocks := by
  rw [documentOf_blocks]
  exact List.mem_append_left _ (List.mem_append_left _ (List.mem_flatMap.mpr ⟨m, member, own⟩))

theorem modelBlocks_defined (config : Config) (member : m ∈ models) {b : Block}
    (own : b ∈ modelBlocks config m) : (documentOf config models).Defines b.kind b.name :=
  ⟨b, mem_of_modelBlocks member own, rfl, rfl⟩

theorem record_defined (config : Config) (member : m ∈ models) :
    (documentOf config models).Defines .object m.name :=
  modelBlocks_defined config member (b := typeBlock config m) (by simp [modelBlocks])

theorem page_defined (config : Config) (member : m ∈ models) (unqueued : m.isRateLimited = false) :
    (documentOf config models).Defines .object (Naming.connectionType m.name) :=
  modelBlocks_defined config member (b := connectionBlock m) (by simp [modelBlocks, unqueued])

theorem input_defined (config : Config) (member : m ∈ models) {field : RootField}
    (writes : field ∈ RootField.writes) :
    (documentOf config models).Defines .input (Naming.inputType m.name field) := by
  simp only [RootField.writes, List.mem_cons, List.not_mem_nil, or_false] at writes
  rcases writes with rfl | rfl | rfl
  · exact modelBlocks_defined config member (b := createInput config m) (by simp [modelBlocks])
  · exact modelBlocks_defined config member (b := updateInput config m) (by simp [modelBlocks])
  · exact modelBlocks_defined config member (b := deleteInput config m) (by simp [modelBlocks])

theorem jobResult_defined (config : Config) (queued : models.any Model.isRateLimited = true) :
    (documentOf config models).Defines .object Naming.jobResultType := by
  refine ⟨jobResultBlock, ?_, rfl, rfl⟩
  rw [documentOf_blocks, if_pos queued]
  exact List.mem_append_right _ (List.mem_singleton_self _)

theorem any_queued (member : m ∈ models) (queued : m.isRateLimited = true) :
    models.any Model.isRateLimited = true :=
  List.any_eq_true.mpr ⟨m, member, queued⟩

/-- A queued model answers with a job, and then the type of jobs is there. -/
theorem result_defined (config : Config) (member : m ∈ models) :
    (documentOf config models).Defines .object (resultType m) := by
  unfold resultType
  split
  · next queued => exact jobResult_defined config (any_queued member queued)
  · exact record_defined config member

theorem pageType_defined (config : Config) (member : m ∈ models) :
    (documentOf config models).Defines .object (pageType m) := by
  unfold pageType
  split
  · next queued => exact jobResult_defined config (any_queued member queued)
  · next unqueued => exact page_defined config member (by simpa using unqueued)

end Blocks

/-! ### Fields of root types -/

/-- The types that a field of a root type uses are defined. -/
structure Field.IsClosed (d : Document) (f : Field) : Prop where
  result : d.Defines .object f.type.name
  arguments : ∀ a ∈ f.arguments, a.type.name ∈ argumentScalars ∨ d.Defines .input a.type.name

section Roots

variable {config : Config} {models : List Model} {m : Model} {f : Field}

theorem jobField_isClosed {name : String} {arguments : List Argument}
    {directive : Option Directive} (config : Config)
    (queued : models.any Model.isRateLimited = true)
    (scalar : ∀ a ∈ arguments, a.type.name ∈ argumentScalars) :
    (jobField name arguments directive).IsClosed (documentOf config models) :=
  ⟨jobResult_defined config queued, fun a given => Or.inl (scalar a given)⟩

theorem queryFields_isClosed (member : m ∈ models) :
    ∀ f ∈ queryFields config m, f.IsClosed (documentOf config models) := by
  intro f listed
  simp only [queryFields, List.mem_append, List.mem_cons, List.not_mem_nil, or_false] at listed
  rcases listed with (rfl | rfl) | lookup
  · refine ⟨result_defined config member, fun a given => Or.inl ?_⟩
    obtain rfl := List.mem_singleton.mp given
    exact List.mem_cons_self
  · refine ⟨pageType_defined config member, fun a given => Or.inl ?_⟩
    have scalar : ∀ a ∈ pageArguments, a.type.name ∈ argumentScalars := by decide
    exact scalar a given
  · split at lookup
    · next queued =>
      obtain rfl := List.mem_singleton.mp lookup
      exact jobField_isClosed config (any_queued member queued) (by decide)
    · cases lookup

theorem mutationFields_isClosed (member : m ∈ models) :
    ∀ f ∈ mutationFields m, f.IsClosed (documentOf config models) := by
  intro f listed
  obtain ⟨field, writes, rfl⟩ := List.mem_map.mp listed
  refine ⟨result_defined config member, fun a given => Or.inr ?_⟩
  obtain rfl := List.mem_singleton.mp given
  exact input_defined config member writes

theorem subscriptionFields_isClosed (member : m ∈ models) :
    ∀ f ∈ subscriptionFields m, f.IsClosed (documentOf config models) := by
  intro f listed
  unfold subscriptionFields at listed
  split at listed
  · obtain ⟨field, _, rfl⟩ := List.mem_map.mp listed
    exact ⟨result_defined config member, fun a given => by cases given⟩
  · cases listed

/-- The fields that all models of a set share are there only beside a queued model. -/
theorem shared_isClosed {shared : Field}
    (closed : models.any Model.isRateLimited = true → shared.IsClosed (documentOf config models))
    (listed : f ∈ if models.any Model.isRateLimited then [shared] else []) :
    f.IsClosed (documentOf config models) := by
  split at listed
  · next queued =>
    obtain rfl := List.mem_singleton.mp listed
    exact closed queued
  · cases listed

theorem rootTypes_isClosed :
    ∀ t ∈ rootTypes config models, ∀ f ∈ t.2, f.IsClosed (documentOf config models) := by
  intro t known f declared
  simp only [rootTypes, List.mem_cons, List.not_mem_nil, or_false] at known
  rcases known with rfl | rfl | rfl
  · obtain ⟨m, member, own⟩ := List.mem_flatMap.mp declared
    exact queryFields_isClosed member f own
  · rcases List.mem_append.mp declared with own | shared
    · obtain ⟨m, member, own⟩ := List.mem_flatMap.mp own
      exact mutationFields_isClosed member f own
    · exact shared_isClosed (fun queued => jobField_isClosed config queued (by decide)) shared
  · rcases List.mem_append.mp declared with own | shared
    · obtain ⟨m, member, own⟩ := List.mem_flatMap.mp own
      exact subscriptionFields_isClosed member f own
    · exact shared_isClosed (fun queued => jobField_isClosed config queued (by decide)) shared

end Roots

/-! ### Uses -/

section Uses

variable {config : Config} {models : List Model}

/-- Only a root type has the name of one. -/
theorem root_of_name (unreserved : ∀ m ∈ models, m.name ∉ Review.reservedTypes) {b : Block}
    (listed : b ∈ (documentOf config models).blocks) (root : b.name ∈ rootTypeNames) :
    ∃ t ∈ rootTypes config models, b = ⟨.object, t.1, t.2⟩ := by
  have platform : b.name ∈ platformTypes := List.mem_cons_of_mem _ root
  rcases mem_blocks listed with ⟨m, member, own⟩ | rooted | rfl
  · have role : b.name ∈ m.typeRoles.map TypeRole.name :=
      Model.modelBlocks_names config m ▸ List.mem_map_of_mem own
    obtain ⟨x, known, named⟩ := List.mem_map.mp role
    rw [← named] at platform
    rcases Model.mem_typeRoles.mp known with rfl | ⟨_, rfl⟩ | ⟨field, _, rfl⟩
    · have reserved : ∀ name ∈ platformTypes, name ∈ Review.reservedTypes := by decide
      exact absurd (reserved _ platform) (unreserved m member)
    · exact absurd platform (TypeRole.connectionType_ne_platform _)
    · exact absurd platform (TypeRole.inputType_ne_platform _ _)
  · exact rooted
  · exact absurd root (by decide)

/-- No field of a model is a list, except for the records of a page. -/
theorem list_of_modelBlocks {m : Model} {b : Block} {f : Field} (own : b ∈ modelBlocks config m)
    (declared : f ∈ b.fields) (many : f.type.isList = true) : f.type.name = m.name := by
  simp only [modelBlocks, List.mem_append, List.mem_cons, List.not_mem_nil, or_false] at own
  have single : ∀ {fields : List Field}, (∀ g ∈ fields, g.type.isList = false) →
      f ∈ fields → f.type.name = m.name := by
    intro fields plain listed
    rw [plain f listed] at many
    cases many
  rcases own with (rfl | paged) | rfl | rfl | rfl
  · refine single (fun g listed => ?_) declared
    simp only [typeBlock, List.mem_append] at listed
    rcases listed with (property | time) | relationship
    · obtain ⟨p, _, rfl⟩ := List.mem_map.mp property
      rfl
    · obtain ⟨t, _, rfl⟩ := List.mem_map.mp time
      rfl
    · obtain ⟨r, _, rfl⟩ := List.mem_map.mp relationship
      cases kind : r.2.kind <;>
        simp [relationshipField, kind, Field.plain, TypeRef.optional]
  · split at paged
    · cases paged
    · obtain rfl := List.mem_singleton.mp paged
      simp only [connectionBlock, List.mem_cons, List.not_mem_nil, or_false] at declared
      rcases declared with rfl | rfl
      · rfl
      · cases many
  · refine single (fun g listed => ?_) declared
    obtain ⟨p, _, rfl⟩ := List.mem_map.mp listed
    rfl
  · refine single (fun g listed => ?_) declared
    rcases List.mem_cons.mp listed with rfl | later
    · rfl
    · obtain ⟨p, _, rfl⟩ := List.mem_map.mp later
      rfl
  · refine single (fun g listed => ?_) declared
    obtain rfl := List.mem_singleton.mp listed
    rfl

/-- Fields of root types are no lists. -/
theorem rootTypes_single :
    ∀ t ∈ rootTypes config models, ∀ f ∈ t.2, f.type.isList = false := by
  intro t known f declared
  simp only [rootTypes, List.mem_cons, List.not_mem_nil, or_false] at known
  rcases known with rfl | rfl | rfl
  · obtain ⟨m, _, own⟩ := List.mem_flatMap.mp declared
    simp only [queryFields, List.mem_append, List.mem_cons, List.not_mem_nil, or_false] at own
    rcases own with (rfl | rfl) | lookup
    · rfl
    · rfl
    · split at lookup
      · obtain rfl := List.mem_singleton.mp lookup
        rfl
      · cases lookup
  · rcases List.mem_append.mp declared with own | shared
    · obtain ⟨m, _, own⟩ := List.mem_flatMap.mp own
      obtain ⟨field, _, rfl⟩ := List.mem_map.mp own
      rfl
    · split at shared
      · obtain rfl := List.mem_singleton.mp shared
        rfl
      · cases shared
  · rcases List.mem_append.mp declared with own | shared
    · obtain ⟨m, _, own⟩ := List.mem_flatMap.mp own
      unfold subscriptionFields at own
      split at own
      · obtain ⟨field, _, rfl⟩ := List.mem_map.mp own
        rfl
      · cases own
    · split at shared
      · obtain rfl := List.mem_singleton.mp shared
        rfl
      · cases shared

theorem item_defined {b : Block} {f : Field}
    (listed : b ∈ (documentOf config models).blocks) (declared : f ∈ b.fields)
    (many : f.type.isList = true) : (documentOf config models).Defines .object f.type.name := by
  rcases mem_blocks listed with ⟨m, member, own⟩ | ⟨t, known, rfl⟩ | rfl
  · rw [list_of_modelBlocks own declared many]
    exact record_defined config member
  · rw [rootTypes_single t known f declared] at many
    cases many
  · have plain : ∀ f ∈ jobResultBlock.fields, f.type.isList = false := by decide
    rw [plain f declared] at many
    cases many

/-- A relationship uses the record of its target or, to many, the page. -/
theorem link_defined {target : Model} {field : String} {r : Relationship}
    (member : target ∈ models) (named : target.name = r.target)
    (unqueued : target.isRateLimited = false) :
    (documentOf config models).Defines .object (relationshipField field r).type.name := by
  cases kind : r.kind <;>
    simp only [relationshipField, kind, Field.plain, TypeRef.optional, ← named]
  · exact page_defined config member unqueued
  · exact record_defined config member
  · exact record_defined config member

/-- The record of a model has a field for each of its relationships. -/
theorem uses_link (config : Config) {m : Model} (member : m ∈ models) {field : String}
    {r : Relationship} (related : (field, r) ∈ m.relationships) :
    (document config models).Uses models .object (relationshipField field r).type.name := by
  have sorted : m ∈ sortedModels models := (perm_sortedModels models).mem_iff.mpr member
  have declared : relationshipField field r ∈ (typeBlock config m).fields :=
    List.mem_append_right _ (List.mem_map.mpr ⟨(field, r), related, rfl⟩)
  exact .link member related (mem_of_modelBlocks sorted (by simp [modelBlocks])) rfl declared

end Uses

end Schema

open Schema in
/-- The schema of a reviewed set defines all object types and input types that it uses.  `Uses`
and `Defines` are about its blocks, not about lines in the raw texts of its scalars. -/
theorem used_types_defined {config : Config} {models : List Model} {seeds : Review.SeedData}
    (passes : Review.Passes config models seeds) {kind : BlockKind} {name : String}
    (used : (document config models).Uses models kind name) :
    (document config models).Defines kind name := by
  have listed {m : Model} : m ∈ sortedModels models ↔ m ∈ models :=
    (perm_sortedModels models).mem_iff
  have unreserved : ∀ m ∈ sortedModels models, m.name ∉ Review.reservedTypes :=
    fun m member => passes.names.2 m (listed.mp member)
  cases used with
  | result block root declared =>
    obtain ⟨t, known, rfl⟩ := root_of_name unreserved block root
    exact (rootTypes_isClosed t known _ declared).result
  | argument block root declared given unscaled =>
    obtain ⟨t, known, rfl⟩ := root_of_name unreserved block root
    exact ((rootTypes_isClosed t known _ declared).arguments _ given).resolve_left unscaled
  | item block declared many => exact item_defined block declared many
  | link member related =>
    obtain ⟨target, found, stored⟩ := passes.target member related
    obtain ⟨known, named⟩ := mem_of_modelNamed found
    refine link_defined (listed.mpr known) named ?_
    cases engine : target.engine <;> simp_all [Model.isRateLimited, EngineKind.isStored]

def writer : Value := .object [
  ("name", .text "Writer"), ("properties", .object [("id", .object [("type", .text "ID")])]),
  ("dataSource", .object [("type", .text "database"), ("engine", .text "nosql")]),
  ("relationships", .object [
    ("notes", .object [("type", .text "hasMany"), ("target", .text "Note")])])]

def writersNote : Value := .object [
  ("name", .text "Note"),
  ("properties", .object [
    ("id", .object [("type", .text "ID")]), ("writerId", .object [("type", .text "ID")])]),
  ("dataSource", .object [("type", .text "database"), ("engine", .text "nosql")])]

theorem used_types_defined_writer :
    ∃ m n, Model.decode writer = .ok m ∧ Model.decode writersNote = .ok n ∧
      Review.Passes .default [m, n] [] ∧
      (Schema.document .default [m, n]).Defines .object "NoteConnection" := by
  obtain ⟨m, n, first, second, related, harmless⟩ : ∃ m n, Model.decode writer = .ok m ∧
      Model.decode writersNote = .ok n ∧
      m.relationships = [("notes", ⟨.hasMany, "Note", none⟩)] ∧
      ∀ f ∈ Review.all .default [m, n] [], f.level ≠ .error :=
    ⟨_, _, rfl, rfl, rfl, by decide +kernel⟩
  have passes : Review.Passes .default [m, n] [] := Report.isValid_ofFindings.mpr harmless
  have member : m ∈ [m, n] := List.mem_cons_self
  have used := Schema.uses_link .default member (related ▸ List.mem_singleton_self _)
  exact ⟨m, n, first, second, passes, used_types_defined passes used⟩

end ApiLoom
