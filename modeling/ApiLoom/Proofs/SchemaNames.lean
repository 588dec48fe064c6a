import ApiLoom.Proofs.Collisions

/-!
# Names in the schema

Which types and fields the schema of a reviewed set declares twice.  A type only where
a model is named for an input type, and a field only where names of root fields meet or
a local time has the name of another field.
-/

namespace ApiLoom

/-! ### Types of the schema -/

/-- What a type of the schema is for. -/
inductive TypeRole where
  | record (model : String)
  | page (model : String)
  | input (model : String) (field : RootField)
  | platform (name : String)
deriving DecidableEq, Repr

/-- The types that belong to no model. -/
def platformTypes : List String := Naming.jobResultType :: rootTypeNames

namespace TypeRole

def name : TypeRole → String
  | record model => model
  | page model => Naming.connectionType model
  | input model field => Naming.inputType model field
  | platform name => name

def IsProper : TypeRole → Prop
  | record model => model ∉ platformTypes
  | platform name => name ∈ platformTypes
  | _ => True

/-- A model is named like a type that another one generates. -/
inductive Clashes : TypeRole → TypeRole → Prop where
  | page (a : String) : Clashes (record (Naming.connectionType a)) (page a)
  | input (a : String) (f : RootField) : Clashes (record (Naming.inputType a f)) (input a f)

theorem connectionType_ne_platform (a : String) : Naming.connectionType a ∉ platformTypes := by
  intro member
  simp only [platformTypes, rootTypeNames, Naming.jobResultType, List.mem_cons, List.not_mem_nil,
    or_false] at member
  rcases member with same | same | same | same
  all_goals
    have ends := congrArg (fun s => s.toList.reverse) same
    simp [Naming.connectionType] at ends

theorem inputType_ne_platform (a : String) (f : RootField) :
    Naming.inputType a f ∉ platformTypes := by
  intro member
  simp only [platformTypes, rootTypeNames, Naming.jobResultType, List.mem_cons, List.not_mem_nil,
    or_false] at member
  rcases member with same | same | same | same
  all_goals
    have ends := congrArg (fun s => s.toList.reverse) same
    simp [Naming.inputType] at ends

/-- Two types with one name are the same type, or they clash. -/
theorem clashes_of_name {x y : TypeRole} (proper : x.IsProper) (sound : y.IsProper)
    (same : x.name = y.name) : x = y ∨ Clashes x y ∨ Clashes y x := by
  cases x with
  | record a =>
    cases y with
    | record b => exact Or.inl (congrArg record same)
    | page b =>
      obtain rfl : a = Naming.connectionType b := same
      exact Or.inr (Or.inl (.page b))
    | input b g =>
      obtain rfl : a = Naming.inputType b g := same
      exact Or.inr (Or.inl (.input b g))
    | platform n =>
      obtain rfl : a = n := same
      exact absurd sound proper
  | page a =>
    cases y with
    | record b =>
      obtain rfl : Naming.connectionType a = b := same
      exact Or.inr (Or.inr (.page a))
    | page b => exact Or.inl (congrArg page (Naming.connectionType_inj.mp same))
    | input b g => exact absurd same.symm Naming.inputType_ne_connectionType
    | platform n =>
      obtain rfl : Naming.connectionType a = n := same
      exact absurd sound (connectionType_ne_platform a)
  | input a f =>
    cases y with
    | record b =>
      obtain rfl : Naming.inputType a f = b := same
      exact Or.inr (Or.inr (.input a f))
    | page b => exact absurd same Naming.inputType_ne_connectionType
    | input b g =>
      obtain ⟨rfl, rfl⟩ := Naming.inputType_inj.mp same
      exact Or.inl rfl
    | platform n =>
      obtain rfl : Naming.inputType a f = n := same
      exact absurd sound (inputType_ne_platform a f)
  | platform n =>
    cases y with
    | record b =>
      obtain rfl : n = b := same
      exact absurd proper sound
    | page b =>
      obtain rfl : n = Naming.connectionType b := same
      exact absurd proper (connectionType_ne_platform b)
    | input b g =>
      obtain rfl : n = Naming.inputType b g := same
      exact absurd proper (inputType_ne_platform b g)
    | platform k => exact Or.inl (congrArg platform same)

/-- The model that a type belongs to, if there is one. -/
def model? : TypeRole → Option String
  | record model | page model | input model _ => some model
  | platform _ => none

end TypeRole

/-! ### Types of a set -/

def Model.typeRoles (m : Model) : List TypeRole :=
  .record m.name :: (if m.isRateLimited then [] else [.page m.name]) ++
    RootField.writes.map (.input m.name)

/-- The types beside those of the models: each root type that has a field, and that of results. -/
def platformRoles (config : Config) (models : List Model) : List String :=
  ((Schema.rootTypes config models).filter fun t => !t.2.isEmpty).map (·.1) ++
    if models.any Model.isRateLimited then [Naming.jobResultType] else []

def typeRoles (config : Config) (models : List Model) : List TypeRole :=
  models.flatMap Model.typeRoles ++ (platformRoles config models).map .platform

/-- No model is named like an input type. -/
def InputNamesApart (models : List Model) : Prop :=
  ∀ m ∈ models, ∀ n ∈ models, ∀ f ∈ RootField.writes, m.name ≠ Naming.inputType n.name f

namespace Model

variable {m : Model} {x : TypeRole}

theorem mem_typeRoles : x ∈ m.typeRoles ↔
    x = .record m.name ∨ (m.isRateLimited = false ∧ x = .page m.name) ∨
      ∃ f ∈ RootField.writes, x = .input m.name f := by
  unfold typeRoles
  cases m.isRateLimited <;> simp [eq_comm (a := x)]

theorem typeRole_model? (member : x ∈ m.typeRoles) : x.model? = some m.name := by
  rcases mem_typeRoles.mp member with rfl | ⟨_, rfl⟩ | ⟨f, _, rfl⟩
  all_goals rfl

theorem typeRoles_nodup (m : Model) : m.typeRoles.Nodup := by
  unfold typeRoles
  cases m.isRateLimited <;> simp [RootField.writes]

theorem modelBlocks_names (config : Config) (m : Model) :
    (Schema.modelBlocks config m).map (·.name) = m.typeRoles.map TypeRole.name := by
  unfold Schema.modelBlocks typeRoles
  cases m.isRateLimited <;> rfl

end Model

section Sets

variable {config : Config} {models : List Model}

theorem block_names (config : Config) (models : List Model) :
    (Schema.documentOf config models).blocks.map (·.name) =
      (typeRoles config models).map TypeRole.name := by
  have roots : ∀ types : List (String × List Schema.Field),
      (types.flatMap fun t => Schema.rootBlock t.1 t.2).map (·.name) =
        (types.filter fun t => !t.2.isEmpty).map (·.1) := by
    intro types
    induction types with
    | nil => rfl
    | cons t rest ih =>
      rw [List.flatMap_cons, List.map_append, ih, Schema.rootBlock]
      cases empty : t.2.isEmpty <;> simp [empty]
  have platform (names : List String) :
      (names.map TypeRole.platform).map TypeRole.name = names := by
    rw [List.map_map]
    exact List.map_id names
  rw [Schema.documentOf_blocks, typeRoles, platformRoles]
  simp only [List.map_append, List.map_flatMap, Model.modelBlocks_names, platform, roots,
    List.append_assoc]
  split <;> rfl

theorem platformRoles_subset : ∀ n ∈ platformRoles config models, n ∈ platformTypes := by
  intro n member
  rcases List.mem_append.mp member with root | results
  · obtain ⟨t, kept, rfl⟩ := List.mem_map.mp root
    have listed := List.mem_map_of_mem (f := fun t => t.1) (List.mem_of_mem_filter kept)
    exact List.mem_cons_of_mem _ listed
  · split at results
    · obtain rfl := List.mem_singleton.mp results
      exact List.mem_cons_self
    · cases results

theorem platformRoles_nodup (config : Config) (models : List Model) :
    (platformRoles config models).Nodup := by
  have roots : (((Schema.rootTypes config models).filter fun t => !t.2.isEmpty).map
      (·.1)).Sublist rootTypeNames := List.filter_sublist.map _
  have distinct : rootTypeNames.Nodup := by decide
  refine (distinct.sublist roots).append (by split <;> simp) fun n root results => ?_
  split at results
  · obtain rfl := List.mem_singleton.mp results
    exact absurd (roots.subset root) (by decide)
  · cases results

theorem typeRoles_nodup (names : (models.map (·.name)).Nodup) :
    (typeRoles config models).Nodup := by
  have own : (models.flatMap Model.typeRoles).Nodup := by
    refine List.nodup_flatMap.mpr ⟨fun m _ => m.typeRoles_nodup, ?_⟩
    refine (List.pairwise_map.mp names).imp fun {m n} different x first second => different ?_
    exact Option.some.inj ((Model.typeRole_model? first).symm.trans (Model.typeRole_model? second))
  have platform := (platformRoles_nodup config models).map
    fun a b same => TypeRole.platform.inj same
  refine own.append platform fun x first second => ?_
  obtain ⟨m, _, listed⟩ := List.mem_flatMap.mp first
  obtain ⟨n, _, rfl⟩ := List.mem_map.mp second
  cases Model.typeRole_model? listed

theorem exists_of_typeRole {a : String} {x : TypeRole} (member : x ∈ typeRoles config models)
    (owned : x.model? = some a) : ∃ m ∈ models, m.name = a ∧ x ∈ m.typeRoles := by
  rcases List.mem_append.mp member with own | platform
  · obtain ⟨m, listed, role⟩ := List.mem_flatMap.mp own
    exact ⟨m, listed, Option.some.inj ((Model.typeRole_model? role).symm.trans owned), role⟩
  · obtain ⟨n, _, rfl⟩ := List.mem_map.mp platform
    cases owned

theorem typeRole_isProper (unreserved : ∀ m ∈ models, m.name ∉ Review.reservedTypes)
    {x : TypeRole} (member : x ∈ typeRoles config models) : x.IsProper := by
  cases x with
  | record a =>
    obtain ⟨m, listed, rfl, _⟩ := exists_of_typeRole member rfl
    have reserved : ∀ name ∈ platformTypes, name ∈ Review.reservedTypes := by decide
    exact fun platform => unreserved m listed (reserved _ platform)
  | platform n =>
    rcases List.mem_append.mp member with own | platform
    · obtain ⟨m, _, listed⟩ := List.mem_flatMap.mp own
      cases Model.typeRole_model? listed
    · obtain ⟨k, listed, same⟩ := List.mem_map.mp platform
      exact TypeRole.platform.inj same ▸ platformRoles_subset k listed
  | _ => trivial

/-- A reviewed set declares each type once if no model is named like an input type. -/
theorem block_names_nodup (config : Config) (names : (models.map (·.name)).Nodup)
    (unreserved : ∀ m ∈ models, m.name ∉ Review.reservedTypes)
    (unpaged : ∀ m ∈ models, ∀ n ∈ models, n.name ≠ Naming.connectionType m.name) :
    ((Schema.documentOf config models).blocks.map (·.name)).Nodup ↔ InputNamesApart models := by
  rw [block_names, List.nodup_map_iff_inj_on (typeRoles_nodup names)]
  have own {m : Model} (listed : m ∈ models) {x : TypeRole} (role : x ∈ m.typeRoles) :
      x ∈ typeRoles config models :=
    List.mem_append_left _ (List.mem_flatMap.mpr ⟨m, listed, role⟩)
  constructor
  · intro injective m listed n member f writes clash
    have record := own listed (Model.mem_typeRoles.mpr (Or.inl rfl))
    have input := own member (Model.mem_typeRoles.mpr (Or.inr (Or.inr ⟨f, writes, rfl⟩)))
    cases injective _ record _ input clash
  · intro apart x first y second same
    have unmet {x y : TypeRole} (first : x ∈ typeRoles config models)
        (second : y ∈ typeRoles config models) : ¬ x.Clashes y := by
      intro clashes
      cases clashes with
      | page a =>
        obtain ⟨n, listed, named, _⟩ := exists_of_typeRole first rfl
        obtain ⟨m, member, rfl, _⟩ := exists_of_typeRole second rfl
        exact unpaged m member n listed named
      | input a f =>
        obtain ⟨n, listed, named, _⟩ := exists_of_typeRole first rfl
        obtain ⟨m, member, rfl, role⟩ := exists_of_typeRole second rfl
        rcases Model.mem_typeRoles.mp role with same | ⟨_, same⟩ | ⟨g, writes, same⟩
        · cases same
        · cases same
        · obtain ⟨_, rfl⟩ := TypeRole.input.inj same
          exact apart n listed m member f writes named
    rcases TypeRole.clashes_of_name (typeRole_isProper unreserved first)
      (typeRole_isProper unreserved second) same with same | clashes | clashes
    · exact same
    · exact absurd clashes (unmet first second)
    · exact absurd clashes (unmet second first)

end Sets

/-! ### Fields of a model -/

def Schema.Block.fieldNames (b : Schema.Block) : List String := b.fields.map (·.name)

namespace Model

variable {m : Model} {config : Config}

/-- No local time has the name of another field. -/
def LocalTimesApart (m : Model) (config : Config) : Prop :=
  ∀ t ∈ m.localTimeFields config, m.hasProperty (Naming.localTimeField t) = false ∧
    Naming.localTimeField t ∉ m.relationships.map fun r => r.1

theorem localTimeFields_sublist (m : Model) (config : Config) :
    (m.localTimeFields config).Sublist m.propertyNames := by
  unfold localTimeFields
  split
  · exact List.filter_sublist.map _
  · exact List.nil_sublist _

theorem relationshipFields_names (m : Model) :
    (Schema.relationshipFields m).map (·.name) = m.relationships.map fun r => r.1 := by
  rw [Schema.relationshipFields, List.map_map]
  refine List.map_congr_left fun r _ => ?_
  cases kind : r.2.kind <;> simp [Schema.relationshipField, kind, Schema.Field.plain]

theorem typeBlock_fieldNames (config : Config) (m : Model) :
    (Schema.typeBlock config m).fieldNames =
      m.propertyNames ++ (m.localTimeFields config).map Naming.localTimeField ++
        m.relationships.map fun r => r.1 := by
  rw [Schema.Block.fieldNames, Schema.typeBlock, List.map_append, List.map_append,
    relationshipFields_names, List.map_map, Schema.localTimeFields, List.map_map]
  rfl

theorem typeBlock_nodup (properties : m.propertyNames.Nodup)
    (relationships : (m.relationships.map fun r => r.1).Nodup)
    (unshadowed : ∀ r ∈ m.relationships, m.hasProperty r.1 = false) :
    (Schema.typeBlock config m).fieldNames.Nodup ↔ m.LocalTimesApart config := by
  have times : ((m.localTimeFields config).map Naming.localTimeField).Nodup :=
    (properties.sublist (m.localTimeFields_sublist config)).map
      fun a b same => Naming.localTimeField_inj.mp same
  have declared {name : String} : m.hasProperty name = false ↔ name ∉ m.propertyNames := by
    simp [hasProperty]
  rw [typeBlock_fieldNames, List.nodup_append', List.nodup_append']
  constructor
  · rintro ⟨⟨_, _, shadowed⟩, _, related⟩ t member
    have listed := List.mem_map_of_mem (f := Naming.localTimeField) member
    refine ⟨declared.mpr fun property => shadowed property listed, fun relationship => ?_⟩
    exact related (List.mem_append_right _ listed) relationship
  · intro apart
    refine ⟨⟨properties, times, fun name property time => ?_⟩, relationships, ?_⟩
    · obtain ⟨t, member, rfl⟩ := List.mem_map.mp time
      exact declared.mp (apart t member).1 property
    · intro name earlier related
      rcases List.mem_append.mp earlier with property | time
      · obtain ⟨r, member, rfl⟩ := List.mem_map.mp related
        exact declared.mp (unshadowed r member) property
      · obtain ⟨t, member, rfl⟩ := List.mem_map.mp time
        exact (apart t member).2 related

/-- The types of a model declare each field once, apart from its local times. -/
theorem modelBlocks_nodup (properties : m.propertyNames.Nodup)
    (relationships : (m.relationships.map fun r => r.1).Nodup)
    (unshadowed : ∀ r ∈ m.relationships, m.hasProperty r.1 = false) :
    (∀ b ∈ Schema.modelBlocks config m, b.fieldNames.Nodup) ↔ m.LocalTimesApart config := by
  have writable : ((m.writableProperties config).map (·.name)).Nodup :=
    properties.sublist (List.filter_sublist.map _)
  have page : (Schema.connectionBlock m).fieldNames.Nodup := by
    simp [Schema.connectionBlock, Schema.Block.fieldNames, Schema.Field.plain]
  have create : (Schema.createInput config m).fieldNames.Nodup := by
    rw [Schema.Block.fieldNames, Schema.createInput, List.map_map]
    exact writable.sublist (List.filter_sublist.map _)
  have update : (Schema.updateInput config m).fieldNames.Nodup := by
    rw [Schema.Block.fieldNames, Schema.updateInput, List.map_cons, List.map_map]
    refine List.nodup_cons.mpr ⟨fun identifier => ?_, writable⟩
    obtain ⟨p, listed, same⟩ := List.mem_map.mp identifier
    have unmanaged := (List.mem_filter.mp listed).2
    have named : p.name = config.identifierField := same
    simp [isManaged, named] at unmanaged
  have delete : (Schema.deleteInput config m).fieldNames.Nodup := List.nodup_singleton _
  rw [← typeBlock_nodup properties relationships unshadowed]
  constructor
  · intro each
    exact each _ (by simp [Schema.modelBlocks])
  · intro record b member
    simp only [Schema.modelBlocks, List.mem_append, List.mem_cons, List.not_mem_nil, or_false]
      at member
    rcases member with (rfl | paged) | rfl | rfl | rfl
    · exact record
    · split at paged
      · cases paged
      · exact List.mem_singleton.mp paged ▸ page
    · exact create
    · exact update
    · exact delete

end Model

/-! ### Root fields -/

section Roots

variable {config : Config} {models : List Model}

theorem surface_nodup_iff (config : Config) (names : (models.map (·.name)).Nodup)
    (relationships : ∀ m ∈ models, (m.relationships.map fun r => r.1).Nodup)
    (unreserved : ∀ m ∈ models, m.name ∉ Review.reservedTypes) :
    (Schema.surface config models).Nodup ↔ RootNamesApart models := by
  rw [(Schema.surface_perm_apiFields config models).nodup_iff,
    List.nodup_map_iff_inj_on (apiFields_nodup names relationships)]
  constructor
  · exact rootNamesApart_of_injective names
  · intro apart x first y second same
    exact place_injective unreserved apart first second same

theorem places_nodup_iff {type : String} {fields : List Schema.Field} :
    (Schema.places type fields).Nodup ↔ (fields.map (·.name)).Nodup := by
  have places : Schema.places type fields = (fields.map (·.name)).map (Prod.mk type) := by
    rw [List.map_map]
    rfl
  rw [places, List.nodup_map_iff fun a b same => (Prod.mk.inj same).2]

/-- The root types declare each field once if the names of root fields are apart. -/
theorem rootTypes_nodup_iff (names : (models.map (·.name)).Nodup)
    (relationships : ∀ m ∈ models, (m.relationships.map fun r => r.1).Nodup)
    (unreserved : ∀ m ∈ models, m.name ∉ Review.reservedTypes) :
    (∀ t ∈ Schema.rootTypes config models, (t.2.map (·.name)).Nodup) ↔ RootNamesApart models := by
  rw [← surface_nodup_iff config names relationships unreserved, Schema.surface,
    List.nodup_append']
  have typed {type : String} {fields : List Schema.Field} {p : FieldPlace}
      (member : p ∈ Schema.places type fields) : p.1 = type := by
    obtain ⟨f, _, rfl⟩ := List.mem_map.mp member
    rfl
  constructor
  · intro each
    refine ⟨List.nodup_flatMap.mpr
      ⟨fun t member => places_nodup_iff.mpr (each t member), ?_⟩, ?_, ?_⟩
    · have distinct : ((Schema.rootTypes config models).map (·.1)).Nodup :=
        (by decide : rootTypeNames.Nodup)
      refine (List.pairwise_map.mp distinct).imp fun {s t} different p first second => different ?_
      exact (typed first).symm.trans (typed second)
    · refine List.nodup_flatMap.mpr ⟨fun m member => ?_, ?_⟩
      · rw [places_nodup_iff, Model.relationshipFields_names]
        exact relationships m member
      · refine (List.pairwise_map.mp names).imp fun {m n} different p first second => different ?_
        exact (typed first).symm.trans (typed second)
    · intro p root link
      obtain ⟨t, listed, rooted⟩ := List.mem_flatMap.mp root
      obtain ⟨m, member, linked⟩ := List.mem_flatMap.mp link
      have same : t.1 = m.name := (typed rooted).symm.trans (typed linked)
      have reserved : ∀ name ∈ rootTypeNames, name ∈ Review.reservedTypes := by decide
      exact unreserved m member (same ▸ reserved _ (List.mem_map_of_mem (f := fun t => t.1) listed))
  · rintro ⟨roots, _⟩ t member
    exact places_nodup_iff.mp ((List.nodup_flatMap.mp roots).1 t member)

end Roots

/-! ### The whole schema -/

theorem RootNamesApart.perm {models sorted : List Model} (order : sorted.Perm models) :
    RootNamesApart sorted ↔ RootNamesApart models := by
  have along {ms ns : List Model} (order : ms.Perm ns) (apart : RootNamesApart ms) :
      RootNamesApart ns :=
    ⟨(order.map _).nodup_iff.mp apart.plurals, fun m listed queued n member =>
      apart.results m (order.mem_iff.mpr listed) queued n (order.mem_iff.mpr member)⟩
  exact ⟨along order, along order.symm⟩

theorem documentOf_fields_nodup {config : Config} {models : List Model} :
    (∀ b ∈ (Schema.documentOf config models).blocks, b.fieldNames.Nodup) ↔
      (∀ t ∈ Schema.rootTypes config models, (t.2.map (·.name)).Nodup) ∧
        ∀ m ∈ models, ∀ b ∈ Schema.modelBlocks config m, b.fieldNames.Nodup := by
  have results : Schema.jobResultBlock.fieldNames.Nodup := by decide
  rw [Schema.documentOf_blocks]
  constructor
  · intro each
    refine ⟨fun t member => ?_, fun m member b listed => ?_⟩
    · by_cases empty : t.2.isEmpty = true
      · rw [List.isEmpty_iff.mp empty]
        exact List.nodup_nil
      · refine each ⟨.object, t.1, t.2⟩ (List.mem_append_left _ (List.mem_append_right _ ?_))
        refine List.mem_flatMap.mpr ⟨t, member, ?_⟩
        rw [Schema.rootBlock, if_neg empty]
        exact List.mem_singleton_self _
    · refine each b (List.mem_append_left _ (List.mem_append_left _ ?_))
      exact List.mem_flatMap.mpr ⟨m, member, listed⟩
  · rintro ⟨roots, own⟩ b member
    rcases List.mem_append.mp member with earlier | last
    · rcases List.mem_append.mp earlier with modelled | rooted
      · obtain ⟨m, listed, block⟩ := List.mem_flatMap.mp modelled
        exact own m listed b block
      · obtain ⟨t, listed, block⟩ := List.mem_flatMap.mp rooted
        rw [Schema.rootBlock] at block
        split at block
        · cases block
        · obtain rfl := List.mem_singleton.mp block
          exact roots t listed
    · split at last
      · exact List.mem_singleton.mp last ▸ results
      · cases last

/-- In the schema of a reviewed set, a type is declared twice only where a model is named like an
input type, and a field only where names of root fields meet or a local time is named like another
field.  The types are the `blocks` of the document and the fields their `fieldNames`.  Scalar
declarations are raw texts beside the blocks, and may hold any lines. -/
theorem declared_once_iff {config : Config} {models : List Model} {seeds : Review.SeedData}
    (read : ∀ m ∈ models, m.IsRead) (passes : Review.Passes config models seeds) :
    (((Schema.document config models).blocks.map (·.name)).Nodup ↔ InputNamesApart models) ∧
      ((∀ b ∈ (Schema.document config models).blocks, b.fieldNames.Nodup) ↔
        RootNamesApart models ∧ ∀ m ∈ models, m.LocalTimesApart config) := by
  have order := Schema.perm_sortedModels models
  have listed {m : Model} : m ∈ Schema.sortedModels models ↔ m ∈ models := order.mem_iff
  obtain ⟨names, unreserved⟩ := passes.names
  have apart : ((Schema.sortedModels models).map (·.name)).Nodup :=
    (order.map _).nodup_iff.mpr names
  have fresh : ∀ m ∈ Schema.sortedModels models, m.name ∉ Review.reservedTypes :=
    fun m member => unreserved m (listed.mp member)
  have relationships : ∀ m ∈ Schema.sortedModels models,
      (m.relationships.map fun r => r.1).Nodup :=
    fun m member => (read m (listed.mp member)).relationships_nodup
  constructor
  · have types := block_names_nodup config apart fresh fun m member n other =>
      passes.ne_connectionType (listed.mp member) (listed.mp other)
    rw [Schema.document, types]
    simp only [InputNamesApart, listed]
  · rw [Schema.document, documentOf_fields_nodup, rootTypes_nodup_iff apart relationships fresh,
      RootNamesApart.perm order]
    refine and_congr_right fun _ => ?_
    simp only [listed]
    refine forall₂_congr fun m member => ?_
    exact Model.modelBlocks_nodup (read m member).propertyNames_nodup
      (read m member).relationships_nodup fun r related => passes.not_hasProperty member related

theorem declared_twice_createPostInput :
    ∃ m n, Model.decode (storedModel "Post") = .ok m ∧
      Model.decode (storedModel "CreatePostInput") = .ok n ∧ Review.Passes .default [m, n] [] ∧
      ¬ ((Schema.document .default [m, n]).blocks.map (·.name)).Nodup ∧
      ∀ b ∈ (Schema.document .default [m, n]).blocks, b.fieldNames.Nodup := by
  obtain ⟨m, n, first, second, named, other, stored, related, harmless⟩ : ∃ m n,
      Model.decode (storedModel "Post") = .ok m ∧
      Model.decode (storedModel "CreatePostInput") = .ok n ∧ m.name = "Post" ∧
      n.name = "CreatePostInput" ∧ (m.isRateLimited = false ∧ n.isRateLimited = false) ∧
      (m.localTimeFields .default = [] ∧ n.localTimeFields .default = []) ∧
      ∀ f ∈ Review.all .default [m, n] [], f.level ≠ .error :=
    ⟨_, _, rfl, rfl, rfl, rfl, ⟨rfl, rfl⟩, ⟨rfl, rfl⟩, by decide +kernel⟩
  have read : ∀ x ∈ [m, n], x.IsRead := by
    intro x member
    simp only [List.mem_cons, List.not_mem_nil, or_false] at member
    rcases member with rfl | rfl
    · exact ⟨_, storedModel_keyed _, first⟩
    · exact ⟨_, storedModel_keyed _, second⟩
  have passes : Review.Passes .default [m, n] [] := Report.isValid_ofFindings.mpr harmless
  obtain ⟨types, fields⟩ := declared_once_iff read passes
  refine ⟨m, n, first, second, passes, fun once => ?_, fields.mpr ⟨⟨?_, ?_⟩, ?_⟩⟩
  · have apart := types.mp once n (by simp) m (by simp) .create (by decide)
    rw [named, other] at apart
    exact apart rfl
  · simp only [List.map_cons, List.map_nil, named, other]
    decide +kernel
  · simp [stored]
  · simp [Model.LocalTimesApart, related]

end ApiLoom
