import ApiLoom.Proofs.Compiled
import ApiLoom.Proofs.Decoded

/-!
# When generation fails

A set of models cannot be generated when a relational model has no cluster, a queued
model would have to look at the owner of a stored record, or a relationship leads nowhere
or to a third party.  The review finds each of these.  It does not find that a limit of a
queued model is too long to be written, where generation breaks off; a reviewed set
without such a limit always compiles.
-/

namespace ApiLoom

/-! ### Where no template exists -/

/-- The reasons for which nothing can be generated for a set of models. -/
inductive Ungenerable (config : Config) (models : List Model) : Prop where
  | noCluster {m : Model} (member : m ∈ models) (relational : m.engine = .relational)
      (undeclared : sharedCluster models config = none)
  | ownedQueue {m : Model} {access : AccessControl} {owner : String} {operation : Operation}
      (member : m ∈ models) (queued : m.isRateLimited = true) (owned : m.ownerField = some owner)
      (guarded : m.accessControl = some access) (fetched : operation ∈ Review.fetchedOperations)
      (ruled : access.hasOwnerRule operation = true)
  | unknownTarget {m : Model} {field : String} {r : Relationship} (member : m ∈ models)
      (related : (field, r) ∈ m.relationships) (unknown : ∀ t ∈ models, t.name ≠ r.target)
  | thirdParty {m target : Model} {field : String} {r : Relationship} (member : m ∈ models)
      (related : (field, r) ∈ m.relationships) (found : modelNamed models r.target = some target)
      (outside : target.engine = .http ∨ target.engine = .queued)

theorem modelNamed_eq_none_iff {models : List Model} {name : String} :
    modelNamed models name = none ↔ ∀ t ∈ models, t.name ≠ name := by
  simp [modelNamed]

theorem mem_of_modelNamed {models : List Model} {name : String} {m : Model}
    (found : modelNamed models name = some m) : m ∈ models ∧ m.name = name := by
  have listed := List.mem_of_find?_eq_some found
  have named := List.find?_some found
  exact ⟨List.mem_reverse.mp listed, by simpa using named⟩

theorem isStored_eq_false_iff {engine : EngineKind} :
    engine.isStored = false ↔ engine = .http ∨ engine = .queued := by
  cases engine <;> simp [EngineKind.isStored]

/-! ### Numbers that cannot be written -/

def DataSource.limits? : DataSource → Option RateLimit
  | database .. => none
  | thirdPartyApi _ limits => limits

/-- A limit of the model is too long to be written. -/
def Model.HasLongLimit (m : Model) : Prop :=
  ∃ limits, m.dataSource.limits? = some limits ∧ limits.isWritable = false

instance (m : Model) : Decidable m.HasLongLimit :=
  decidable_of_iff (m.dataSource.limits?.any fun limits => !limits.isWritable)
    (by simp [Model.HasLongLimit, Option.any_eq_true])

/-- A model whose records are stored has no limits. -/
theorem Model.not_hasLongLimit_of_isStored {m : Model} (stored : m.engine.isStored = true) :
    ¬ m.HasLongLimit := by
  rintro ⟨limits, limited, _⟩
  cases source : m.dataSource with
  | database engine own =>
    rw [source] at limited
    cases limited
  | thirdPartyApi endpoint limits =>
    cases limits <;> simp [engine, source, DataSource.engine, EngineKind.isStored] at stored

/-- What is refused is refused for a reason, and what breaks off has another. -/
def GenerationFailure.HasReason (refuses breaks : Prop) : GenerationFailure → Prop
  | refused _ => refuses
  | broken _ => breaks

namespace GenerationFailure.HasReason

variable {refuses breaks refuses' breaks' : Prop} {failure : GenerationFailure}

theorem or (reason : failure.HasReason refuses breaks) : refuses ∨ breaks := by
  cases failure with
  | refused e => exact Or.inl reason
  | broken fault => exact Or.inr reason

theorem imp (reason : failure.HasReason refuses breaks) (first : refuses → refuses')
    (second : breaks → breaks') : failure.HasReason refuses' breaks' := by
  cases failure with
  | refused e => exact first reason
  | broken fault => exact second reason

end GenerationFailure.HasReason

/-! ### One model -/

theorem Binding.forModel_reason {m : Model} {cluster : Option Cluster} {config : Config}
    {failure : GenerationFailure} (failed : forModel m cluster config = .error failure) :
    failure.HasReason (m.engine = .relational ∧ cluster = none) m.HasLongLimit := by
  have binds := forModel_binds m cluster config
  rw [failed] at binds
  cases binds with
  | noCluster source unclustered => exact ⟨by rw [Model.engine, source]; rfl, unclustered⟩
  | unwritten source long => exact ⟨_, by rw [source]; rfl, long⟩

theorem Binding.forModel_error_iff {m : Model} {cluster : Option Cluster} (config : Config) :
    (∃ failure, Binding.forModel m cluster config = .error failure) ↔
      m.engine = .relational ∧ cluster = none ∨ m.HasLongLimit := by
  refine ⟨fun ⟨_, failed⟩ => (forModel_reason failed).or, fun reason => ?_⟩
  cases bound : forModel m cluster config with
  | error failure => exact ⟨failure, rfl⟩
  | ok binding =>
    rcases reason with ⟨relational, unclustered⟩ | ⟨limits, limited, long⟩ <;>
      cases forModel_ok bound <;>
      simp_all [Model.engine, DataSource.engine, DataSource.limits?]

namespace Model

variable {m : Model} {config : Config} {cluster : Option Cluster} {field : RootField}
  {binding : Binding}

theorem fetchByKey_ok (config : Config) (key : String) (unqueued : m.isRateLimited = false) :
    ∃ fetch, m.fetchByKey config key = .ok fetch := by
  unfold fetchByKey
  cases engine : m.engine <;> simp_all [isRateLimited]

theorem preFetchStage_ok (unqueued : m.isRateLimited = false) :
    ∃ stages, m.preFetchStage config field binding = .ok stages := by
  unfold preFetchStage
  split
  · next preFetch _ _ =>
    obtain ⟨fetch, fetched⟩ := fetchByKey_ok config preFetch.keyExpression unqueued
    simp [fetched]
  · simp

theorem preFetchStage_ok_of_unguarded (unguarded : m.guardedOwner field.operation = none) :
    m.preFetchStage config field binding = .ok [] := by
  simp [preFetchStage, preFetch, unguarded]

theorem resolverWith_error_iff :
    (∃ failure, m.resolverWith config field binding = .error failure) ↔
      m.isRateLimited = true ∧ (m.guardedOwner field.operation).isSome = true := by
  unfold resolverWith
  by_cases refused : (m.isRateLimited && (m.guardedOwner field.operation).isSome) = true
  · simp only [refused, if_true, Except.error.injEq, exists_eq', true_iff]
    simpa using refused
  · have accepted : ¬(m.isRateLimited = true ∧ (m.guardedOwner field.operation).isSome = true) := by
      simpa using refused
    have staged : ∃ stages, m.preFetchStage config field binding = .ok stages := by
      cases queued : m.isRateLimited with
      | false => exact preFetchStage_ok queued
      | true => exact ⟨[], preFetchStage_ok_of_unguarded (by simpa [queued] using accepted)⟩
    obtain ⟨stages, staged⟩ := staged
    simp only [if_neg refused, staged, accepted, iff_false]
    split <;> simp

theorem resolverWith_unbroken {fault : MessageFault} :
    m.resolverWith config field binding ≠ .error (.broken fault) := by
  intro broken
  obtain ⟨queued, guarded⟩ := resolverWith_error_iff.mp ⟨_, broken⟩
  simp [resolverWith, queued, guarded] at broken

theorem resolver_reason {failure : GenerationFailure}
    (failed : m.resolver config cluster field = .error failure) :
    failure.HasReason (m.engine = .relational ∧ cluster = none ∨
      m.isRateLimited = true ∧ (m.guardedOwner field.operation).isSome = true) m.HasLongLimit := by
  unfold resolver at failed
  cases bound : Binding.forModel m cluster config with
  | error other =>
    simp only [bound, Except.error.injEq] at failed
    exact failed ▸ (Binding.forModel_reason bound).imp Or.inl id
  | ok binding =>
    simp only [bound] at failed
    cases failure with
    | refused e => exact Or.inr (resolverWith_error_iff.mp ⟨_, failed⟩)
    | broken fault => exact absurd failed resolverWith_unbroken

theorem resolver_error_iff :
    (∃ failure, m.resolver config cluster field = .error failure) ↔
      (m.engine = .relational ∧ cluster = none ∨
        m.isRateLimited = true ∧ (m.guardedOwner field.operation).isSome = true) ∨
        m.HasLongLimit := by
  rw [or_right_comm, ← Binding.forModel_error_iff config]
  unfold resolver
  cases bound : Binding.forModel m cluster config with
  | error e => simp
  | ok binding => simp [resolverWith_error_iff]

theorem traversalTo_eq_none_iff {target : Model} (config : Config) (kind : RelationshipKind)
    (key : String) :
    traversalTo config target kind key = none ↔ target.engine.isStored = false := by
  unfold traversalTo
  cases target.engine <;> simp [EngineKind.isStored]

theorem traversal_reason {lookup : String → Option Model} {name : String} {r : Relationship}
    {failure : GenerationFailure}
    (failed : m.traversal config cluster lookup name r = .error failure) :
    failure.HasReason (lookup r.target = none ∨ ∃ target, lookup r.target = some target ∧
      (target.engine.isStored = false ∨ target.engine = .relational ∧ cluster = none)) False := by
  unfold traversal at failed
  cases found : lookup r.target with
  | none =>
    simp only [found, Except.error.injEq] at failed
    exact failed ▸ Or.inl rfl
  | some target =>
    simp only [found] at failed
    cases reached : traversalTo config target r.kind (foreignKeyOf m r) with
    | none =>
      simp only [reached, Except.error.injEq] at failed
      have outside := (traversalTo_eq_none_iff config r.kind (foreignKeyOf m r)).mp reached
      exact failed ▸ Or.inr ⟨target, rfl, Or.inl outside⟩
    | some plan =>
      simp only [reached] at failed
      cases bound : Binding.forModel target cluster config with
      | ok binding => simp [bound] at failed
      | error other =>
        simp only [bound, Except.error.injEq] at failed
        refine failed ▸ (Binding.forModel_reason bound).imp
          (fun unclustered => Or.inr ⟨target, rfl, Or.inr unclustered⟩)
          (not_hasLongLimit_of_isStored ?_)
        rw [← Bool.not_eq_false, ← traversalTo_eq_none_iff config r.kind (foreignKeyOf m r)]
        simp [reached]

theorem traversal_error_iff {lookup : String → Option Model} {name : String} {r : Relationship} :
    (∃ failure, m.traversal config cluster lookup name r = .error failure) ↔
      lookup r.target = none ∨ ∃ target, lookup r.target = some target ∧
        (target.engine.isStored = false ∨ target.engine = .relational ∧ cluster = none) := by
  refine ⟨fun ⟨_, failed⟩ => (traversal_reason failed).or.resolve_right id, fun reason => ?_⟩
  unfold traversal
  rcases reason with missing | ⟨target, found, outside | unclustered⟩
  · simp [missing]
  · simp [found, (traversalTo_eq_none_iff config r.kind (foreignKeyOf m r)).mpr outside]
  · obtain ⟨failure, failed⟩ := (Binding.forModel_error_iff config).mpr (Or.inl unclustered)
    cases reached : traversalTo config target r.kind (foreignKeyOf m r) <;>
      simp [found, reached, failed]

theorem compileWith_error {lookup : String → Option Model} {indexes : List SecondaryIndex}
    {failure : GenerationFailure}
    (failed : m.compileWith config cluster lookup indexes = .error failure) :
    (∃ field, m.resolver config cluster field = .error failure) ∨
      ∃ r ∈ m.relationships, m.traversal config cluster lookup r.1 r.2 = .error failure := by
  unfold compileWith traversals at failed
  cases resolved : RootField.all.mapM (fun field => m.resolver config cluster field) with
  | error other =>
    simp only [resolved, bind, Except.bind, Except.error.injEq] at failed
    obtain ⟨_, field, _, _, _, fails⟩ := mapM_eq_error_iff.mp resolved
    exact Or.inl ⟨field, failed ▸ fails⟩
  | ok resolvers =>
    cases related : m.relationships.mapM
        (fun r => m.traversal config cluster lookup r.1 r.2) with
    | ok traversals => simp [resolved, related, bind, Except.bind, pure, Except.pure] at failed
    | error other =>
      simp only [resolved, related, bind, Except.bind, Except.error.injEq] at failed
      obtain ⟨before, r, later, split, _, fails⟩ := mapM_eq_error_iff.mp related
      exact Or.inr ⟨r, by simp [split], failed ▸ fails⟩

theorem compileWith_error_iff {lookup : String → Option Model} {indexes : List SecondaryIndex} :
    (∃ e, m.compileWith config cluster lookup indexes = .error e) ↔
      (∃ field, ∃ e, m.resolver config cluster field = .error e) ∨
        ∃ r ∈ m.relationships, ∃ e, m.traversal config cluster lookup r.1 r.2 = .error e := by
  have every : (∃ field, ∃ e, m.resolver config cluster field = .error e) ↔
      ∃ e, RootField.all.mapM (fun field => m.resolver config cluster field) = .error e := by
    rw [mapM_error_iff]
    exact ⟨fun ⟨field, e, failed⟩ => ⟨field, by cases field <;> simp [RootField.all], e, failed⟩,
      fun ⟨field, _, e, failed⟩ => ⟨field, e, failed⟩⟩
  have related := mapM_error_iff (f := fun r => m.traversal config cluster lookup r.1 r.2)
    m.relationships
  rw [every, ← related]
  unfold compileWith traversals
  cases RootField.all.mapM (fun field => m.resolver config cluster field) with
  | error e => simp [bind, Except.bind]
  | ok resolvers =>
    cases m.relationships.mapM (fun r => m.traversal config cluster lookup r.1 r.2) <;>
      simp [bind, Except.bind, pure, Except.pure]

end Model

/-! ### A set of models -/

section Sets

variable {config : Config} {models : List Model}

theorem Model.compile_reason {m : Model} {failure : GenerationFailure} (member : m ∈ models)
    (failed : m.compile config models = .error failure) :
    failure.HasReason (Ungenerable config models) m.HasLongLimit := by
  rcases compileWith_error failed with ⟨field, failed⟩ | ⟨⟨name, r⟩, related, failed⟩
  · refine (resolver_reason failed).imp (fun reason => ?_) id
    rcases reason with ⟨relational, undeclared⟩ | ⟨queued, guarded⟩
    · exact .noCluster member relational undeclared
    · obtain ⟨owner, guarded⟩ := Option.isSome_iff_exists.mp guarded
      obtain ⟨fetched, owned, access, controlled, ruled⟩ := guardedOwner_eq_some_iff.mp guarded
      exact .ownedQueue member queued owned controlled fetched ruled
  · refine (traversal_reason failed).imp (fun reason => ?_) False.elim
    rcases reason with missing | ⟨target, found, outside | unclustered⟩
    · exact .unknownTarget member related (modelNamed_eq_none_iff.mp missing)
    · exact .thirdParty member related found (isStored_eq_false_iff.mp outside)
    · exact .noCluster (mem_of_modelNamed found).1 unclustered.1 unclustered.2

/-- The limits of a model are written before anything else is done for it. -/
theorem Model.compile_of_longLimit {m : Model} (long : m.HasLongLimit) :
    m.compile config models = .error (.broken .longNumber) := by
  have bound {cluster : Option Cluster} :
      Binding.forModel m cluster config = .error (.broken .longNumber) := by
    obtain ⟨limits, limited, long⟩ := long
    have binds := Binding.forModel_binds m cluster config
    generalize Binding.forModel m cluster config = outcome at binds
    cases binds <;> simp_all [DataSource.limits?]
  simp [compile, compileWith, RootField.all, List.mapM_cons, resolver, bound, bind, Except.bind]

theorem Ungenerable.compile_error (ungenerable : Ungenerable config models) :
    ∃ m ∈ models, ∃ failure, m.compile config models = .error failure := by
  cases ungenerable with
  | noCluster member relational undeclared =>
    refine ⟨_, member, Model.compileWith_error_iff.mpr (Or.inl ⟨.get, ?_⟩)⟩
    exact Model.resolver_error_iff.mpr (Or.inl (Or.inl ⟨relational, undeclared⟩))
  | @ownedQueue m access owner operation member queued owned guarded fetched ruled =>
    obtain ⟨field, named⟩ : ∃ field : RootField, field.operation = operation := by
      cases operation with
      | create => exact ⟨.create, rfl⟩
      | read => exact ⟨.get, rfl⟩
      | update => exact ⟨.update, rfl⟩
      | delete => exact ⟨.delete, rfl⟩
    have checked : m.guardedOwner field.operation = some owner :=
      Model.guardedOwner_eq_some_iff.mpr ⟨named ▸ fetched, owned, access, guarded, named ▸ ruled⟩
    refine ⟨m, member, Model.compileWith_error_iff.mpr (Or.inl ⟨field, ?_⟩)⟩
    exact Model.resolver_error_iff.mpr (Or.inl (Or.inr ⟨queued, by simp [checked]⟩))
  | unknownTarget member related unknown =>
    refine ⟨_, member, Model.compileWith_error_iff.mpr (Or.inr ⟨_, related, ?_⟩)⟩
    exact Model.traversal_error_iff.mpr (Or.inl (modelNamed_eq_none_iff.mpr unknown))
  | thirdParty member related found outside =>
    refine ⟨_, member, Model.compileWith_error_iff.mpr (Or.inr ⟨_, related, ?_⟩)⟩
    exact Model.traversal_error_iff.mpr
      (Or.inr ⟨_, found, Or.inl (isStored_eq_false_iff.mpr outside)⟩)

namespace Compilation

theorem build_eq_error_iff {failure : GenerationFailure} :
    build config models = .error failure ↔
      models.mapM (fun m => m.compile config models) = .error failure := by
  unfold build
  cases models.mapM (fun m => m.compile config models) <;>
    simp [bind, Except.bind, pure, Except.pure]

/-- Generation is refused for one of the reasons that there are, or breaks off at a limit. -/
theorem build_reason {failure : GenerationFailure} (failed : build config models = .error failure) :
    failure.HasReason (Ungenerable config models) (∃ m ∈ models, m.HasLongLimit) := by
  obtain ⟨before, m, later, split, _, failed⟩ := mapM_eq_error_iff.mp (build_eq_error_iff.mp failed)
  have member : m ∈ models := by simp [split]
  exact (Model.compile_reason member failed).imp id fun long => ⟨m, member, long⟩

theorem build_error_iff :
    (∃ failure, build config models = .error failure) ↔
      Ungenerable config models ∨ ∃ m ∈ models, m.HasLongLimit := by
  refine ⟨fun ⟨_, failed⟩ => (build_reason failed).or, fun reason => ?_⟩
  have failed : ∃ m ∈ models, ∃ failure, m.compile config models = .error failure := by
    rcases reason with ungenerable | ⟨m, member, long⟩
    · exact ungenerable.compile_error
    · exact ⟨m, member, _, Model.compile_of_longLimit long⟩
  simpa only [build_eq_error_iff] using (mapM_error_iff models).mpr failed

/-- Generation breaks off, at a limit that is too long to be written. -/
structure BreaksOff (config : Config) (models : List Model) : Prop where
  long : ∃ m ∈ models, m.HasLongLimit
  broken : build config models = .error (.broken .longNumber)

theorem not_breaksOff (written : ∀ m ∈ models, ¬ m.HasLongLimit) : ¬ BreaksOff config models :=
  fun ⟨⟨m, member, long⟩, _⟩ => written m member long

/-- What is not refused for any of its models is generated, or breaks off. -/
theorem builds_of_unrefused
    (unrefused : ∀ m ∈ models, ∀ e, m.compile config models ≠ .error (.refused e)) :
    BreaksOff config models ∨ ∃ c, build config models = .ok c := by
  cases built : build config models with
  | ok c => exact Or.inr ⟨c, rfl⟩
  | error failure =>
    cases failure with
    | broken fault =>
      cases fault
      exact Or.inl ⟨build_reason built, built⟩
    | refused e =>
      obtain ⟨before, m, later, split, _, failed⟩ :=
        mapM_eq_error_iff.mp (build_eq_error_iff.mp built)
      exact absurd failed (unrefused m (by simp [split]) e)

end Compilation

end Sets

/-! ### What the review finds -/

theorem Report.isValid_ofFindings {findings : List Finding} :
    (Report.ofFindings findings).isValid = true ↔ ∀ f ∈ findings, f.level ≠ .error := by
  simp [isValid, errors, ofLevel, ofFindings, Finding.issue]

namespace Review

variable {config : Config} {models : List Model} {m : Model}

/-- A finding of the set of models is one of the whole review, whatever the seeds are. -/
theorem mem_all {seeds : SeedData} {f : Finding}
    (found : f ∈ accessControl models ∨ f ∈ dataSources config models ∨ f ∈ relationships models) :
    f ∈ all config models seeds := by
  simp only [all, allOfModels, List.mem_append]
  rcases found with access | sources | related
  · simp [access]
  · simp [sources]
  · simp [related]

theorem noCluster_found (member : m ∈ models) (relational : m.engine = .relational)
    (undeclared : sharedCluster models config = none) :
    Finding.noCluster m.name ∈ dataSources config models :=
  List.mem_flatMap.mpr ⟨m, member, by simp [relational, undeclared]⟩

theorem ownerRuleOnQueue_found {access : AccessControl} {operation : Operation}
    (member : m ∈ models) (queued : m.isRateLimited = true)
    (guarded : m.accessControl = some access)
    (fetched : operation ∈ fetchedOperations) (ruled : access.hasOwnerRule operation = true) :
    Finding.ownerRuleOnQueue m.name operation ∈ accessControl models := by
  refine List.mem_flatMap.mpr ⟨m, member, ?_⟩
  rw [guarded]
  refine List.mem_append_right _ ?_
  rw [if_pos queued]
  exact List.mem_filterMap.mpr ⟨operation, fetched, by simp [ruled]⟩

theorem brokenRelationship_found {field : String} {r : Relationship} (member : m ∈ models)
    (related : (field, r) ∈ m.relationships) (unknown : modelNamed models r.target = none) :
    Finding.brokenRelationship ⟨m.name, field, s!"Target model '{r.target}' not found"⟩ ∈
      relationships models := by
  refine List.mem_append_left _ (List.mem_map_of_mem ?_)
  refine List.mem_flatMap.mpr ⟨m, member, List.mem_filterMap.mpr ⟨(field, r), related, ?_⟩⟩
  simp [relationshipIssue, unknown]

theorem targetNotTraversable_found {field : String} {r : Relationship} {target : Model}
    (member : m ∈ models) (related : (field, r) ∈ m.relationships)
    (found : modelNamed models r.target = some target) (outside : target.engine.isStored = false) :
    Finding.targetNotTraversable m.name field target.name ∈ relationships models := by
  refine List.mem_append_right _ (List.mem_flatMap.mpr ⟨m, member, ?_⟩)
  refine List.mem_flatMap.mpr ⟨(field, r), related, List.mem_append_right _ ?_⟩
  simp [targetFindings, found, outside]

end Review

theorem Ungenerable.reviewed {config : Config} {models : List Model}
    (ungenerable : Ungenerable config models) (seeds : Review.SeedData) :
    (Report.ofFindings (Review.all config models seeds)).isValid = false := by
  have found : ∃ f ∈ Review.all config models seeds, f.level = .error := by
    cases ungenerable with
    | noCluster member relational undeclared =>
      exact ⟨_, Review.mem_all (Or.inr (Or.inl
        (Review.noCluster_found member relational undeclared))), rfl⟩
    | ownedQueue member queued owned guarded fetched ruled =>
      exact ⟨_, Review.mem_all (Or.inl
        (Review.ownerRuleOnQueue_found member queued guarded fetched ruled)), rfl⟩
    | unknownTarget member related unknown =>
      exact ⟨_, Review.mem_all (Or.inr (Or.inr (Review.brokenRelationship_found member related
        (modelNamed_eq_none_iff.mpr unknown)))), rfl⟩
    | thirdParty member related found outside =>
      exact ⟨_, Review.mem_all (Or.inr (Or.inr (Review.targetNotTraversable_found member related
        found (isStored_eq_false_iff.mpr outside)))), rfl⟩
  obtain ⟨f, listed, level⟩ := found
  rw [Bool.eq_false_iff]
  intro valid
  exact Report.isValid_ofFindings.mp valid f listed level

/-! ### What is generated is accepted -/

namespace CompiledModel

def bindings (m : CompiledModel) : List Binding :=
  m.resolvers.flatMap (fun r => r.execution.binding.toList ++ r.stages.map (·.binding)) ++
    m.traversals.map (·.binding) ++ (m.subscriptions ++ m.jobResultLookup.toList).map (·.binding)

def stages (m : CompiledModel) : List Stage := m.resolvers.flatMap (·.stages)

/-- Every binding passes its own check, and every stage has a name. -/
structure IsAccepted (m : CompiledModel) : Prop where
  bindings : ∀ b ∈ m.bindings, b.checked = .ok b
  stages : ∀ s ∈ m.stages, s.name ≠ ""

end CompiledModel

structure Compilation.IsAccepted (c : Compilation) : Prop where
  models : ∀ m ∈ c.models, m.IsAccepted
  shared : ∀ r ∈ c.shared, r.binding.checked = .ok r.binding

theorem Binding.checked_of_named {b : Binding} (named : b.name ≠ "") : b.checked = .ok b := by
  simp [checked, named]

theorem sharedCluster_named {models : List Model} {config : Config} {c : Cluster}
    (decoded : ∀ m ∈ models, m.IsDecoded) (configured : config.IsDecoded)
    (shared : sharedCluster models config = some c) : c.name ≠ "" := by
  unfold sharedCluster at shared
  split at shared
  · next found =>
    obtain rfl := Option.some.inj shared
    obtain ⟨m, member, declared⟩ := List.exists_of_findSome?_eq_some found
    exact (decoded m member).cluster_named declared
  · exact configured.cluster_named shared

theorem Binding.forModel_checked {m : Model} {cluster : Option Cluster} {config : Config}
    {b : Binding} (clustered : ∀ c, cluster = some c → c.name ≠ "")
    (bound : Binding.forModel m cluster config = .ok b) : b.checked = .ok b := by
  apply checked_of_named
  cases forModel_ok bound with
  | table => simp [forTable]
  | cluster _ shared => exact clustered _ shared
  | endpoint => simp [forEndpoint]
  | queue => simp [queue]

def Stage.IsAccepted (s : Stage) : Prop := s.name ≠ "" ∧ s.binding.checked = .ok s.binding

namespace Model

variable {m : Model} {config : Config} {cluster : Option Cluster} {field : RootField}
  {binding : Binding}

theorem hookStage_accepted {phase : HookPhase} : ∀ s ∈ m.hookStage field phase, s.IsAccepted := by
  intro s member
  obtain ⟨function, filled, _, rfl⟩ := mem_hookStage member
  refine ⟨?_, Binding.checked_of_named filled⟩
  simp [functionStage, toString]

theorem preFetchStage_accepted {stages : List Stage} (bound : binding.checked = .ok binding)
    (staged : m.preFetchStage config field binding = .ok stages) :
    ∀ s ∈ stages, s.IsAccepted := by
  unfold preFetchStage at staged
  split at staged
  · split at staged
    · cases staged
    · obtain rfl := Except.ok.inj staged
      intro s member
      obtain rfl := List.mem_singleton.mp member
      exact ⟨by simp, bound⟩
  · obtain rfl := Except.ok.inj staged
    simp

theorem resolver_accepted {r : RootResolver} (clustered : ∀ c, cluster = some c → c.name ≠ "")
    (resolved : m.resolver config cluster field = .ok r) :
    (∀ b ∈ r.execution.binding, b.checked = .ok b) ∧ ∀ s ∈ r.stages, s.IsAccepted := by
  obtain ⟨binding, bound, _, cases⟩ := resolver_ok resolved
  have accepted := Binding.forModel_checked clustered bound
  rcases cases with ⟨_, rfl⟩ | ⟨_, fetch, fetched, rfl⟩
  · simpa [unitResolver, Execution.binding, RootResolver.stages, Execution.stages] using accepted
  · refine ⟨by simp [pipelineResolver, Execution.binding], ?_⟩
    simp only [pipelineResolver, RootResolver.stages, Execution.stages, List.mem_append,
      List.mem_singleton]
    rintro s (((before | fetch) | rfl) | after)
    · exact hookStage_accepted s before
    · exact preFetchStage_accepted accepted fetched s fetch
    · exact ⟨by simp [mainStage], accepted⟩
    · exact hookStage_accepted s after

theorem traversal_accepted {lookup : String → Option Model} {name : String} {r : Relationship}
    {t : TraversalResolver} (clustered : ∀ c, cluster = some c → c.name ≠ "")
    (resolved : m.traversal config cluster lookup name r = .ok t) :
    t.binding.checked = .ok t.binding := by
  obtain ⟨_, _, _, _, _, bound, _⟩ := traversal_ok resolved
  exact Binding.forModel_checked clustered bound

theorem side_accepted {r : SideResolver}
    (member : r ∈ m.subscriptions ++ (m.jobResultLookup config).toList) :
    r.binding.checked = .ok r.binding := by
  apply Binding.checked_of_named
  rcases List.mem_append.mp member with subscribed | lookup
  · unfold subscriptions at subscribed
    split at subscribed
    · obtain ⟨field, _, rfl⟩ := List.mem_map.mp subscribed
      simp [subscription, Binding.noStore]
    · cases subscribed
  · unfold jobResultLookup at lookup
    split at lookup
    · obtain rfl := List.mem_singleton.mp lookup
      simp [Binding.forJobResults]
    · cases lookup

theorem compileWith_accepted {lookup : String → Option Model} {indexes : List SecondaryIndex}
    {c : CompiledModel} (clustered : ∀ c, cluster = some c → c.name ≠ "")
    (compiled : m.compileWith config cluster lookup indexes = .ok c) : c.IsAccepted := by
  obtain ⟨resolved, related, subscribed, looked⟩ := compileWith_ok compiled
  have roots : ∀ r ∈ c.resolvers,
      (∀ b ∈ r.execution.binding, b.checked = .ok b) ∧ ∀ s ∈ r.stages, s.IsAccepted := by
    intro r member
    obtain ⟨field, _, resolved⟩ := mem_of_mapM_ok resolved r member
    exact resolver_accepted clustered resolved
  constructor
  · intro b member
    simp only [CompiledModel.bindings, List.mem_append, List.mem_flatMap, Option.mem_toList,
      List.mem_map, subscribed, looked] at member
    rcases member with
      ((⟨r, listed, unit | ⟨s, staged, rfl⟩⟩ | ⟨t, listed, rfl⟩) | ⟨r, listed, rfl⟩)
    · exact (roots r listed).1 b unit
    · exact ((roots r listed).2 s staged).2
    · obtain ⟨relationship, _, traversed⟩ := mem_of_mapM_ok related t listed
      exact traversal_accepted clustered traversed
    · exact side_accepted (by simpa using listed)
  · intro s member
    obtain ⟨r, listed, staged⟩ := List.mem_flatMap.mp member
    exact ((roots r listed).2 s staged).1

end Model

theorem Compilation.build_accepted {config : Config} {models : List Model} {c : Compilation}
    (decoded : ∀ m ∈ models, m.IsDecoded) (configured : config.IsDecoded)
    (built : build config models = .ok c) : c.IsAccepted := by
  obtain ⟨compiled, shared⟩ := build_ok built
  constructor
  · intro m member
    obtain ⟨source, _, compiled⟩ := mem_of_mapM_ok compiled m member
    refine Model.compileWith_accepted (fun cluster declared => ?_) compiled
    exact sharedCluster_named decoded configured declared
  · intro r member
    rw [shared] at member
    unfold sharedResolvers at member
    split at member
    · apply Binding.checked_of_named
      simp only [List.mem_cons, List.not_mem_nil, or_false] at member
      rcases member with rfl | rfl <;> simp [jobPublication, jobNotification, Binding.noStore]
    · cases member

/-! ### Reviewed sets -/

namespace Compilation

/-- What comes of a set that is reviewed before it is compiled.  Only the last two are outcomes. -/
inductive Attempts (config : Config) (models : List Model) (seeds : Review.SeedData) :
    Except MessageFault (Except CompilationError Compilation) → Prop where
  | untold {fault : MessageFault} (untold : Review.report config models seeds = .error fault) :
      Attempts config models seeds (.error fault)
  | unwritten {report : Report} (told : Review.report config models seeds = .ok report)
      (valid : report.isValid = true) (long : ∃ m ∈ models, m.HasLongLimit) :
      Attempts config models seeds (.error .longNumber)
  | refused {report : Report} (told : Review.report config models seeds = .ok report)
      (invalid : report.isValid = false) :
      Attempts config models seeds (.ok (.error (.invalid report)))
  | compiled {report : Report} {c : Compilation}
      (told : Review.report config models seeds = .ok report) (valid : report.isValid = true)
      (built : build config models = .ok c) : Attempts config models seeds (.ok (.ok c))

end Compilation

theorem Ungenerable.reported {config : Config} {models : List Model} {seeds : Review.SeedData}
    {report : Report} (ungenerable : Ungenerable config models)
    (told : Review.report config models seeds = .ok report) : report.isValid = false := by
  rw [(Report.written_eq_ok_iff.mp told).2]
  exact ungenerable.reviewed seeds

theorem Compilation.attempt_attempts (config : Config) (models : List Model)
    (seeds : Review.SeedData) : Attempts config models seeds (attempt config models seeds) := by
  unfold attempt
  cases told : Review.report config models seeds with
  | error fault => exact .untold told
  | ok report =>
    simp only [bind, Except.bind]
    split
    · next valid =>
      cases built : build config models with
      | ok c => exact .compiled told valid built
      | error failure =>
        have reason := build_reason built
        cases failure with
        | refused e => exact absurd valid (by simp [Ungenerable.reported reason told])
        | broken fault =>
          cases fault
          exact .unwritten told valid reason
    · next invalid => exact .refused told (by simpa using invalid)

/-- Generation fails for the four reasons, and then every report of a review refuses the set, or
at a limit that is too long, where it breaks off.  So a set that is reviewed first is refused for
its errors or compiles, unless the review cannot be told or a limit cannot be written; all that
is generated passes the checks of its own parts. -/
theorem generation_contract {config : Config} {models : List Model}
    (decoded : ∀ m ∈ models, m.IsDecoded) (configured : config.IsDecoded) :
    ((∃ failure, Compilation.build config models = .error failure) ↔
      Ungenerable config models ∨ ∃ m ∈ models, m.HasLongLimit) ∧
      (∀ failure, Compilation.build config models = .error failure →
        failure.HasReason (Ungenerable config models) (∃ m ∈ models, m.HasLongLimit)) ∧
      (∀ c, Compilation.build config models = .ok c → c.IsAccepted) ∧
      (Ungenerable config models → ∀ seeds report,
        Review.report config models seeds = .ok report → report.isValid = false) ∧
      ∀ seeds, Compilation.Attempts config models seeds
        (Compilation.attempt config models seeds) :=
  ⟨Compilation.build_error_iff, fun _ => Compilation.build_reason,
    fun _ => Compilation.build_accepted decoded configured,
    fun ungenerable _ _ => ungenerable.reported, Compilation.attempt_attempts config models⟩

/-- A queued model with the least limit that is too long. -/
def longQueue : Value := .object [
  ("name", .text "Job"),
  ("properties", .object [("id", .object [("type", .text "ID")])]),
  ("dataSource", .object [
    ("type", .text "thirdPartyApi"), ("endpoint", .text "https://jobs.example"),
    ("limits", .object [("limit", .int (Number.tenTo Json.longestNumber)),
      ("frequencyInSeconds", .int 60)])])]

def longJobLimits : RateLimit := ⟨Number.tenTo Json.longestNumber, 60⟩

/-- The review finds nothing, and still there is no compilation. -/
theorem generation_contract_longQueue :
    ∃ m, Model.decode longQueue = .ok m ∧ ¬ Ungenerable .default [m] ∧
      Review.report .default [m] [] = .ok .empty ∧
      Compilation.build .default [m] = .error (.broken .longNumber) ∧
      Compilation.attempt .default [m] [] = .error .longNumber := by
  have read : ((Model.decode longQueue).toOption.any fun m =>
      m.dataSource.limits? = some longJobLimits && (Review.all .default [m] []).isEmpty) =
        true := by
    decide +kernel
  have tooLong : longJobLimits.isWritable = false := by decide +kernel
  cases decode : Model.decode longQueue with
  | error issues => simp [Except.toOption, decode] at read
  | ok m =>
    rw [decode] at read
    obtain ⟨limited, unfound⟩ := Bool.and_eq_true_iff.mp read
    have long : m.HasLongLimit := ⟨_, of_decide_eq_true limited, tooLong⟩
    have told : Review.report .default [m] [] = .ok .empty :=
      Report.written_eq_ok_iff.mpr (by simp [List.isEmpty_iff.mp unfound, Report.ofFindings,
        Report.empty])
    have decoded : ∀ x ∈ [m], x.IsDecoded := by simpa using ⟨longQueue, decode⟩
    have configured : Config.default.IsDecoded := ⟨.map [], rfl⟩
    obtain ⟨fails, reasons, _, reviewed, attempts⟩ := generation_contract decoded configured
    have generable : ¬ Ungenerable .default [m] := fun ungenerable =>
      absurd (reviewed ungenerable [] .empty told) (by decide)
    obtain ⟨failure, failed⟩ := fails.mpr (Or.inr ⟨m, List.mem_singleton_self m, long⟩)
    have broken : failure = .broken .longNumber := by
      cases failure with
      | refused e => exact absurd (reasons _ failed) generable
      | broken fault => cases fault; rfl
    rw [broken] at failed
    refine ⟨m, rfl, generable, told, failed, ?_⟩
    have attempted := attempts []
    cases outcome : Compilation.attempt .default [m] [] with
    | error fault => cases fault; rfl
    | ok result =>
      rw [outcome] at attempted
      cases attempted with
      | refused other invalid =>
        obtain rfl := Except.ok.inj (told.symm.trans other)
        exact absurd invalid (by decide)
      | compiled _ _ built =>
        rw [failed] at built
        cases built

end ApiLoom
