import ApiLoom.Compilation.Basic

/-!
# Compiled models

What a model that compiles consists of, part by part: the resolvers of its root
fields, those of its relationships, its subscriptions, and for a whole set the
models one by one.
-/

namespace ApiLoom

/-! ### Lists of results -/

section Results

variable {α β ε : Type} {f : α → Except ε β}

theorem exists_of_isOk {x : Except ε β} (passed : x.isOk = true) : ∃ y, x = .ok y := by
  cases x with
  | ok y => exact ⟨y, rfl⟩
  | error e => cases passed

theorem mem_of_mapM_ok {xs : List α} {ys : List β} (run : xs.mapM f = .ok ys) :
    ∀ y ∈ ys, ∃ x ∈ xs, f x = .ok y := by
  induction xs generalizing ys with
  | nil =>
    obtain rfl := Except.ok.inj run
    simp
  | cons x rest ih =>
    rw [List.mapM_cons] at run
    cases first : f x with
    | error e => simp [first, bind, Except.bind] at run
    | ok y =>
      cases later : rest.mapM f with
      | error e => simp [first, later, bind, Except.bind] at run
      | ok tail =>
        obtain rfl : y :: tail = ys := by
          simpa [first, later, bind, Except.bind, pure, Except.pure] using run
        intro z member
        rcases List.mem_cons.mp member with rfl | member
        · exact ⟨x, List.mem_cons_self, first⟩
        · obtain ⟨w, listed, same⟩ := ih later z member
          exact ⟨w, List.mem_cons_of_mem _ listed, same⟩

theorem exists_of_mapM_ok {xs : List α} {ys : List β} (run : xs.mapM f = .ok ys) :
    ∀ x ∈ xs, ∃ y ∈ ys, f x = .ok y := by
  induction xs generalizing ys with
  | nil => simp
  | cons x rest ih =>
    rw [List.mapM_cons] at run
    cases first : f x with
    | error e => simp [first, bind, Except.bind] at run
    | ok y =>
      cases later : rest.mapM f with
      | error e => simp [first, later, bind, Except.bind] at run
      | ok tail =>
        obtain rfl : y :: tail = ys := by
          simpa [first, later, bind, Except.bind, pure, Except.pure] using run
        intro z member
        rcases List.mem_cons.mp member with rfl | member
        · exact ⟨y, List.mem_cons_self, first⟩
        · obtain ⟨w, listed, same⟩ := ih later z member
          exact ⟨w, List.mem_cons_of_mem _ listed, same⟩

theorem find_of_mapM_ok [DecidableEq α] (name : β → α) (named : ∀ x y, f x = .ok y → name y = x)
    {xs : List α} {ys : List β} (run : xs.mapM f = .ok ys) {x : α} (member : x ∈ xs) :
    ∃ y, (ys.find? fun y => name y = x) = some y ∧ f x = .ok y := by
  induction xs generalizing ys with
  | nil => cases member
  | cons z rest ih =>
    rw [List.mapM_cons] at run
    cases first : f z with
    | error e => simp [first, bind, Except.bind] at run
    | ok y =>
      cases later : rest.mapM f with
      | error e => simp [first, later, bind, Except.bind] at run
      | ok tail =>
        obtain rfl : y :: tail = ys := by
          simpa [first, later, bind, Except.bind, pure, Except.pure] using run
        by_cases here : z = x
        · subst here
          exact ⟨y, by simp [named z y first], first⟩
        · have listed := (List.mem_cons.mp member).resolve_left (Ne.symm here)
          obtain ⟨w, found, same⟩ := ih later listed
          refine ⟨w, ?_, same⟩
          rw [List.find?_cons_of_neg (by simpa [named z y first] using here)]
          exact found

/-- What every result takes over from its input, the list of results takes over in its order. -/
theorem map_eq_of_mapM_ok {γ : Type} {g : β → γ} {h : α → γ}
    (kept : ∀ x y, f x = .ok y → g y = h x) {xs : List α} {ys : List β}
    (run : xs.mapM f = .ok ys) : ys.map g = xs.map h := by
  induction xs generalizing ys with
  | nil =>
    obtain rfl := Except.ok.inj run
    rfl
  | cons x rest ih =>
    rw [List.mapM_cons] at run
    cases first : f x with
    | error e => simp [first, bind, Except.bind] at run
    | ok y =>
      cases later : rest.mapM f with
      | error e => simp [first, later, bind, Except.bind] at run
      | ok tail =>
        obtain rfl : y :: tail = ys := by
          simpa [first, later, bind, Except.bind, pure, Except.pure] using run
        rw [List.map_cons, List.map_cons, kept x y first, ih later]

theorem mapM_error_iff (xs : List α) :
    (∃ e, xs.mapM f = .error e) ↔ ∃ x ∈ xs, ∃ e, f x = .error e := by
  induction xs with
  | nil => simp [pure, Except.pure]
  | cons x rest ih =>
    rw [List.mapM_cons]
    cases first : f x with
    | error e => simp [bind, Except.bind, first]
    | ok y =>
      simp only [List.mem_cons, exists_eq_or_imp, first, reduceCtorEq, exists_false, false_or, ← ih]
      cases rest.mapM f <;> simp [bind, Except.bind, pure, Except.pure]

/-- The first failure is the failure of the whole. -/
theorem mapM_eq_error_iff {xs : List α} {e : ε} :
    xs.mapM f = .error e ↔ ∃ before x later, xs = before ++ x :: later ∧
      (∀ b ∈ before, ∃ y, f b = .ok y) ∧ f x = .error e := by
  induction xs with
  | nil => simp [pure, Except.pure]
  | cons x rest ih =>
    rw [List.mapM_cons]
    constructor
    · intro failed
      cases first : f x with
      | error reason =>
        simp only [first, bind, Except.bind, Except.error.injEq] at failed
        exact ⟨[], x, rest, rfl, by simp, failed ▸ first⟩
      | ok y =>
        cases others : rest.mapM f with
        | ok more => simp [first, others, bind, Except.bind, pure, Except.pure] at failed
        | error reason =>
          simp only [first, others, bind, Except.bind, Except.error.injEq] at failed
          obtain ⟨before, z, later, rfl, passed, fails⟩ := ih.mp (failed ▸ others)
          exact ⟨x :: before, z, later, rfl, List.forall_mem_cons.mpr ⟨⟨y, first⟩, passed⟩, fails⟩
    · rintro ⟨before, z, later, split, passed, fails⟩
      cases before with
      | nil =>
        obtain ⟨rfl, rfl⟩ := List.cons.inj split
        simp [fails, bind, Except.bind]
      | cons b more =>
        simp only [List.cons_append, List.cons.injEq] at split
        obtain ⟨rfl, rfl⟩ := split
        obtain ⟨⟨y, first⟩, passed⟩ := List.forall_mem_cons.mp passed
        have others := ih.mpr ⟨more, z, later, rfl, passed, fails⟩
        simp only [first, others, bind, Except.bind]

end Results

theorem nonEmpty_eq_some_iff {text : Option String} {s : String} :
    nonEmpty text = some s ↔ text = some s ∧ s ≠ "" := by
  simp [nonEmpty, Option.filter_eq_some_iff]

/-- The kind of store that the records of an engine are in. -/
def EngineKind.storeKind : EngineKind → BindingKind
  | document => .documentTable
  | relational => .relationalCluster
  | http => .httpEndpoint
  | queued => .requestQueue

/-! ### Bindings -/

/-- What the binding of a model is, or why there is none. -/
inductive Binds (m : Model) (cluster : Option Cluster) (config : Config) :
    Except GenerationFailure Binding → Prop where
  | table {own : Option Cluster} (source : m.dataSource = .database .nosql own) :
      Binds m cluster config (.ok (.forTable m.name))
  | cluster {own : Option Cluster} {shared : Cluster} (source : m.dataSource = .database .sql own)
      (clustered : cluster = some shared) :
      Binds m cluster config (.ok (.forCluster m.name shared))
  | noCluster {own : Option Cluster} (source : m.dataSource = .database .sql own)
      (unclustered : cluster = none) :
      Binds m cluster config (.error (.refused (.noCluster m.name)))
  | endpoint {endpoint : String} (source : m.dataSource = .thirdPartyApi endpoint none) :
      Binds m cluster config (.ok (.forEndpoint m.name endpoint))
  | queue {endpoint : String} {limits : RateLimit}
      (source : m.dataSource = .thirdPartyApi endpoint (some limits))
      (written : limits.isWritable = true) :
      Binds m cluster config (.ok (.queue m.name endpoint limits config.queueUrlStashKey))
  | unwritten {endpoint : String} {limits : RateLimit}
      (source : m.dataSource = .thirdPartyApi endpoint (some limits))
      (long : limits.isWritable = false) : Binds m cluster config (.error (.broken .longNumber))

namespace Binding

variable {m : Model} {config : Config} {cluster : Option Cluster} {binding : Binding}

theorem forModel_binds (m : Model) (cluster : Option Cluster) (config : Config) :
    Binds m cluster config (forModel m cluster config) := by
  unfold forModel
  split <;> rename_i source
  · exact .table source
  · split
    · exact .cluster source rfl
    · exact .noCluster source rfl
  · exact .endpoint source
  · unfold forQueue
    split
    · next written => exact .queue source written
    · next long => exact .unwritten source (Bool.eq_false_iff.mpr long)

theorem forModel_ok (bound : forModel m cluster config = .ok binding) :
    Binds m cluster config (.ok binding) :=
  bound ▸ forModel_binds m cluster config

theorem forModel_storeKind (bound : forModel m cluster config = .ok binding) :
    binding.kind = m.engine.storeKind := by
  cases forModel_ok bound with
  | table source | cluster source _ | endpoint source | queue source _ =>
    rw [Model.engine, source]
    rfl

theorem forModel_kind (bound : forModel m cluster config = .ok binding) :
    (m.engine = .document → binding.kind = .documentTable) ∧
      (m.engine = .relational → binding.kind = .relationalCluster) := by
  constructor <;> intro engine <;> rw [forModel_storeKind bound, engine] <;> rfl

end Binding

namespace Model

variable {m : Model} {config : Config} {cluster : Option Cluster} {field : RootField}
  {binding : Binding}

/-! ### Root fields -/

theorem guardedOwner_eq_some_iff {operation : Operation} {owner : String} :
    m.guardedOwner operation = some owner ↔
      operation ∈ Review.fetchedOperations ∧ m.ownerField = some owner ∧
        ∃ access, m.accessControl = some access ∧ access.hasOwnerRule operation = true := by
  have shared : (m.accessControl.bind fun access =>
      if access.hasOwnerRule operation then m.ownerField else none) = some owner ↔
      m.ownerField = some owner ∧
        ∃ access, m.accessControl = some access ∧ access.hasOwnerRule operation = true := by
    cases m.accessControl <;> simp [and_comm]
  cases operation <;> simp [guardedOwner, Review.fetchedOperations, ← shared]

def unitResolver (m : Model) (config : Config) (field : RootField) (binding : Binding) :
    RootResolver :=
  let main := m.mainExchange config field
  ⟨field, Naming.rootField m.name field, .unit binding,
    { main with request :=
      { main.request with auth := some (m.authCheck field.operation field.scope) } }⟩

theorem isGated_of_isUnit (unit : m.isUnit field = true) : m.isGated field = false := by
  simp only [isUnit, Bool.and_eq_true, Bool.not_eq_true'] at unit
  exact unit.2

theorem unitResolver_gate (unit : m.isUnit field = true) :
    (m.unitResolver config field binding).exchange.request.gate = none := by
  simp [unitResolver, mainExchange, isGated_of_isUnit unit]

/-- The resolver of a field that reads the stored record by the stages `fetch`. -/
def pipelineResolver (m : Model) (config : Config) (field : RootField) (binding : Binding)
    (fetch : List Stage) : RootResolver :=
  ⟨field, Naming.rootField m.name field,
    .pipeline (m.hookStage field .before ++ fetch ++ [m.mainStage config field binding] ++
      m.hookStage field .after),
    m.pipelineExchange field (m.authCheck field.operation field.scope)⟩

/-- A resolver is bound to the store of the model and is a unit or a pipeline; a queued
model has no ownership to look at. -/
theorem resolver_ok {r : RootResolver} (resolved : m.resolver config cluster field = .ok r) :
    ∃ binding, Binding.forModel m cluster config = .ok binding ∧
      (m.isRateLimited = true → m.guardedOwner field.operation = none) ∧
      (m.isUnit field = true ∧ r = m.unitResolver config field binding ∨
        m.isUnit field = false ∧ ∃ fetch, m.preFetchStage config field binding = .ok fetch ∧
          r = m.pipelineResolver config field binding fetch) := by
  unfold resolver at resolved
  split at resolved
  · cases resolved
  · next binding bound =>
    refine ⟨binding, bound, ?_⟩
    unfold resolverWith at resolved
    split at resolved
    · cases resolved
    · next accepted =>
      refine ⟨by simpa using accepted, ?_⟩
      split at resolved
      · next unit => exact Or.inl ⟨unit, (Except.ok.inj resolved).symm⟩
      · next staged =>
        split at resolved
        · cases resolved
        · next fetch fetched =>
          exact Or.inr ⟨by simpa using staged, fetch, fetched, (Except.ok.inj resolved).symm⟩

/-- The first request asks for the check of the field, and passes no gate. -/
theorem resolver_request {r : RootResolver} (resolved : m.resolver config cluster field = .ok r) :
    r.exchange.request.auth = some (m.authCheck field.operation field.scope) ∧
      r.exchange.request.gate = none := by
  obtain ⟨_, _, _, ⟨unit, rfl⟩ | ⟨_, _, _, rfl⟩⟩ := resolver_ok resolved
  · exact ⟨rfl, unitResolver_gate unit⟩
  · exact ⟨rfl, rfl⟩

theorem resolver_field {r : RootResolver} (resolved : m.resolver config cluster field = .ok r) :
    r.field = field := by
  obtain ⟨_, _, _, ⟨_, rfl⟩ | ⟨_, _, _, rfl⟩⟩ := resolver_ok resolved <;> rfl

theorem resolver_fieldName {r : RootResolver} (resolved : m.resolver config cluster field = .ok r) :
    r.fieldName = Naming.rootField m.name field := by
  obtain ⟨_, _, _, ⟨_, rfl⟩ | ⟨_, _, _, rfl⟩⟩ := resolver_ok resolved <;> rfl

theorem mem_hookStage {phase : HookPhase} {s : Stage} (member : s ∈ m.hookStage field phase) :
    ∃ function, function ≠ "" ∧ m.hooks.hookFor phase field.operation = some function ∧
      s = functionStage m.name (Naming.rootField m.name field) function field.operation phase := by
  unfold hookStage at member
  split at member
  · next function named =>
    obtain ⟨declared, filled⟩ := nonEmpty_eq_some_iff.mp named
    exact ⟨function, filled, declared, List.mem_singleton.mp member⟩
  · cases member

theorem guardedOwner_of_isGated (gated : m.isGated field = true) :
    ∃ owner, m.guardedOwner field.operation = some owner := by
  unfold isGated at gated
  split at gated
  · exact Option.isSome_iff_exists.mp gated
  · exact Option.isSome_iff_exists.mp gated
  · cases gated
  · cases gated

/-- A gated field fetches the stored record in one stage, and confirms it. -/
theorem preFetchStage_gated {fetch : List Stage} (gated : m.isGated field = true)
    (fetched : m.preFetchStage config field binding = .ok fetch) :
    ∃ stage keyExpression operation source, fetch = [stage] ∧
      m.fetchByKey config keyExpression = .ok (operation, source) ∧
      stage.kind = .preFetch ∧ stage.binding = binding ∧
      stage.exchange.request.operation = operation ∧ stage.exchange.request.auth = none ∧
      stage.exchange.request.gate = none ∧ stage.exchange.response.shape =
        .confirmOwnership source (m.verification field.operation) ownershipConfirmed := by
  obtain ⟨owner, guarded⟩ := guardedOwner_of_isGated gated
  simp only [preFetchStage, gated, preFetch, guarded, Option.map_some] at fetched
  split at fetched
  · cases fetched
  · next operation source found =>
    obtain rfl := Except.ok.inj fetched
    exact ⟨_, _, operation, source, rfl, found, rfl, rfl, rfl, rfl, rfl, rfl⟩

/-! ### Relationships -/

/-- The resolver of the relationship `r` at a field of `m`, from the operation and the shape of
its traversal. -/
def traversalResolver (m : Model) (config : Config) (name : String) (r : Relationship)
    (target : Model) (operation : DataOperation) (shape : ResultShape) (binding : Binding) :
    TraversalResolver :=
  let description :=
    s!"{m.name}.{name}: {r.kind.word} {target.name} via {foreignKeyOf m r}"
  { typeName := m.name
    fieldName := name
    relationship := r
    target := target.name
    foreignKey := foreignKeyOf m r
    binding := binding
    exchange := {
      request := ⟨description, operation, none, none⟩
      response := {
        description := s!"{description} (filtered by {target.name} read access)"
        shape := shape.withLocalTimes (target.localTimeFields config) } } }

theorem traversal_eq {lookup : String → Option Model} {name : String} {r : Relationship}
    {t : TraversalResolver} (resolved : m.traversal config cluster lookup name r = .ok t) :
    ∃ target operation shape binding, lookup r.target = some target ∧
      traversalTo config target r.kind (foreignKeyOf m r) = some (operation, shape) ∧
      Binding.forModel target cluster config = .ok binding ∧
      t = m.traversalResolver config name r target operation shape binding := by
  unfold traversal at resolved
  cases found : lookup r.target with
  | none => simp [found] at resolved
  | some target =>
    cases reached : traversalTo config target r.kind (foreignKeyOf m r) with
    | none => simp [found, reached] at resolved
    | some plan =>
      cases bound : Binding.forModel target cluster config with
      | error e => simp [found, reached, bound] at resolved
      | ok binding =>
        simp only [found, reached, bound, Except.ok.injEq] at resolved
        exact ⟨target, plan.1, plan.2, binding, rfl, reached, bound, resolved.symm⟩

theorem traversal_ok {lookup : String → Option Model} {name : String} {r : Relationship}
    {t : TraversalResolver} (resolved : m.traversal config cluster lookup name r = .ok t) :
    ∃ target operation shape, lookup r.target = some target ∧
      traversalTo config target r.kind (foreignKeyOf m r) = some (operation, shape) ∧
      Binding.forModel target cluster config = .ok t.binding ∧
      t.relationship = r ∧ t.exchange.request.operation = operation ∧
      t.exchange.request.auth = none ∧ t.exchange.request.gate = none ∧
      t.exchange.response.shape = shape.withLocalTimes (target.localTimeFields config) := by
  obtain ⟨target, operation, shape, _, found, reached, bound, rfl⟩ := traversal_eq resolved
  exact ⟨target, operation, shape, found, reached, bound, rfl, rfl, rfl, rfl, rfl⟩

/-- A traversal stands at the field of its relationship. -/
theorem traversal_place {lookup : String → Option Model} {name : String} {r : Relationship}
    {t : TraversalResolver} (resolved : m.traversal config cluster lookup name r = .ok t) :
    t.typeName = m.name ∧ t.fieldName = name := by
  obtain ⟨_, _, _, _, _, _, _, rfl⟩ := traversal_eq resolved
  exact ⟨rfl, rfl⟩

/-- The template of a traversal names its foreign key. -/
theorem traversal_description {lookup : String → Option Model} {name : String} {r : Relationship}
    {t : TraversalResolver} (resolved : m.traversal config cluster lookup name r = .ok t) :
    ∃ target : Model, t.exchange.request.description =
      s!"{m.name}.{name}: {r.kind.word} {target.name} via {foreignKeyOf m r}" := by
  obtain ⟨target, _, _, _, _, _, _, rfl⟩ := traversal_eq resolved
  exact ⟨target, rfl⟩

/-! ### Whole models -/

theorem compileWith_ok {lookup : String → Option Model} {indexes : List SecondaryIndex}
    {c : CompiledModel} (compiled : m.compileWith config cluster lookup indexes = .ok c) :
    RootField.all.mapM (fun field => m.resolver config cluster field) = .ok c.resolvers ∧
      m.traversals config cluster lookup = .ok c.traversals ∧
      c.subscriptions = m.subscriptions ∧ c.jobResultLookup = m.jobResultLookup config := by
  unfold compileWith at compiled
  cases resolved : RootField.all.mapM fun field => m.resolver config cluster field with
  | error e => simp [resolved, bind, Except.bind] at compiled
  | ok resolvers =>
    cases related : m.traversals config cluster lookup with
    | error e => simp [resolved, related, bind, Except.bind] at compiled
    | ok traversals =>
      simp only [resolved, related, bind, Except.bind, pure, Except.pure, Except.ok.injEq]
        at compiled
      subst compiled
      simp

theorem compile_resolver {models : List Model} {c : CompiledModel}
    (compiled : m.compile config models = .ok c) (field : RootField) :
    ∃ r, c.resolver field = .ok r ∧
      m.resolver config (sharedCluster models config) field = .ok r := by
  obtain ⟨resolved, _⟩ := compileWith_ok compiled
  have listed : field ∈ RootField.all := by cases field <;> simp [RootField.all]
  obtain ⟨r, found, same⟩ := find_of_mapM_ok (·.field)
    (fun _ _ resolved => resolver_field resolved) resolved listed
  exact ⟨r, by simp [CompiledModel.resolver, found], same⟩

end Model

theorem Compilation.build_ok {config : Config} {models : List Model} {c : Compilation}
    (built : build config models = .ok c) :
    models.mapM (fun m => m.compile config models) = .ok c.models ∧
      c.shared = sharedResolvers models := by
  unfold build at built
  cases compiled : models.mapM fun m => m.compile config models with
  | error e => simp [compiled, bind, Except.bind] at built
  | ok all =>
    simp only [compiled, bind, Except.bind, pure, Except.pure, Except.ok.injEq] at built
    subst built
    simp

theorem Compilation.build_schema {config : Config} {models : List Model} {c : Compilation}
    (built : build config models = .ok c) :
    c.config = config ∧ c.schema = Schema.document config models := by
  unfold build at built
  cases compiled : models.mapM fun m => m.compile config models with
  | error e => simp [compiled, bind, Except.bind] at built
  | ok all =>
    simp only [compiled, bind, Except.bind, pure, Except.pure, Except.ok.injEq] at built
    subst built
    exact ⟨rfl, rfl⟩

/-! ### Exchanges -/

/-- Where an exchange of a compiled set comes from. -/
inductive Compilation.Generated (config : Config) (models : List Model) : Exchange → Prop where
  | root {m : Model} {field : RootField} {r : RootResolver} (member : m ∈ models)
    (resolved : m.resolver config (sharedCluster models config) field = .ok r) :
    Generated config models r.exchange
  | stage {m : Model} {field : RootField} {r : RootResolver} {s : Stage} (member : m ∈ models)
    (resolved : m.resolver config (sharedCluster models config) field = .ok r)
    (staged : s ∈ r.stages) : Generated config models s.exchange
  | traversal {m : Model} {link : String × Relationship} {t : TraversalResolver}
    (member : m ∈ models) (related : link ∈ m.relationships)
    (resolved : m.traversal config (sharedCluster models config) (modelNamed models) link.1
      link.2 = .ok t) : Generated config models t.exchange
  | side {m : Model} {r : SideResolver} (member : m ∈ models)
    (listed : r ∈ m.subscriptions ++ (m.jobResultLookup config).toList) :
    Generated config models r.exchange
  | shared {r : SideResolver} (listed : r ∈ sharedResolvers models) :
    Generated config models r.exchange

theorem Compilation.generated {config : Config} {models : List Model} {c : Compilation}
    (built : build config models = .ok c) : ∀ e ∈ c.exchanges, Generated config models e.2 := by
  obtain ⟨compiled, shared⟩ := build_ok built
  intro e listed
  rcases List.mem_append.mp listed with own | common
  · obtain ⟨k, made, own⟩ := List.mem_flatMap.mp own
    obtain ⟨m, member, compiled⟩ := mem_of_mapM_ok compiled k made
    obtain ⟨resolved, related, subscribed, lookedUp⟩ := Model.compileWith_ok compiled
    rcases List.mem_append.mp own with inner | side
    · rcases List.mem_append.mp inner with root | traversal
      · obtain ⟨r, present, root⟩ := List.mem_flatMap.mp root
        obtain ⟨field, _, same⟩ := mem_of_mapM_ok resolved r present
        rcases List.mem_cons.mp root with rfl | staged
        · exact .root member same
        · obtain ⟨s, stage, rfl⟩ := List.mem_map.mp staged
          exact .stage member same stage
      · obtain ⟨t, present, rfl⟩ := List.mem_map.mp traversal
        obtain ⟨link, related, same⟩ := mem_of_mapM_ok related t present
        exact .traversal member related same
    · obtain ⟨r, present, rfl⟩ := List.mem_map.mp side
      rw [subscribed, lookedUp] at present
      exact .side member present
  · obtain ⟨r, present, rfl⟩ := List.mem_map.mp common
    exact .shared (shared ▸ present)

/-- What the stages of a resolver ask for: the functions of its hooks, the stored record, and the
operation of its field. -/
theorem Model.stage_operation {m : Model} {config : Config} {cluster : Option Cluster}
    {field : RootField} {r : RootResolver} {s : Stage}
    (resolved : m.resolver config cluster field = .ok r) (staged : s ∈ r.stages) :
    (∃ hook function model phase,
        s.exchange.request.operation = .invokeHook hook function model phase) ∨
      (∃ key source, m.fetchByKey config key = .ok (s.exchange.request.operation, source)) ∨
      s.exchange = m.mainExchange config field := by
  obtain ⟨binding, _, _, ⟨_, rfl⟩ | ⟨_, fetch, fetched, rfl⟩⟩ := resolver_ok resolved
  · simp [unitResolver, RootResolver.stages, Execution.stages] at staged
  · simp only [pipelineResolver, RootResolver.stages, Execution.stages, List.mem_append,
      List.mem_singleton] at staged
    rcases staged with ((before | fetching) | rfl) | after
    · obtain ⟨function, _, _, rfl⟩ := mem_hookStage before
      exact .inl ⟨_, _, _, _, rfl⟩
    · cases gated : m.isGated field with
      | false =>
        simp only [preFetchStage, gated] at fetched
        cases Except.ok.inj fetched
        cases fetching
      | true =>
        obtain ⟨stage, key, operation, source, rfl, found, _, _, asks, _⟩ :=
          preFetchStage_gated gated fetched
        obtain rfl := List.mem_singleton.mp fetching
        exact .inr (.inl ⟨key, source, asks ▸ found⟩)
    · exact .inr (.inr rfl)
    · obtain ⟨function, _, _, rfl⟩ := mem_hookStage after
      exact .inl ⟨_, _, _, _, rfl⟩

/-- The request asks neither for statements nor for the update of a document. -/
def DataOperation.isAside : DataOperation → Bool
  | sql _ | updateItem _ => false
  | _ => true

/-- What the exchanges of a compiled set ask for: the operation of a root field, the stored record
of a model, or what a relationship leads to; the others ask for neither statements nor updates. -/
theorem Compilation.Generated.operation {config : Config} {models : List Model} {e : Exchange}
    (generated : Generated config models e) :
    (∃ m ∈ models, ∃ field : RootField,
      e.request.operation = (m.mainOperation config field (m.isGated field)).1) ∨
    (∃ m ∈ models, ∃ key source,
      m.fetchByKey config key = .ok (e.request.operation, source)) ∨
    (∃ m ∈ models, ∃ link ∈ m.relationships, ∃ target shape,
      modelNamed models link.2.target = some target ∧
      Model.traversalTo config target link.2.kind (foreignKeyOf m link.2) =
        some (e.request.operation, shape)) ∨
    e.request.operation.isAside = true := by
  cases generated with
  | @root m field r member resolved =>
    obtain ⟨_, _, _, ⟨_, rfl⟩ | ⟨_, _, _, rfl⟩⟩ := Model.resolver_ok resolved
    · exact .inl ⟨m, member, field, rfl⟩
    · exact .inr (.inr (.inr rfl))
  | @stage m field r s member resolved staged =>
    obtain ⟨_, _, _, _, hook⟩ | ⟨key, source, found⟩ | same := Model.stage_operation resolved staged
    · exact .inr (.inr (.inr (by rw [hook]; rfl)))
    · exact .inr (.inl ⟨m, member, key, source, found⟩)
    · exact .inl ⟨m, member, field, by rw [same]; rfl⟩
  | @traversal m link t member related resolved =>
    obtain ⟨target, operation, shape, _, found, planned, _, rfl⟩ := Model.traversal_eq resolved
    exact .inr (.inr (.inl ⟨m, member, link, related, target, shape, found, planned⟩))
  | @side m r member listed =>
    refine .inr (.inr (.inr ?_))
    rcases List.mem_append.mp listed with subscribed | lookedUp
    · unfold Model.subscriptions at subscribed
      split at subscribed
      · obtain ⟨_, _, rfl⟩ := List.mem_map.mp subscribed
        rfl
      · cases subscribed
    · rw [Option.mem_toList, Model.jobResultLookup] at lookedUp
      split at lookedUp
      · obtain rfl := Option.some.inj lookedUp
        rfl
      · cases lookedUp
  | shared listed =>
    refine .inr (.inr (.inr ?_))
    unfold sharedResolvers at listed
    split at listed
    · simp only [List.mem_cons, List.not_mem_nil, or_false] at listed
      rcases listed with rfl | rfl <;> rfl
    · cases listed

/-- A document is updated by the update of a model alone. -/
theorem Compilation.Generated.updateItem {config : Config} {models : List Model} {e : Exchange}
    {u : UpdateItem} (generated : Generated config models e)
    (updates : e.request.operation = .updateItem u) :
    ∃ m ∈ models, m.engine = .document ∧
      (m.documentMain config .update (m.isGated .update)).1 = .updateItem u := by
  rcases generated.operation with ⟨m, member, field, main⟩ | ⟨m, _, key, source, fetched⟩ |
    ⟨m, _, link, _, target, shape, _, planned⟩ | aside
  · refine ⟨m, member, ?_⟩
    rw [updates] at main
    unfold Model.mainOperation at main
    cases engine : m.engine <;> cases field <;> simp [engine, Model.documentMain,
      Model.relationalMain, Model.httpMain, Model.queuedMain] at main ⊢
    exact main.symm
  · rw [updates] at fetched
    unfold Model.fetchByKey at fetched
    split at fetched <;> cases fetched
  · rw [updates] at planned
    unfold Model.traversalTo at planned
    split at planned
    · cases kind : link.2.kind <;> simp [kind, documentTraversal] at planned
    · cases kind : link.2.kind <;> simp [kind, relationalTraversal] at planned
    · cases planned
    · cases planned
  · rw [updates] at aside
    cases aside

end ApiLoom
