import ApiLoom.Proofs.Columns
import ApiLoom.Proofs.LoadingModes
import ApiLoom.Proofs.Surface

/-!
# Stores

What each request of a compiled set is bound to.  The requests of a root field go to the store of
its model and those of a relationship to that of its target, both at the one cluster of the set if
they are relational; there their statements are on the table that the binding names.  No other
request is relational.
-/

namespace ApiLoom

open Template (World State)

/-! ### Clusters -/

/-- The cluster of a set: the first that one of the models declares, else the configured one. -/
inductive Cluster.IsChosen (models : List Model) (config : Config) (cluster : Cluster) : Prop where
  | declared {before behind : List Model} {m : Model} (place : models = before ++ m :: behind)
      (first : ∀ n ∈ before, n.dataSource.cluster? = none)
      (own : m.dataSource.cluster? = some cluster)
  | configured (undeclared : ∀ m ∈ models, m.dataSource.cluster? = none)
      (given : config.relationalCluster = some cluster)

theorem sharedCluster_eq_some_iff {models : List Model} {config : Config} {cluster : Cluster} :
    sharedCluster models config = some cluster ↔ cluster.IsChosen models config := by
  unfold sharedCluster
  cases found : models.findSome? fun m => m.dataSource.cluster? with
  | none =>
    have undeclared : ∀ m ∈ models, m.dataSource.cluster? = none :=
      List.findSome?_eq_none_iff.mp found
    constructor
    · exact .configured undeclared
    · rintro (⟨rfl, first, own⟩ | ⟨_, given⟩)
      · rw [undeclared _ (List.mem_append_right _ List.mem_cons_self)] at own
        cases own
      · exact given
  | some own =>
    obtain ⟨before, m, behind, place, declares, first⟩ := List.findSome?_eq_some_iff.mp found
    constructor
    · intro same
      exact .declared place first (Option.some.inj same ▸ declares)
    · rintro (⟨place', first', own'⟩ | ⟨undeclared, _⟩)
      · have again := List.findSome?_eq_some_iff.mpr ⟨_, _, _, place', own', first'⟩
        exact found.symm.trans again
      · rw [undeclared m (place ▸ List.mem_append_right _ List.mem_cons_self)] at declares
        cases declares

/-- The binding is to a store of this cluster. -/
structure Binding.IsAt (b : Binding) (cluster : Cluster) : Prop where
  name : b.name = cluster.name
  database : b.details.lookup "database" = some cluster.database
  secret : b.details.lookup "secretRef" = some cluster.secretRef

section Bindings

variable {m : Model} {config : Config} {cluster : Option Cluster} {binding : Binding}

theorem Binding.forModel_relational (bound : forModel m cluster config = .ok binding)
    (relational : m.engine = .relational) :
    ∃ own, cluster = some own ∧ binding = forCluster m.name own := by
  cases forModel_ok bound with
  | cluster _ clustered => exact ⟨_, clustered, rfl⟩
  | table source | endpoint source | queue source _ =>
    simp [Model.engine, source, DataSource.engine] at relational

theorem Binding.forCluster_isAt (name : String) (cluster : Cluster) :
    (forCluster name cluster).IsAt cluster := ⟨rfl, rfl, rfl⟩

theorem Binding.relational_iff (bound : forModel m cluster config = .ok binding) :
    binding.kind = .relationalCluster ↔ m.engine = .relational := by
  rw [forModel_storeKind bound]
  cases m.engine <;> simp [EngineKind.storeKind]

end Bindings

/-! ### Statements -/

namespace SqlStatement

variable {st : SqlStatement}

def verbTokens : SqlStatement → List Store.Token
  | select .. => [.name "SELECT", .sign '*', .name "FROM"]
  | insert .. => [.name "INSERT", .name "INTO"]
  | update .. => [.name "UPDATE"]
  | delete .. => [.name "DELETE", .name "FROM"]

/-- The text before the table. -/
def leadText (st : SqlStatement) : String :=
  String.ofList (st.verb.flatMap fun word => word.toList ++ [' '])

theorem leadText_plain (st : SqlStatement) : '$' ∉ st.leadText.toList := by
  cases st <;> simp only [leadText, verb] <;> decide

theorem leadText_tokens (st : SqlStatement) (t : String) :
    Store.tokens (st.leadText ++ t) = st.verbTokens ++ Store.tokens t := by
  have closed : Store.Closed st.leadText := by
    cases st <;> simp only [leadText, verb] <;> decide
  have tokens : Store.tokens st.leadText = st.verbTokens := by
    cases st <;> simp only [leadText, verb, verbTokens] <;> decide
  rw [Store.tokens_closed closed, tokens]

/-- Whatever the references of a statement stand for, its table follows on its verb. -/
theorem tokens_expand (named : Text.IsFilledName st.table) (w : World) (s : State) :
    ∃ rest, Store.tokens (w.expand s st.text) = st.verbTokens ++ .name st.table :: rest := by
  obtain ⟨rest, ends, spelled⟩ := st.text_toList
  let later := String.ofList (Text.expand (w.reference s) none rest)
  have plain : '$' ∉ st.leadText.toList ++ st.table.toList := by
    simp [st.leadText_plain, named.plain]
  have expanded : w.expand s st.text = st.leadText ++ (st.table ++ later) := by
    have front : (st.verb.flatMap fun word => word.toList ++ [' ']) = st.leadText.toList :=
      String.toList_ofList.symm
    rw [World.expand, ← String.toList_inj, String.toList_ofList, spelled, ← List.append_assoc,
      front, Text.expand_of_notMem plain]
    simp [later]
  have apart : Store.Apart later := by
    intro c first
    rcases ends with rfl | spaced
    · simp [later, Text.expand] at first
    · obtain ⟨more, rfl⟩ := List.head?_eq_some_iff.mp spaced
      obtain rfl : ' ' = c := by simpa [later, Text.expand] using first
      decide
  refine ⟨Store.tokens later, ?_⟩
  rw [expanded, leadText_tokens, Store.tokens_name named.name named.filled apart]

/-- If what is sent can be read at all, it is a query on the table of the statement. -/
theorem reads_table (named : Text.IsFilledName st.table) {w : World} {s : State} {q : Store.Query}
    (read : Store.Reads (w.expand s st.text) q) : q.table = st.table := by
  obtain ⟨rest, spelled⟩ := tokens_expand named w s
  have same : st.verbTokens ++ .name st.table :: rest = q.verb ++ .name q.table :: q.details :=
    spelled.symm.trans read
  cases st <;> cases q <;>
    simp_all [verbTokens, Store.Query.verb, SqlStatement.table, Store.Query.table]

end SqlStatement

/-- In every run the statement is on the table, and so is each query that it can be read as. -/
structure Store.StaysOn (table statement : String) (w : World) (s : State) : Prop where
  addresses : Store.statementTable (w.expand s statement) = some table
  reads : ∀ q, Store.Reads (w.expand s statement) q → q.table = table

/-! ### Requests -/

namespace StoreRequest

/-- A request has statements where it is bound to a cluster, and all of them stay on the table that
the binding names. -/
structure Fits (x : StoreRequest) : Prop where
  relational : x.1.kind = .relationalCluster ↔ ∃ q, x.2 = .sql q
  statements : ∀ q, x.2 = .sql q → q.statements ≠ [] ∧
    ∃ table, x.1.details.lookup "table" = some table ∧
      ∀ statement ∈ q.statements, ∀ w s, Store.StaysOn table statement w s

/-- The request runs against the store of the model. -/
structure RunsFor (x : StoreRequest) (m : Model) (cluster : Option Cluster) (config : Config) :
    Prop where
  bound : Binding.forModel m cluster config = .ok x.1
  on : m.engine = .relational → x.2.IsOn (Naming.tableName m.name)
  other : m.engine ≠ .relational → x.2.IsOther

/-- The request runs against no store of a model, and its operation is not relational. -/
structure IsAside (x : StoreRequest) (config : Config) : Prop where
  bound : x.1 = .noStore ∨ x.1 = .forJobResults config ∨ ∃ function, x.1 = .forFunction function
  other : x.2.IsOther

section Fitting

variable {x : StoreRequest} {m : Model} {cluster : Option Cluster} {config : Config}

theorem IsAside.kind_ne (aside : x.IsAside config) : x.1.kind ≠ .relationalCluster := by
  rcases aside.bound with same | same | ⟨function, same⟩ <;> rw [same] <;> intro kind <;> cases kind

theorem fits_of_isOther (bound : x.1.kind ≠ .relationalCluster) (other : x.2.IsOther) :
    x.Fits := by
  constructor
  · constructor
    · intro relational
      exact absurd relational bound
    · rintro ⟨q, asked⟩
      exact absurd asked (other q)
  · intro q asked
    exact absurd asked (other q)

theorem IsAside.fits (aside : x.IsAside config) : x.Fits :=
  fits_of_isOther aside.kind_ne aside.other

theorem RunsFor.fits (decoded : m.IsDecoded) (runs : x.RunsFor m cluster config) : x.Fits := by
  by_cases relational : m.engine = .relational
  · obtain ⟨own, _, same⟩ := Binding.forModel_relational runs.bound relational
    obtain ⟨p, statements, asked, written, filled, each⟩ := runs.on relational
    refine ⟨⟨fun _ => ⟨p, asked⟩, fun _ => same ▸ rfl⟩, fun q again => ?_⟩
    obtain rfl := DataOperation.sql.inj (asked.symm.trans again)
    refine ⟨by simpa [written] using filled, Naming.tableName m.name, same ▸ rfl, ?_⟩
    intro statement member w s
    obtain ⟨st, listed, rfl⟩ := List.mem_map.mp (written ▸ member)
    have table := each st listed
    have named : Text.IsFilledName st.table := table ▸ Model.tableName_isFilledName decoded
    have whole : ' ' ∉ st.table.toList := fun blank => absurd (named.name _ blank) (by decide)
    constructor
    · rw [SqlStatement.statementTable_expand w s named.plain whole, table]
    · intro query read
      rw [SqlStatement.reads_table named read, table]
  · exact fits_of_isOther (fun kind => relational ((Binding.relational_iff runs.bound).mp kind))
      (runs.other relational)

theorem RunsFor.isAt (runs : x.RunsFor m cluster config)
    (relational : x.1.kind = .relationalCluster) : ∃ own, cluster = some own ∧ x.1.IsAt own := by
  obtain ⟨own, given, same⟩ :=
    Binding.forModel_relational runs.bound ((Binding.relational_iff runs.bound).mp relational)
  exact ⟨own, given, same ▸ Binding.forCluster_isAt m.name own⟩

end Fitting

end StoreRequest

/-! ### Resolvers -/

/-- The operation of a root field, and the fetch before it, run against this store. -/
def RootResolver.RunsOn (r : RootResolver) (binding : Binding) : Prop :=
  match r.execution with
  | .unit own => own = binding
  | .pipeline stages => (∃ s ∈ stages, s.kind = .main) ∧
      ∀ s ∈ stages, s.kind = .preFetch ∨ s.kind = .main → s.binding = binding

namespace Model

variable {m : Model} {config : Config} {cluster : Option Cluster} {field : RootField}

theorem resolver_runsOn {r : RootResolver} (resolved : m.resolver config cluster field = .ok r) :
    ∃ binding, Binding.forModel m cluster config = .ok binding ∧ r.RunsOn binding := by
  obtain ⟨binding, bound, _, ⟨_, rfl⟩ | ⟨_, fetch, fetched, rfl⟩⟩ := resolver_ok resolved
  · exact ⟨binding, bound, rfl⟩
  · refine ⟨binding, bound, ⟨m.mainStage config field binding, by simp, rfl⟩,
      fun s staged kind => ?_⟩
    have hooked {phase : HookPhase} (member : s ∈ m.hookStage field phase) : False := by
      obtain ⟨function, _, _, rfl⟩ := mem_hookStage member
      cases phase <;> simp [functionStage, HookPhase.stageKind] at kind
    simp only [List.mem_append, List.mem_singleton] at staged
    rcases staged with ((before | read) | rfl) | after
    · exact (hooked before).elim
    · cases gated : m.isGated field with
      | false =>
        obtain rfl : [] = fetch := by simpa [preFetchStage, gated] using fetched
        cases read
      | true =>
        obtain ⟨stage, _, _, _, rfl, _, _, same, _⟩ := preFetchStage_gated gated fetched
        obtain rfl := List.mem_singleton.mp read
        exact same
    · rfl
    · exact (hooked after).elim

/-- The requests of a root field run against the store of the model, but for those of hooks. -/
theorem resolver_runsFor {r : RootResolver} (resolved : m.resolver config cluster field = .ok r) :
    ∀ x ∈ r.requests, x.RunsFor m cluster config ∨ x.IsAside config := by
  obtain ⟨binding, bound, _, all⟩ := resolver_requests resolved
  rintro ⟨own, operation⟩ member
  rcases all _ member with ⟨function, hook, phase, same⟩ | ⟨rfl, rfl | ⟨key, source, fetched⟩⟩
  · obtain ⟨rfl, rfl⟩ := Prod.mk.inj same
    exact Or.inr ⟨Or.inr (Or.inr ⟨function, rfl⟩), fun q asked => by cases asked⟩
  · exact Or.inl ⟨bound, mainOperation_isOn config field _, mainOperation_isOther config field _⟩
  · have kinds := fetchByKey_isOn fetched
    exact Or.inl ⟨bound, kinds.1, kinds.2⟩

theorem traversal_runsFor {lookup : String → Option Model} {name : String} {r : Relationship}
    {t : TraversalResolver} (resolved : m.traversal config cluster lookup name r = .ok t) :
    ∃ target, lookup t.relationship.target = some target ∧ t.target = target.name ∧
      t.request.RunsFor target cluster config := by
  obtain ⟨target, operation, shape, binding, found, reached, bound, rfl⟩ := traversal_eq resolved
  have kinds := traversalTo_isOn reached
  exact ⟨target, found, rfl, ⟨bound, kinds.1, kinds.2⟩⟩

theorem subscriptions_aside (config : Config) :
    ∀ s ∈ m.subscriptions, s.request.IsAside config := by
  intro s member
  refine ⟨Or.inl ?_, subscriptions_isOther s member⟩
  unfold subscriptions at member
  split at member
  · obtain ⟨field, _, rfl⟩ := List.mem_map.mp member
    rfl
  · cases member

theorem jobResultLookup_aside (config : Config) :
    ∀ s ∈ m.jobResultLookup config, s.request.IsAside config := by
  intro s looked
  refine ⟨Or.inr (Or.inl ?_), jobResultLookup_isOther config s looked⟩
  unfold jobResultLookup at looked
  split at looked
  · obtain rfl := Option.some.inj looked
    rfl
  · cases looked

end Model

theorem sharedResolvers_aside (config : Config) (models : List Model) :
    ∀ s ∈ sharedResolvers models, s.request.IsAside config := by
  intro s member
  refine ⟨Or.inl ?_, sharedResolvers_isOther models s member⟩
  unfold sharedResolvers at member
  split at member
  · simp only [List.mem_cons, List.not_mem_nil, or_false] at member
    rcases member with rfl | rfl <;> rfl
  · cases member

/-! ### Sets of models -/

def CompiledModel.requests (k : CompiledModel) : List StoreRequest :=
  k.resolvers.flatMap RootResolver.requests ++ k.traversals.map TraversalResolver.request ++
    k.sides.map SideResolver.request

/-- All requests of a set with what they are bound to. -/
def Compilation.requests (c : Compilation) : List StoreRequest :=
  c.models.flatMap CompiledModel.requests ++ c.shared.map SideResolver.request

section Sets

variable {config : Config} {models : List Model} {c : Compilation}

theorem Compilation.traversal_mem_requests {k : CompiledModel} {t : TraversalResolver}
    (compiled : k ∈ c.models) (link : t ∈ k.traversals) : t.request ∈ c.requests := by
  refine List.mem_append_left _ (List.mem_flatMap.mpr ⟨k, compiled, ?_⟩)
  exact List.mem_append_left _ (List.mem_append_right _ (List.mem_map_of_mem link))

/-- Every request runs against the store of a model of the set, or is not relational at all. -/
theorem Compilation.request_runsFor (built : build config models = .ok c) {x : StoreRequest}
    (member : x ∈ c.requests) :
    (∃ m ∈ models, x.RunsFor m (sharedCluster models config) config) ∨ x.IsAside config := by
  obtain ⟨all, shared⟩ := build_ok built
  rcases List.mem_append.mp member with own | common
  · obtain ⟨k, compiled, within⟩ := List.mem_flatMap.mp own
    obtain ⟨m, listed, compiled⟩ := mem_of_mapM_ok all k compiled
    obtain ⟨resolved, related, subscribed, looked⟩ := Model.compileWith_ok compiled
    simp only [CompiledModel.requests, CompiledModel.sides, List.mem_append, List.mem_flatMap,
      List.mem_map] at within
    rcases within with (⟨r, root, asked⟩ | ⟨t, link, rfl⟩) | ⟨s, side, rfl⟩
    · obtain ⟨field, _, served⟩ := mem_of_mapM_ok resolved r root
      exact (Model.resolver_runsFor served x asked).imp_left fun runs => ⟨m, listed, runs⟩
    · obtain ⟨⟨name, r⟩, _, served⟩ := mem_of_mapM_ok related t link
      obtain ⟨target, found, _, runs⟩ := Model.traversal_runsFor served
      exact Or.inl ⟨target, (mem_of_modelNamed found).1, runs⟩
    · rcases side with subscription | lookup
      · exact Or.inr (Model.subscriptions_aside config s (subscribed ▸ subscription))
      · exact Or.inr (Model.jobResultLookup_aside config s (looked ▸ Option.mem_toList.mp lookup))
  · obtain ⟨s, side, rfl⟩ := List.mem_map.mp common
    exact Or.inr (sharedResolvers_aside config models s (shared ▸ side))

theorem Compilation.root_runsOn {m : Model} {k : CompiledModel}
    (compiled : m.compile config models = .ok k) :
    ∃ binding, Binding.forModel m (sharedCluster models config) config = .ok binding ∧
      ∀ r ∈ k.resolvers, r.RunsOn binding := by
  obtain ⟨resolved, _⟩ := Model.compileWith_ok compiled
  obtain ⟨r, _, served⟩ := exists_of_mapM_ok resolved .get List.mem_cons_self
  obtain ⟨binding, bound, _⟩ := Model.resolver_runsOn served
  refine ⟨binding, bound, fun other member => ?_⟩
  obtain ⟨field, _, served⟩ := mem_of_mapM_ok resolved other member
  obtain ⟨own, also, runs⟩ := Model.resolver_runsOn served
  obtain rfl := Except.ok.inj (bound.symm.trans also)
  exact runs

/-- The root fields of each model run against its store, and a relationship against that of the
root fields of its target.  All relational requests are bound to the cluster of the set, and their
statements stay on the table that the binding names. -/
theorem requests_reach_bound_stores (decoded : ∀ m ∈ models, m.IsDecoded)
    (built : Compilation.build config models = .ok c) :
    List.Forall₂ (fun m k => m.compile config models = .ok k ∧
      k.resolvers.map (·.field) = RootField.all ∧
      ∃ binding, Binding.forModel m (sharedCluster models config) config = .ok binding ∧
        ∀ r ∈ k.resolvers, r.RunsOn binding) models c.models ∧
    (∀ k ∈ c.models, ∀ t ∈ k.traversals, ∃ target,
      modelNamed models t.relationship.target = some target ∧ t.target = target.name ∧
      Binding.forModel target (sharedCluster models config) config = .ok t.binding ∧
      ∃ l ∈ c.models, target.compile config models = .ok l ∧
        ∀ r ∈ l.resolvers, r.RunsOn t.binding) ∧
    (∀ x ∈ c.requests, x.1.kind = .relationalCluster →
      ∃ cluster, sharedCluster models config = some cluster ∧
        cluster.IsChosen models config ∧ x.1.IsAt cluster) ∧
    ∀ x ∈ c.requests, x.Fits := by
  obtain ⟨all, _⟩ := Compilation.build_ok built
  refine ⟨?_, fun k member t link => ?_, fun x member relational => ?_, fun x member => ?_⟩
  · refine (mapM_eq_ok_iff.mp all).imp fun m k compiled => ⟨compiled, ?_, ?_⟩
    · obtain ⟨resolved, _⟩ := Model.compileWith_ok compiled
      have fields := map_eq_of_mapM_ok (h := id)
        (fun field r resolved => Model.resolver_field resolved) resolved
      rw [fields, List.map_id]
    · exact Compilation.root_runsOn compiled
  · obtain ⟨m, _, compiled⟩ := mem_of_mapM_ok all k member
    obtain ⟨_, related, _⟩ := Model.compileWith_ok compiled
    obtain ⟨⟨name, r⟩, _, served⟩ := mem_of_mapM_ok related t link
    obtain ⟨target, found, named, runs⟩ := Model.traversal_runsFor served
    obtain ⟨l, among, compiled⟩ := exists_of_mapM_ok all target (mem_of_modelNamed found).1
    obtain ⟨binding, bound, roots⟩ := Compilation.root_runsOn compiled
    obtain rfl := Except.ok.inj (bound.symm.trans runs.bound)
    exact ⟨target, found, named, bound, l, among, compiled, roots⟩
  · rcases Compilation.request_runsFor built member with ⟨m, _, runs⟩ | aside
    · obtain ⟨cluster, given, placed⟩ := runs.isAt relational
      exact ⟨cluster, given, sharedCluster_eq_some_iff.mp given, placed⟩
    · exact absurd relational aside.kind_ne
  · rcases Compilation.request_runsFor built member with ⟨m, listed, runs⟩ | aside
    · exact runs.fits (decoded m listed)
    · exact aside.fits

/-- The notes of a folder are looked for where the note itself is deleted by a pipeline: at the
cluster that the models declare, in the table of notes. -/
theorem requests_reach_bound_stores_filedNote :
    ∃ m n c, Model.decode filedNote = .ok m ∧ Model.decode noteFolder = .ok n ∧
      Compilation.build .default [m, n] = .ok c ∧
      ∃ k ∈ c.models, ∃ t ∈ k.traversals, t.relationship.target = "Note" ∧
        t.binding.IsAt ⟨"main", "secret", "notes"⟩ ∧ t.request.Fits ∧
        (∃ q, t.exchange.request.operation = .sql q) ∧
        ∃ l ∈ c.models, (∀ r ∈ l.resolvers, r.RunsOn t.binding) ∧
          ∃ r ∈ l.resolvers, r.field = .delete ∧ r.isPipeline = true := by
  obtain ⟨m, n, c, first, second, built, chosen, k, among, t, link, leads, found, sent, staged⟩ :
      ∃ m n c, Model.decode filedNote = .ok m ∧ Model.decode noteFolder = .ok n ∧
        Compilation.build .default [m, n] = .ok c ∧
        sharedCluster [m, n] .default = some ⟨"main", "secret", "notes"⟩ ∧
        ∃ k ∈ c.models, ∃ t ∈ k.traversals, t.relationship.target = "Note" ∧
          modelNamed [m, n] t.relationship.target = some m ∧
          (∃ q, t.exchange.request.operation = .sql q) ∧
          ∀ l, m.compile .default [m, n] = .ok l →
            ∃ r ∈ l.resolvers, r.field = .delete ∧ r.isPipeline = true := by
    refine ⟨_, _, _, rfl, rfl, rfl, rfl, _, .tail _ (.head _), _, .head _, rfl, rfl, ⟨_, rfl⟩, ?_⟩
    intro l compiled
    obtain rfl := Except.ok.inj compiled
    exact ⟨_, .tail _ (.tail _ (.tail _ (.tail _ (.head _)))), rfl, rfl⟩
  have decoded : ∀ x ∈ [m, n], x.IsDecoded := by
    simp only [List.mem_cons, List.not_mem_nil, or_false]
    rintro x (rfl | rfl)
    · exact ⟨_, first⟩
    · exact ⟨_, second⟩
  obtain ⟨_, links, chooses, fits⟩ := requests_reach_bound_stores decoded built
  obtain ⟨target, named, _, _, l, there, compiled, roots⟩ := links k among t link
  obtain rfl := Option.some.inj (found.symm.trans named)
  have request := Compilation.traversal_mem_requests among link
  obtain ⟨cluster, given, _, placed⟩ :=
    chooses _ request ((fits _ request).relational.mpr sent)
  obtain rfl := Option.some.inj (chosen.symm.trans given)
  exact ⟨m, n, c, first, second, built, k, among, t, link, leads, placed, fits _ request, sent, l,
    there, roots, staged l compiled⟩

end Sets

end ApiLoom
