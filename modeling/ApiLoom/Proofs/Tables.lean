import ApiLoom.Proofs.WrittenNames
import ApiLoom.Proofs.Reviewed
import ApiLoom.Proofs.Statements
import Mathlib.Data.List.Nodup

/-!
# Tables

Where the requests of a model go.  All requests of its root fields address the table of
its records, a document table of its own name or a relational one of its plural in lower
case; so two models of a reviewed set come upon each other's records where both are
relational and their plurals differ in case at most.  The review compares names only as
they are written.
-/

namespace ApiLoom

open Template (World State)

/-! ### Names of tables -/

namespace Text.IsName

variable {s t : String}

theorem lower_toList (name : IsName s) : (Text.lower s).toList = s.toList.map Char.toLower := by
  have mapped : ∀ seen cs, (∀ c ∈ cs, isNameChar c = true) →
      lowerFrom seen cs = cs.map Char.toLower := by
    intro seen cs
    induction cs generalizing seen with
    | nil => simp [lowerFrom]
    | cons c rest ih =>
      intro each
      have small := isNameChar_small (each c List.mem_cons_self)
      rw [lowerFrom, if_neg (by omega), if_neg (by omega), lowerChar, if_pos (by omega),
        ih _ fun e listed => each e (List.mem_cons_of_mem _ listed)]
      rfl
  rw [Text.lower, String.toList_ofList, mapped [] _ name]

end Text.IsName

namespace Naming

end Naming
/-! ### Tables of models -/

/-- A table of the document store or of the relational cluster. -/
inductive Table where
  | document (name : String)
  | relational (name : String)
deriving DecidableEq, Repr

namespace Model

/-- Where the records of the model lie; those of third parties lie elsewhere. -/
def table? (m : Model) : Option Table :=
  match m.engine with
  | .document => some (.document m.name)
  | .relational => some (.relational (Naming.tableName m.name))
  | .http | .queued => none

theorem tableName_isName {m : Model} (decoded : m.IsDecoded) :
    Text.IsName (Naming.tableName m.name) :=
  decoded.name_isName.plural.lower

end Model

/-! ### Statements -/

namespace Store

/-- The table of a statement, given by its words. -/
def tableOf : List String → Option String
  | "SELECT" :: "*" :: "FROM" :: table :: _ => some table
  | "INSERT" :: "INTO" :: table :: _ => some table
  | "UPDATE" :: table :: _ => some table
  | "DELETE" :: "FROM" :: table :: _ => some table
  | _ => none

def statementTable (statement : String) : Option String := tableOf (Text.words statement)

end Store

namespace SqlStatement

/-- The words of a statement before that of its table. -/
def verb : SqlStatement → List String
  | select .. => ["SELECT", "*", "FROM"]
  | insert .. => ["INSERT", "INTO"]
  | update .. => ["UPDATE"]
  | delete .. => ["DELETE", "FROM"]

theorem tableOf_verb (st : SqlStatement) (table : String) (rest : List String) :
    Store.tableOf (st.verb ++ table :: rest) = some table := by
  cases st <;> rfl

/-- Behind its table, a statement ends or goes on with another word. -/
theorem text_toList (st : SqlStatement) : ∃ rest, (rest = [] ∨ rest.head? = some ' ') ∧
    st.text.toList =
      (st.verb.flatMap fun word => word.toList ++ [' ']) ++ (st.table.toList ++ rest) := by
  cases st with
  | select table key guarded extent =>
    cases key with
    | none =>
      have spelled : (select table none guarded extent).text =
          "SELECT * FROM " ++ table ++ "" ++ extentText extent := rfl
      refine ⟨(extentText extent).toList, ?_, by simp [spelled, verb, SqlStatement.table]⟩
      cases extent <;> simp [extentText]
    | some k =>
      have spelled : (select table (some k) guarded extent).text =
          "SELECT * FROM " ++ table ++ matching k guarded ++ extentText extent := rfl
      refine ⟨(matching k guarded ++ extentText extent).toList, Or.inr (by simp [matching]), ?_⟩
      simp [spelled, verb, SqlStatement.table]
  | insert table columns =>
    have spelled : (insert table columns).text = "INSERT INTO " ++ table ++ " (" ++
        commas columns ++ ") VALUES (" ++ commas (columns.map placeholder) ++ ")" := rfl
    refine ⟨(" (" ++ commas columns ++ ") VALUES (" ++ commas (columns.map placeholder) ++
      ")").toList, Or.inr (by simp), ?_⟩
    simp [spelled, verb, SqlStatement.table]
  | update table assignments key guarded =>
    have spelled : (update table assignments key guarded).text = "UPDATE " ++ table ++ " SET " ++
        commas (assignments.map assignmentText) ++ matching key guarded := rfl
    refine ⟨(" SET " ++ commas (assignments.map assignmentText) ++
      matching key guarded).toList, Or.inr (by simp), ?_⟩
    simp [spelled, verb, SqlStatement.table]
  | delete table key guarded =>
    have spelled : (delete table key guarded).text =
        "DELETE FROM " ++ table ++ matching key guarded := rfl
    refine ⟨(matching key guarded).toList, Or.inr (by simp [matching]), ?_⟩
    simp [spelled, verb, SqlStatement.table]

/-- Whatever the references of a statement stand for, it addresses its table. -/
theorem statementTable_expand (w : World) (s : State) {st : SqlStatement}
    (plain : '$' ∉ st.table.toList) (whole : ' ' ∉ st.table.toList) :
    Store.statementTable (w.expand s st.text) = some st.table := by
  obtain ⟨rest, ends, spelled⟩ := st.text_toList
  have verbs : ∀ words : List String, (∀ v ∈ words, '$' ∉ v.toList ∧ ' ' ∉ v.toList) → ∀ cs,
      w.words s ((words.flatMap fun v => v.toList ++ [' ']) ++ cs) =
        words.map String.toList ++ w.words s cs := by
    intro words simple cs
    induction words with
    | nil => rfl
    | cons v later ih =>
      obtain ⟨known, one⟩ := simple v List.mem_cons_self
      rw [List.flatMap_cons, List.append_assoc, List.append_assoc, List.singleton_append,
        Template.words_append, Template.words_word known one,
        ih fun u listed => simple u (List.mem_cons_of_mem _ listed)]
      rfl
  have named : ∃ later, w.words s (st.table.toList ++ rest) = st.table.toList :: later := by
    rcases ends with rfl | spaced
    · exact ⟨[], by rw [List.append_nil, Template.words_word plain whole]⟩
    · obtain ⟨more, rfl⟩ := List.head?_eq_some_iff.mp spaced
      exact ⟨w.words s more, by rw [Template.words_append, Template.words_word plain whole]; rfl⟩
  obtain ⟨later, named⟩ := named
  have simple : ∀ v ∈ st.verb, '$' ∉ v.toList ∧ ' ' ∉ v.toList := by
    cases st <;> simp only [verb] <;> decide
  rw [Store.statementTable, Template.words_expand, spelled, verbs st.verb simple, named,
    List.map_append, List.map_cons, List.map_map]
  have spelling : st.verb.map (String.ofList ∘ String.toList) = st.verb := by
    simp [Function.comp_def]
  rw [spelling, String.ofList_toList, tableOf_verb]

end SqlStatement

/-! ### Requests -/

/-- A request and the store that it goes to. -/
abbrev StoreRequest := Binding × DataOperation

/-- In some run, the request addresses the table. -/
def StoreRequest.Addresses (x : StoreRequest) (t : Table) : Prop :=
  match x.2 with
  | .sql q => ∃ (w : World) (s : State), ∃ statement ∈ q.statements,
      (Store.statementTable (w.expand s statement)).map Table.relational = some t
  | _ => x.1.kind = .documentTable ∧ (x.1.details.lookup "tableName").map Table.document = some t

/-- The requests of a resolver that reach a store or a function. -/
def RootResolver.requests (r : RootResolver) : List StoreRequest :=
  match r.execution with
  | .unit binding => [(binding, r.exchange.request.operation)]
  | .pipeline stages => stages.map fun s => (s.binding, s.exchange.request.operation)

def TraversalResolver.request (r : TraversalResolver) : StoreRequest :=
  (r.binding, r.exchange.request.operation)

def SideResolver.request (r : SideResolver) : StoreRequest :=
  (r.binding, r.exchange.request.operation)

/-- The operation consists of statements on this table. -/
def DataOperation.IsOn (table : String) (operation : DataOperation) : Prop :=
  ∃ q statements, operation = .sql q ∧ q.statements = statements.map SqlStatement.text ∧
    statements ≠ [] ∧ ∀ st ∈ statements, st.table = table

/-- The operation is none on relational tables. -/
def DataOperation.IsOther (operation : DataOperation) : Prop := ∀ q, operation ≠ .sql q

theorem StoreRequest.addresses_iff_of_isOn {binding : Binding} {operation : DataOperation}
    {table : String} {t : Table} (named : Text.IsName table) (on : operation.IsOn table) :
    StoreRequest.Addresses (binding, operation) t ↔ t = .relational table := by
  obtain ⟨q, statements, rfl, written, filled, each⟩ := on
  have plain : '$' ∉ table.toList := fun member => absurd (named _ member) (by decide)
  have whole : ' ' ∉ table.toList := fun member => absurd (named _ member) (by decide)
  have read {st : SqlStatement} (listed : st ∈ statements) (w : World) (s : State) :
      Store.statementTable (w.expand s st.text) = some table := by
    have same := each st listed
    rw [SqlStatement.statementTable_expand w s (same ▸ plain) (same ▸ whole), same]
  constructor
  · rintro ⟨w, s, statement, member, found⟩
    obtain ⟨st, listed, rfl⟩ := List.mem_map.mp (written ▸ member)
    rw [read listed w s] at found
    exact (Option.some.inj found).symm
  · rintro rfl
    obtain ⟨st, listed⟩ := List.exists_mem_of_ne_nil statements filled
    refine ⟨⟨⟨fun _ _ _ => .null, fun _ => .null, fun _ => ""⟩, default⟩, default, st.text,
      ?_, ?_⟩
    · exact written ▸ List.mem_map_of_mem listed
    · rw [read listed]
      rfl

theorem StoreRequest.addresses_iff_of_isOther {binding : Binding} {operation : DataOperation}
    {t : Table} (other : operation.IsOther) :
    StoreRequest.Addresses (binding, operation) t ↔ binding.kind = .documentTable ∧
      (binding.details.lookup "tableName").map Table.document = some t := by
  cases operation with
  | sql q => exact absurd rfl (other q)
  | _ => exact Iff.rfl

namespace Model

variable {m : Model} {config : Config} {cluster : Option Cluster} {field : RootField}
  {binding : Binding} {t : Table}

theorem mainOperation_isOn (config : Config) (field : RootField) (gated : Bool)
    (relational : m.engine = .relational) :
    (m.mainOperation config field gated).1.IsOn (Naming.tableName m.name) := by
  have operation : (m.mainOperation config field gated).1 =
      (m.relationalMain config field gated).1 := by
    simp [mainOperation, relational]
  rw [operation]
  cases field with
  | get =>
    exact ⟨_, [m.selectByKey config], rfl, rfl, by simp, by simp [selectByKey, SqlStatement.table]⟩
  | list =>
    exact ⟨_, [.select (Naming.tableName m.name) none false .page], rfl, rfl, by simp,
      by simp [SqlStatement.table]⟩
  | create =>
    exact ⟨_, [.insert (Naming.tableName m.name) (m.insertColumns config), m.selectByKey config],
      rfl, rfl, by simp, by simp [selectByKey, SqlStatement.table]⟩
  | update =>
    exact ⟨_, [.update (Naming.tableName m.name) (m.updateAssignments config)
      config.identifierField (m.ownerGuard gated).isSome, m.selectByKey config],
      rfl, rfl, by simp, by simp [selectByKey, SqlStatement.table]⟩
  | delete =>
    exact ⟨_, [.select (Naming.tableName m.name) (some config.identifierField)
        (m.ownerGuard gated).isSome .all,
      .delete (Naming.tableName m.name) config.identifierField (m.ownerGuard gated).isSome],
      rfl, rfl, by simp, by simp [SqlStatement.table]⟩

theorem mainOperation_isOther (config : Config) (field : RootField) (gated : Bool)
    (other : m.engine ≠ .relational) : (m.mainOperation config field gated).1.IsOther := by
  intro q same
  cases engine : m.engine <;> cases field <;>
    simp_all [mainOperation, documentMain, httpMain, queuedMain]

/-- The fetch of a record is an operation of the same kind. -/
theorem fetchByKey_isOn {key : String} {operation : DataOperation} {source : RecordSource}
    (fetched : m.fetchByKey config key = .ok (operation, source)) :
    (m.engine = .relational → operation.IsOn (Naming.tableName m.name)) ∧
      (m.engine ≠ .relational → operation.IsOther) := by
  unfold fetchByKey at fetched
  cases engine : m.engine <;>
    simp only [engine, Except.ok.injEq, Prod.mk.injEq, reduceCtorEq] at fetched
  · obtain ⟨rfl, rfl⟩ := fetched
    exact ⟨by simp, fun _ q same => by cases same⟩
  · obtain ⟨rfl, rfl⟩ := fetched
    refine ⟨fun _ => ?_, by simp⟩
    exact ⟨_, [m.selectByKey config], rfl, rfl, by simp, by simp [selectByKey, SqlStatement.table]⟩
  · obtain ⟨rfl, rfl⟩ := fetched
    exact ⟨by simp, fun _ q same => by cases same⟩

/-- A model that is not relational is bound to a table where its records are documents. -/
theorem forModel_table (bound : Binding.forModel m cluster config = .ok binding)
    (unrelational : m.engine ≠ .relational) :
    (binding.kind = .documentTable ∧
      (binding.details.lookup "tableName").map Table.document = some t) ↔ m.table? = some t := by
  cases Binding.forModel_ok bound with
  | table source => simp [table?, engine, source, DataSource.engine, Binding.forTable]
  | cluster source => simp [engine, source, DataSource.engine] at unrelational
  | endpoint source => simp [table?, engine, source, DataSource.engine, Binding.forEndpoint]
  | queue source => simp [table?, engine, source, DataSource.engine, Binding.queue]

/-- A request that goes to the store of the model addresses its table and no other. -/
theorem addresses_iff {operation : DataOperation} (decoded : m.IsDecoded)
    (bound : Binding.forModel m cluster config = .ok binding)
    (on : m.engine = .relational → operation.IsOn (Naming.tableName m.name))
    (other : m.engine ≠ .relational → operation.IsOther) :
    StoreRequest.Addresses (binding, operation) t ↔ m.table? = some t := by
  by_cases relational : m.engine = .relational
  · rw [StoreRequest.addresses_iff_of_isOn (tableName_isName decoded) (on relational), table?,
      relational]
    simp [eq_comm]
  · rw [StoreRequest.addresses_iff_of_isOther (other relational)]
    exact forModel_table bound relational

theorem resolver_requests {r : RootResolver} (resolved : m.resolver config cluster field = .ok r) :
    ∃ binding, Binding.forModel m cluster config = .ok binding ∧
      (binding, (m.mainOperation config field (m.isGated field)).1) ∈ r.requests ∧
      ∀ x ∈ r.requests, (∃ function hook phase, x =
          (.forFunction function, .invokeHook hook function m.name phase)) ∨
        x.1 = binding ∧ (x.2 = (m.mainOperation config field (m.isGated field)).1 ∨
          ∃ key source, m.fetchByKey config key = .ok (x.2, source)) := by
  obtain ⟨binding, bound, _, ⟨unit, rfl⟩ | ⟨staged, fetch, fetched, rfl⟩⟩ := resolver_ok resolved
  · refine ⟨binding, bound, List.mem_singleton_self _, fun x member => ?_⟩
    obtain rfl := List.mem_singleton.mp member
    exact Or.inr ⟨rfl, Or.inl rfl⟩
  · have hooked {phase : HookPhase} {s : Stage} (member : s ∈ m.hookStage field phase) :
        ∃ function hook phase, (s.binding, s.exchange.request.operation) =
          (Binding.forFunction function, DataOperation.invokeHook hook function m.name phase) := by
      obtain ⟨function, _, _, rfl⟩ := mem_hookStage member
      exact ⟨function, _, phase, rfl⟩
    refine ⟨binding, bound, ?_, fun x member => ?_⟩
    · refine List.mem_map.mpr ⟨m.mainStage config field binding, ?_, rfl⟩
      exact List.mem_append_left _ (List.mem_append_right _ List.mem_cons_self)
    · obtain ⟨s, staged, rfl⟩ := List.mem_map.mp member
      simp only [List.mem_append, List.mem_singleton] at staged
      rcases staged with ((before | read) | rfl) | after
      · exact Or.inl (hooked before)
      · cases gated : m.isGated field with
        | false =>
          obtain rfl : [] = fetch := by simpa [preFetchStage, gated] using fetched
          cases read
        | true =>
          obtain ⟨stage, key, operation, source, rfl, found, _, same, asked, _⟩ :=
            preFetchStage_gated gated fetched
          obtain rfl := List.mem_singleton.mp read
          exact Or.inr ⟨same, Or.inr ⟨key, source, asked ▸ found⟩⟩
      · exact Or.inr ⟨rfl, Or.inl rfl⟩
      · exact Or.inl (hooked after)

/-- In all its runs, a root field addresses the table of its model and no other. -/
theorem resolver_addresses_iff {r : RootResolver} (decoded : m.IsDecoded)
    (resolved : m.resolver config cluster field = .ok r) :
    (∃ x ∈ r.requests, StoreRequest.Addresses x t) ↔ m.table? = some t := by
  obtain ⟨binding, bound, asked, all⟩ := resolver_requests resolved
  have main := addresses_iff (t := t) decoded bound
    (mainOperation_isOn config field (m.isGated field))
    (mainOperation_isOther config field (m.isGated field))
  constructor
  · rintro ⟨⟨b, operation⟩, member, addressed⟩
    rcases all _ member with ⟨function, hook, phase, same⟩ | ⟨rfl, rfl | ⟨key, source, fetched⟩⟩
    · obtain ⟨rfl, rfl⟩ := Prod.mk.inj same
      cases addressed.1
    · exact main.mp addressed
    · have kinds := fetchByKey_isOn fetched
      exact (addresses_iff decoded bound kinds.1 kinds.2).mp addressed
  · exact fun own => ⟨_, asked, main.mpr own⟩

theorem traversalTo_isOn {target : Model} {kind : RelationshipKind} {foreignKey : String}
    {operation : DataOperation} {shape : ResultShape}
    (reached : traversalTo config target kind foreignKey = some (operation, shape)) :
    (target.engine = .relational → operation.IsOn (Naming.tableName target.name)) ∧
      (target.engine ≠ .relational → operation.IsOther) := by
  unfold traversalTo at reached
  cases engine : target.engine <;>
    simp only [engine, Option.some.injEq, reduceCtorEq] at reached
  · refine ⟨by simp, fun _ q same => ?_⟩
    obtain rfl : (documentTraversal config kind foreignKey target.itemAccess).1 = operation :=
      congrArg Prod.fst reached
    cases kind <;> cases same
  · obtain rfl : (relationalTraversal config kind target.name foreignKey target.itemAccess).1 =
      operation := congrArg Prod.fst reached
    refine ⟨fun _ => ?_, by simp⟩
    cases kind with
    | hasMany =>
      exact ⟨_, [.select (Naming.tableName target.name) (some foreignKey) false .page], rfl, rfl,
        by simp, by simp [SqlStatement.table]⟩
    | belongsTo =>
      exact ⟨_, [.select (Naming.tableName target.name) (some config.identifierField) false .all],
        rfl, rfl, by simp, by simp [SqlStatement.table]⟩
    | hasOne =>
      exact ⟨_, [.select (Naming.tableName target.name) (some foreignKey) false .first], rfl, rfl,
        by simp, by simp [SqlStatement.table]⟩

/-- A relationship addresses the table of its target and no other. -/
theorem traversal_addresses_iff {lookup : String → Option Model} {name : String} {r : Relationship}
    {s : TraversalResolver} (decoded : ∀ target, lookup r.target = some target → target.IsDecoded)
    (resolved : m.traversal config cluster lookup name r = .ok s) :
    ∃ target, lookup s.relationship.target = some target ∧
      ∀ t, StoreRequest.Addresses s.request t ↔ target.table? = some t := by
  obtain ⟨target, operation, shape, found, reached, bound, same, asked, _⟩ := traversal_ok resolved
  have kinds := traversalTo_isOn reached
  refine ⟨target, same ▸ found, fun t => ?_⟩
  rw [TraversalResolver.request, asked]
  exact addresses_iff (decoded target found) bound kinds.1 kinds.2

/-- Of the resolvers beside the root fields, the one for results of queued requests alone
addresses a table. -/
theorem side_addresses_iff :
    (∃ s ∈ m.subscriptions ++ (m.jobResultLookup config).toList,
        StoreRequest.Addresses s.request t) ↔
      m.isRateLimited = true ∧ t = .document config.jobResultsTable := by
  constructor
  · rintro ⟨s, member, addressed⟩
    rcases List.mem_append.mp member with subscribed | looked
    · unfold subscriptions at subscribed
      split at subscribed
      · obtain ⟨field, _, rfl⟩ := List.mem_map.mp subscribed
        cases addressed.1
      · cases subscribed
    · obtain served := Option.mem_toList.mp looked
      unfold jobResultLookup at served
      split at served
      · next queued =>
        obtain rfl := Option.some.inj served
        exact ⟨queued, (Option.some.inj addressed.2).symm⟩
      · cases served
  · rintro ⟨queued, rfl⟩
    refine ⟨_, List.mem_append_right _ (Option.mem_toList.mpr (if_pos queued)), ?_⟩
    exact ⟨rfl, rfl⟩

end Model

/-! ### Sets of models -/

/-- A root field of the model addresses the table. -/
def CompiledModel.RunsAgainst (k : CompiledModel) (t : Table) : Prop :=
  ∃ r ∈ k.resolvers, ∃ x ∈ r.requests, StoreRequest.Addresses x t

theorem Model.runsAgainst_iff {m : Model} {config : Config} {models : List Model}
    {k : CompiledModel} {t : Table} (decoded : m.IsDecoded)
    (compiled : m.compile config models = .ok k) : k.RunsAgainst t ↔ m.table? = some t := by
  obtain ⟨resolved, _⟩ := compileWith_ok compiled
  constructor
  · rintro ⟨r, member, addressed⟩
    obtain ⟨field, _, served⟩ := mem_of_mapM_ok resolved r member
    exact (resolver_addresses_iff decoded served).mp addressed
  · intro own
    obtain ⟨r, member, served⟩ := exists_of_mapM_ok resolved .get List.mem_cons_self
    exact ⟨r, member, (resolver_addresses_iff decoded served).mpr own⟩

/-- The tables of two models with different names are one where both are relational and
their plurals differ in case at most. -/
theorem Model.table?_shared_iff {m n : Model} (apart : m.name ≠ n.name) :
    (∃ t, m.table? = some t ∧ n.table? = some t) ↔ m.engine = .relational ∧
      n.engine = .relational ∧ Naming.tableName m.name = Naming.tableName n.name := by
  cases first : m.engine <;> cases second : n.engine <;>
    simp [Model.table?, first, second, apart, eq_comm]

/-- Two models of a reviewed set run against one table where both are relational and their
plurals differ in case at most.  A relationship runs against the table of its target, and of
the other resolvers only the one for results of queued requests against any.  Nothing runs where
generation breaks off. -/
theorem storage_shared_iff {config : Config} {models : List Model} {seeds : Review.SeedData}
    (decoded : ∀ m ∈ models, m.IsDecoded) (passes : Review.Passes config models seeds) {m n : Model}
    (member : m ∈ models) (other : n ∈ models) (distinct : m ≠ n) :
    Compilation.BreaksOff config models ∨
      ∃ k l, m.compile config models = .ok k ∧ n.compile config models = .ok l ∧
      ((∃ t, k.RunsAgainst t ∧ l.RunsAgainst t) ↔ m.engine = .relational ∧
        n.engine = .relational ∧ Naming.tableName m.name = Naming.tableName n.name) ∧
      (∀ s ∈ k.traversals, ∃ target ∈ models, target.name = s.relationship.target ∧
        ∀ t, StoreRequest.Addresses s.request t ↔ target.table? = some t) ∧
      ∀ t, (∃ s ∈ k.subscriptions ++ k.jobResultLookup.toList,
          StoreRequest.Addresses s.request t) ↔
        m.isRateLimited = true ∧ t = .document config.jobResultsTable := by
  refine passes.builds.imp id fun ⟨c, built⟩ => ?_
  obtain ⟨all, _⟩ := Compilation.build_ok built
  obtain ⟨k, _, first⟩ := exists_of_mapM_ok all m member
  obtain ⟨l, _, second⟩ := exists_of_mapM_ok all n other
  have apart : m.name ≠ n.name := fun same =>
    distinct (List.inj_on_of_nodup_map passes.names.1 member other same)
  obtain ⟨_, related, subscribed, looked⟩ := Model.compileWith_ok first
  refine ⟨k, l, first, second, ?_, fun s traversed => ?_, fun t => ?_⟩
  · simp only [Model.runsAgainst_iff (decoded m member) first,
      Model.runsAgainst_iff (decoded n other) second, Model.table?_shared_iff apart]
  · obtain ⟨r, _, served⟩ := mem_of_mapM_ok related s traversed
    obtain ⟨target, found, addressed⟩ := Model.traversal_addresses_iff
      (fun x found => decoded x (mem_of_modelNamed found).1) served
    exact ⟨target, (mem_of_modelNamed found).1, (mem_of_modelNamed found).2, addressed⟩
  · rw [subscribed, looked]
    exact Model.side_addresses_iff

/-- A relational model of this name, with no more than an identifier and its cluster. -/
def clusteredModel (name : String) : Value := .object [
  ("name", .text name),
  ("properties", .object [("id", .object [("type", .text "ID")])]),
  ("dataSource", .object [("type", .text "database"), ("engine", .text "sql"),
    ("cluster", .object [("name", .text "main"), ("secretRef", .text "secret"),
      ("database", .text "app")])])]

theorem storage_shared_backlogs :
    ∃ m n, Model.decode (clusteredModel "BackLog") = .ok m ∧
      Model.decode (clusteredModel "Backlog") = .ok n ∧ Review.Passes .default [m, n] [] ∧
      ∃ k l, m.compile .default [m, n] = .ok k ∧ n.compile .default [m, n] = .ok l ∧
        ∃ t, k.RunsAgainst t ∧ l.RunsAgainst t := by
  obtain ⟨m, n, first, second, named, other, relational, harmless, written⟩ : ∃ m n,
      Model.decode (clusteredModel "BackLog") = .ok m ∧
      Model.decode (clusteredModel "Backlog") = .ok n ∧ m.name = "BackLog" ∧
      n.name = "Backlog" ∧ (m.engine = .relational ∧ n.engine = .relational) ∧
      (∀ f ∈ Review.all .default [m, n] [], f.level ≠ .error) ∧ ∀ x ∈ [m, n], ¬ x.HasLongLimit :=
    ⟨_, _, rfl, rfl, rfl, rfl, ⟨rfl, rfl⟩, by decide +kernel, by decide +kernel⟩
  have decoded : ∀ x ∈ [m, n], x.IsDecoded := by
    intro x member
    simp only [List.mem_cons, List.not_mem_nil, or_false] at member
    rcases member with rfl | rfl
    · exact ⟨_, first⟩
    · exact ⟨_, second⟩
  have passes : Review.Passes .default [m, n] [] := Report.isValid_ofFindings.mpr harmless
  have distinct : m ≠ n := by
    rintro rfl
    exact absurd (named.symm.trans other) (by decide)
  have table : Naming.tableName m.name = Naming.tableName n.name := by
    rw [named, other]
    decide +kernel
  obtain ⟨k, l, compiled, also, shared, _⟩ :=
    (storage_shared_iff decoded passes (by simp) (by simp) distinct).resolve_left
      (Compilation.not_breaksOff written)
  exact ⟨m, n, first, second, passes, k, l, compiled, also,
    shared.mpr ⟨relational.1, relational.2, table⟩⟩

end ApiLoom
