import ApiLoom.Proofs.CreateRequests
import ApiLoom.Proofs.RowRequests
import ApiLoom.Proofs.Sent
import ApiLoom.Proofs.Tables

/-!
# Columns

The statements that resolvers send name the table of a model and properties of this model.
What else stands in them is fixed, or names a placeholder: neither the texts of a model file
nor those of the configuration come into a statement in any other way.
-/

namespace ApiLoom

open Template Template.Script Store
open Text (IsFilledName)

/-! ### What a model admits -/

/-- The statement can be read in one way: on the table of the model, with columns and placeholders
that are properties of the model, but for the placeholder of the owner.  What else stands in it
is fixed. -/
structure Model.Admits (m : Model) (statement : String) : Prop where
  reads : ∃ q, Reads statement q
  table : ∀ q, Reads statement q → q.table = Naming.tableName m.name
  columns : ∀ q, Reads statement q → ∀ column ∈ q.columns, m.hasProperty column = true
  bound : ∀ q, Reads statement q → ∀ name ∈ q.bound, name = "owner" ∨ m.hasProperty name = true
  fixed : ∀ token ∈ tokens statement, token ∈ fixedTokens ∨
    token = .name (Naming.tableName m.name) ∨
      ∃ name, m.hasProperty name = true ∧ token = .name name

/-- The statement is on the table of the model and names its properties; where it is guarded,
there is an owner to guard it by. -/
structure SqlStatement.KeepsTo (st : SqlStatement) (m : Model) (owner : Option String) : Prop where
  table : st.table = Naming.tableName m.name
  columns : ∀ c ∈ st.columns, m.hasProperty c = true
  guarded : st.isGuarded = true → owner.isSome = true

structure SqlStatements.KeepsTo (q : SqlStatements) (m : Model) : Prop where
  written : ∃ statements, q.statements = statements.map SqlStatement.text ∧ statements ≠ [] ∧
    ∀ st ∈ statements, st.KeepsTo m q.ownerGuard
  owner : ∀ owner ∈ q.ownerGuard, m.hasProperty owner = true

def DataOperation.KeepsTo (operation : DataOperation) (m : Model) : Prop :=
  ∀ q, operation = .sql q → q.KeepsTo m

/-- The template handed out as many statements as were planned, and the model admits each. -/
def SqlStatements.SendsWithin (q : SqlStatements) (m : Model) (t : State) : Prop :=
  ∃ texts, t.output.field "statements" = .texts texts ∧ texts.length = q.statements.length ∧
    ∀ text ∈ texts, m.Admits text

/-- The requests of the resolver of a root field, and of its stages. -/
def RootResolver.plans (r : RootResolver) : List RequestPlan :=
  r.exchange.request :: r.stages.map fun s => s.exchange.request

/-- If the request goes to a cluster, the model admits all statements that a run sends, and a
run that comes to its operation sends some. -/
def RequestPlan.StaysWithin (plan : RequestPlan) (config : Config) (m : Model) : Prop :=
  ∀ q, plan.operation = .sql q → q.statements ≠ [] ∧
    (∀ w s, ((perform config plan.operation).exec w s).Reaches (q.SendsWithin m)) ∧
      ∀ w s t, (ofRequest config plan).exec w s = .next t → q.SendsWithin m t

/-! ### Names -/

section Names

variable {m : Model} {config : Config}

theorem Naming.plural_filled {name : String} (filled : name ≠ "") : plural name ≠ "" := by
  have irregular : ∀ p ∈ irregularPlurals, p.2 ≠ "" ∧ capitalize p.2 ≠ "" := by decide
  have ended (ending : String) : name ++ ending ≠ "" := by
    intro empty
    exact filled (String.append_eq_empty_iff.mp empty).1
  unfold plural
  split
  · next none => exact absurd (String.isEmpty_iff.mp none) filled
  · dsimp only
    split
    · next found =>
      have listed := irregular _ (List.mem_of_find?_eq_some found)
      split
      · exact listed.2
      · exact listed.1
    · split
      · exact ended _
      · split
        · split
          · intro empty
            exact absurd (String.append_eq_empty_iff.mp empty).2 (by decide)
          · exact ended _
        · exact ended _

theorem Model.tableName_isFilledName (decoded : m.IsDecoded) :
    IsFilledName (Naming.tableName m.name) := by
  refine ⟨tableName_isName decoded, fun empty => ?_⟩
  have filled := (Text.isWord_of_isIdentifier decoded.parts.1).filled
  have letters := congrArg String.toList empty
  rw [Naming.tableName, decoded.name_isName.plural.lower_toList] at letters
  exact Naming.plural_filled filled (String.toList_inj.mp (List.map_eq_nil_iff.mp letters))

theorem Model.hasProperty_of_mem {p : Property} (member : p ∈ m.properties) :
    m.hasProperty p.name = true :=
  List.contains_iff_mem.mpr (List.mem_map_of_mem member)

theorem Model.ownerField_declared {owner : String} (owned : m.ownerField = some owner) :
    m.hasProperty owner = true := by
  obtain ⟨p, found, rfl⟩ := Option.map_eq_some_iff.mp owned
  exact hasProperty_of_mem (List.mem_of_find?_eq_some found)

theorem Model.ownerGuard_declared {gated : Bool} :
    ∀ owner ∈ m.ownerGuard gated, m.hasProperty owner = true := by
  intro owner guarded
  unfold ownerGuard at guarded
  split at guarded
  · exact ownerField_declared guarded
  · cases guarded

end Names

/-! ### What runs send -/

section Runs

variable {m : Model} {config : Config} {q : SqlStatements} {w : World} {s t : State}

/-- A statement that keeps to the model is admitted, narrowed to an owner or not. -/
theorem Model.admits_sent (decoded : m.IsDecoded) {st : SqlStatement} {owner : Option String}
    (on : st.table = Naming.tableName m.name) (columns : ∀ c ∈ st.columns, m.hasProperty c = true)
    (owned : ∀ name ∈ owner, m.hasProperty name = true) :
    m.Admits (st.sent (rowGuard owner)) := by
  have named {name : String} (declared : m.hasProperty name = true) : IsFilledName name :=
    Text.isFilledName_of_isIdentifier (decoded.declared_identifier declared)
  have read : Reads (st.sent (rowGuard owner)) (st.query owner) := by
    refine SqlStatement.sent_reads (List.forall_mem_cons.mpr ⟨?_, fun c member => ?_⟩) ?_
    · exact on ▸ tableName_isFilledName decoded
    · exact named (columns c member)
    · exact fun name given => named (owned name given)
  refine ⟨⟨_, read⟩, fun q other => ?_, fun q other column member => ?_,
    fun q other name member => ?_, fun token member => ?_⟩
  · rw [other.unique read, SqlStatement.query_table, on]
  · rw [other.unique read] at member
    exact (SqlStatement.mem_query_columns member).elim (columns column) (owned column)
  · rw [other.unique read] at member
    exact (SqlStatement.mem_query_bound member).symm.imp_right (columns name)
  · have within : token ∈ (st.query owner).tokens := read ▸ member
    rcases Query.mem_tokens within with fixed | table | ⟨name, named, same⟩
    · exact Or.inl fixed
    · exact Or.inr (Or.inl (by rw [table, SqlStatement.query_table, on]))
    · rcases List.mem_append.mp named with column | bound
      · exact Or.inr (Or.inr ⟨name, (SqlStatement.mem_query_columns column).elim (columns name)
          (owned name), same⟩)
      · rcases SqlStatement.mem_query_bound bound with column | rfl
        · exact Or.inr (Or.inr ⟨name, columns name column, same⟩)
        · exact Or.inl (same ▸ by decide)

/-- What is bound before a statement is guarded. -/
def beforeGuard (q : SqlStatements) : Script :=
  acts (q.prelude.map fun a => .set a.name (.verbatim a.expression)) ++
    match q.page with
    | some p => boundPage p ++ boundOffset p
    | none => .done

theorem sql_parts (config : Config) (q : SqlStatements) : perform config (.sql q) =
    beforeGuard q ++ guardScript q.ownerGuard ++ acts [.send (versioned config (sqlMembers q))] :=
  rfl

/-- The body of a request lists its statements, narrowed to the owner where they are guarded. -/
theorem sql_statements {statements : List SqlStatement} {owner : Option String}
    (written : q.statements = statements.map SqlStatement.text)
    (names : ∀ st ∈ statements, ∀ n ∈ st.table :: st.columns, IsFilledName n)
    (guarded : ∀ st ∈ statements, st.isGuarded = true → q.ownerGuard.isSome = true)
    (bound : GuardBound owner q.ownerGuard.isSome s) :
    ((versioned config (sqlMembers q)).eval w s).field "statements" =
      .texts (statements.map fun st =>
        st.sent (rowGuard (if st.isGuarded then owner else none))) := by
  have expanded : (q.statements.map (w.expand s)) = statements.map fun st =>
      st.sent (rowGuard (if st.isGuarded then owner else none)) := by
    rw [written, List.map_map]
    refine List.map_congr_left fun st member => ?_
    refine SqlStatement.expand_text (names st member) fun narrowed => ?_
    simpa [GuardBound, guarded st member narrowed] using bound
  obtain ⟨version, more, hints, body⟩ := sqlMembers_eval (w := w) (s := s) config q
  rw [body, expanded, Value.field_map, statements_entry hints]
  rfl

/-- What a request with statements sends. -/
theorem sql_sends {statements : List SqlStatement}
    (written : q.statements = statements.map SqlStatement.text)
    (names : ∀ st ∈ statements, ∀ n ∈ st.table :: st.columns, IsFilledName n)
    (guarded : ∀ st ∈ statements, st.isGuarded = true → q.ownerGuard.isSome = true)
    (owned : ∀ owner, q.ownerGuard = some owner → Text.IsWord owner) (w : World) (s : State) :
    ((perform config (.sql q)).exec w s).Reaches fun t =>
      ∃ owner : Option String, (∀ name ∈ owner, name ∈ q.ownerGuard) ∧
        t.output.field "statements" = .texts (statements.map fun st =>
          st.sent (rowGuard (if st.isGuarded then owner else none))) := by
  rw [sql_parts, exec_append, exec_append]
  have begun : (beforeGuard q).Only Action.asks := by
    unfold beforeGuard
    cases q.page <;> simp [boundPage_asks, boundOffset, Action.asks]
  obtain ⟨u, first, _⟩ := begun.exec_reaches w s
  obtain ⟨v, second, _, bound⟩ := guardScript_reaches (w := w) (s := u) owned
  rw [first, Step.next_andThen, second, Step.next_andThen, exec_acts_cons, Action.perform,
    Step.next_andThen, exec_acts_nil]
  generalize active : (if u.flagged needsOwnershipCheck then q.ownerGuard else none) = owner
    at bound
  refine .now ⟨owner, fun name given => ?_, sql_statements written names guarded bound⟩
  split at active
  · exact active ▸ given
  · rw [← active] at given
    cases given

/-- A request that sends anything has come to its operation. -/
theorem ofRequest_next {plan : RequestPlan} (run : (ofRequest config plan).exec w s = .next t) :
    ∃ u, (perform config plan.operation).exec w u = .next t := by
  rw [ofRequest, exec_append] at run
  generalize (_ : Script).exec w s = step at run
  cases step with
  | next u => exact ⟨u, run⟩
  | left | stopped | refused | failed => cases run

theorem RequestPlan.staysWithin {plan : RequestPlan} (decoded : m.IsDecoded)
    (keeps : plan.operation.KeepsTo m) : plan.StaysWithin config m := by
  intro q asked
  obtain ⟨⟨statements, written, some, each⟩, owned⟩ := keeps q asked
  have named {name : String} (declared : m.hasProperty name = true) :
      Text.isIdentifier name = true := decoded.declared_identifier declared
  have sends (w : World) (s : State) :
      ((perform config plan.operation).exec w s).Reaches (q.SendsWithin m) := by
    rw [asked]
    refine (sql_sends written (fun st member => ?_) (fun st member => (each st member).guarded)
      (fun owner given => ?_) w s).mono ?_
    · have keeps := each st member
      refine List.forall_mem_cons.mpr
        ⟨keeps.table ▸ m.tableName_isFilledName decoded, fun c listed => ?_⟩
      exact Text.isFilledName_of_isIdentifier (named (keeps.columns c listed))
    · exact Text.isWord_of_isIdentifier (named (owned owner given))
    · rintro t ⟨owner, guards, sent⟩
      refine ⟨_, sent, by simp [written], fun text member => ?_⟩
      obtain ⟨st, listed, rfl⟩ := List.mem_map.mp member
      have keeps := each st listed
      refine Model.admits_sent decoded keeps.table keeps.columns fun name given => ?_
      split at given
      · exact owned name (guards name given)
      · cases given
  refine ⟨by simpa [written] using some, sends, fun w s t run => ?_⟩
  obtain ⟨u, run⟩ := ofRequest_next run
  obtain ⟨x, reached, within⟩ := sends w u
  obtain rfl := Step.next.inj (reached.symm.trans run)
  exact within

end Runs

/-! ### Operations -/

theorem DataOperation.IsOther.keepsTo {operation : DataOperation} {m : Model}
    (other : operation.IsOther) : operation.KeepsTo m := fun q same => absurd same (other q)

/-- A request of one statement without a guard. -/
theorem SqlStatements.keepsTo_of_single {q : SqlStatements} {m : Model} (st : SqlStatement)
    (written : q.statements = [st.text]) (unguarded : q.ownerGuard = none)
    (keeps : st.KeepsTo m none) : q.KeepsTo m := by
  refine ⟨⟨[st], written, List.cons_ne_nil _ _, ?_⟩, by simp [unguarded]⟩
  exact List.forall_mem_singleton.mpr (unguarded ▸ keeps)

namespace Model

section Operations

variable {m : Model} {config : Config} {field : RootField} {owner : Option String}
  (identified : m.hasProperty config.identifierField = true)

theorem writableFields_declared : ∀ c ∈ m.writableFields config, m.hasProperty c = true := by
  intro c member
  obtain ⟨p, listed, rfl⟩ := List.mem_map.mp member
  exact hasProperty_of_mem (List.mem_of_mem_filter listed)

theorem updateTimestamp_declared : ∀ c ∈ m.updateTimestamp config, m.hasProperty c = true := by
  intro c member
  unfold updateTimestamp at member
  split at member
  · next declared => exact List.mem_singleton.mp member ▸ declared
  · cases member

/-- Each column of a new row is bound by a placeholder of its name. -/
theorem insertVariables_names : (m.insertVariables config).map (·.name) =
    (m.insertColumns config).map placeholder := by
  simp only [insertVariables, insertColumns, writableFields, List.map_cons, List.map_append,
    List.map_map]
  rfl

theorem keyed_keepsTo {key : String} (declared : m.hasProperty key = true) (extent : SqlExtent) :
    (SqlStatement.select (Naming.tableName m.name) (some key) false extent).KeepsTo m owner :=
  ⟨rfl, List.forall_mem_singleton.mpr declared, fun guarded => by cases guarded⟩

include identified in
theorem selectByKey_keepsTo : (m.selectByKey config).KeepsTo m owner :=
  keyed_keepsTo identified .all

include identified in
theorem insert_keepsTo :
    (SqlStatement.insert (Naming.tableName m.name) (m.insertColumns config)).KeepsTo m owner := by
  refine ⟨rfl, List.forall_mem_cons.mpr ⟨identified, List.forall_mem_append.mpr
    ⟨writableFields_declared, fun c member => ?_⟩⟩, fun guarded => by cases guarded⟩
  exact (List.mem_filter.mp member).2

include identified in
theorem update_keepsTo (owner : Option String) :
    (SqlStatement.update (Naming.tableName m.name) (m.updateAssignments config)
      config.identifierField owner.isSome).KeepsTo m owner := by
  refine ⟨rfl, List.forall_mem_append.mpr ⟨fun c member => ?_,
    List.forall_mem_singleton.mpr identified⟩, id⟩
  obtain ⟨a, assigned, rfl⟩ := List.mem_map.mp member
  rcases List.mem_append.mp assigned with kept | put
  · obtain ⟨c, listed, rfl⟩ := List.mem_map.mp kept
    exact writableFields_declared c listed
  · obtain ⟨c, listed, rfl⟩ := List.mem_map.mp put
    exact updateTimestamp_declared c listed

include identified in
theorem mainOperation_keepsTo (field : RootField) (gated : Bool) :
    (m.mainOperation config field gated).1.KeepsTo m := by
  by_cases relational : m.engine = .relational
  · have operation : (m.mainOperation config field gated).1 =
        (m.relationalMain config field gated).1 := by
      simp [mainOperation, relational]
    have key : ∀ c ∈ [config.identifierField], m.hasProperty c = true :=
      List.forall_mem_singleton.mpr identified
    intro q asked
    rw [operation] at asked
    cases field with
    | get =>
      obtain rfl := DataOperation.sql.inj asked
      exact SqlStatements.keepsTo_of_single _ rfl rfl (selectByKey_keepsTo identified)
    | list =>
      obtain rfl := DataOperation.sql.inj asked
      exact SqlStatements.keepsTo_of_single (.select (Naming.tableName m.name) none false .page)
        rfl rfl ⟨rfl, by simp [SqlStatement.columns], by simp [SqlStatement.isGuarded]⟩
    | create =>
      obtain rfl := DataOperation.sql.inj asked
      exact ⟨⟨[.insert (Naming.tableName m.name) (m.insertColumns config), m.selectByKey config],
        rfl, by simp, List.forall_mem_cons.mpr ⟨insert_keepsTo identified,
          List.forall_mem_singleton.mpr (selectByKey_keepsTo identified)⟩⟩,
        by simp [sqlInsert, statements]⟩
    | update =>
      obtain rfl := DataOperation.sql.inj asked
      exact ⟨⟨[.update (Naming.tableName m.name) (m.updateAssignments config)
          config.identifierField (m.ownerGuard gated).isSome, m.selectByKey config],
        rfl, by simp, List.forall_mem_cons.mpr ⟨update_keepsTo identified _,
          List.forall_mem_singleton.mpr (selectByKey_keepsTo identified)⟩⟩, ownerGuard_declared⟩
    | delete =>
      obtain rfl := DataOperation.sql.inj asked
      exact ⟨⟨[.select (Naming.tableName m.name) (some config.identifierField)
            (m.ownerGuard gated).isSome .all,
          .delete (Naming.tableName m.name) config.identifierField (m.ownerGuard gated).isSome],
        rfl, by simp, List.forall_mem_cons.mpr ⟨⟨rfl, key, id⟩,
          List.forall_mem_singleton.mpr ⟨rfl, key, id⟩⟩⟩, ownerGuard_declared⟩
  · exact (mainOperation_isOther config field gated relational).keepsTo

include identified in
theorem fetchByKey_keepsTo {key : String} {operation : DataOperation} {source : RecordSource}
    (fetched : m.fetchByKey config key = .ok (operation, source)) : operation.KeepsTo m := by
  by_cases relational : m.engine = .relational
  · simp only [fetchByKey, relational, Except.ok.injEq, Prod.mk.injEq] at fetched
    obtain ⟨rfl, _⟩ := fetched
    intro q asked
    obtain rfl := DataOperation.sql.inj asked
    exact SqlStatements.keepsTo_of_single _ rfl rfl (selectByKey_keepsTo identified)
  · exact ((fetchByKey_isOn fetched).2 relational).keepsTo

/-- A traversal names the key where it lies: the identifier of the target, or the foreign key
that refers to the source. -/
theorem traversalTo_keepsTo {target : Model} {kind : RelationshipKind} {foreignKey : String}
    {operation : DataOperation} {shape : ResultShape}
    (identified : target.hasProperty config.identifierField = true)
    (keyed : kind.isIndexed = true → target.hasProperty foreignKey = true)
    (reached : traversalTo config target kind foreignKey = some (operation, shape)) :
    operation.KeepsTo target := by
  by_cases relational : target.engine = .relational
  · simp only [traversalTo, relational, Option.some.injEq] at reached
    obtain rfl : (relationalTraversal config kind target.name foreignKey target.itemAccess).1 =
      operation := congrArg Prod.fst reached
    intro q asked
    cases kind with
    | hasMany =>
      obtain rfl := DataOperation.sql.inj asked
      exact SqlStatements.keepsTo_of_single _ rfl rfl (keyed_keepsTo (keyed rfl) .page)
    | belongsTo =>
      obtain rfl := DataOperation.sql.inj asked
      exact SqlStatements.keepsTo_of_single _ rfl rfl (keyed_keepsTo identified .all)
    | hasOne =>
      obtain rfl := DataOperation.sql.inj asked
      exact SqlStatements.keepsTo_of_single _ rfl rfl (keyed_keepsTo (keyed rfl) .first)
  · exact ((traversalTo_isOn reached).2 relational).keepsTo

end Operations

/-! ### Resolvers -/

section Resolvers

variable {m : Model} {config : Config} {cluster : Option Cluster} {field : RootField}

/-- Each request of a root field, those of its stages too, stays within the model. -/
theorem resolver_staysWithin {r : RootResolver} (decoded : m.IsDecoded)
    (identified : m.hasProperty config.identifierField = true)
    (resolved : m.resolver config cluster field = .ok r) :
    ∀ plan ∈ r.plans, plan.StaysWithin config m := by
  have kept : ∀ x ∈ r.requests, x.2.KeepsTo m := by
    obtain ⟨_, _, _, all⟩ := resolver_requests resolved
    intro x member
    rcases all x member with ⟨_, _, _, rfl⟩ | ⟨_, same | ⟨_, _, fetched⟩⟩
    · exact fun q asked => by cases asked
    · exact same ▸ mainOperation_keepsTo identified field _
    · exact fetchByKey_keepsTo identified fetched
  intro plan member
  refine RequestPlan.staysWithin decoded ?_
  obtain ⟨binding, _, _, ⟨_, rfl⟩ | ⟨_, fetch, _, rfl⟩⟩ := resolver_ok resolved
  · obtain rfl := List.mem_singleton.mp member
    exact kept _ (List.mem_singleton_self _)
  · rcases List.mem_cons.mp member with rfl | staged
    · exact fun q asked => by cases asked
    · obtain ⟨s, listed, rfl⟩ := List.mem_map.mp staged
      exact kept _ (List.mem_map_of_mem listed)

theorem subscriptions_isOther : ∀ s ∈ m.subscriptions, s.exchange.request.operation.IsOther := by
  intro s member
  unfold subscriptions at member
  split at member
  · obtain ⟨field, _, rfl⟩ := List.mem_map.mp member
    exact fun q same => by cases same
  · cases member

theorem jobResultLookup_isOther (config : Config) :
    ∀ s ∈ m.jobResultLookup config, s.exchange.request.operation.IsOther := by
  intro s looked
  unfold jobResultLookup at looked
  split at looked
  · obtain rfl := Option.some.inj looked
    exact fun q same => by cases same
  · cases looked

end Resolvers

end Model

theorem sharedResolvers_isOther (models : List Model) :
    ∀ s ∈ sharedResolvers models, s.exchange.request.operation.IsOther := by
  intro s member
  unfold sharedResolvers at member
  split at member
  · simp only [List.mem_cons, List.not_mem_nil, or_false] at member
    rcases member with rfl | rfl <;> exact fun q same => by cases same
  · cases member

/-! ### Sets of models -/

/-- In a reviewed set, the requests of root fields stay within their model and those of
relationships within their target; no other request has statements.  There are no requests where
generation breaks off. -/
theorem statements_name_declared_columns {config : Config} {models : List Model}
    {seeds : Review.SeedData} (decoded : ∀ m ∈ models, m.IsDecoded)
    (passes : Review.Passes config models seeds) :
    Compilation.BreaksOff config models ∨ ∃ c, Compilation.build config models = .ok c ∧
      (∀ k ∈ c.models, ∃ m ∈ models, m.compile config models = .ok k) ∧
      (∀ m ∈ models, ∀ k, m.compile config models = .ok k →
        (∀ r ∈ k.resolvers, ∀ plan ∈ r.plans, plan.StaysWithin config m) ∧
        (∀ t ∈ k.traversals, ∃ target, modelNamed models t.relationship.target = some target ∧
          t.exchange.request.StaysWithin config target) ∧
        ∀ s ∈ k.subscriptions ++ k.jobResultLookup.toList,
          s.exchange.request.operation.IsOther) ∧
      ∀ s ∈ c.shared, s.exchange.request.operation.IsOther := by
  refine passes.builds.imp id fun ⟨c, built⟩ => ?_
  obtain ⟨all, shared⟩ := Compilation.build_ok built
  refine ⟨c, built, fun k => mem_of_mapM_ok all k, fun m listed k compiled => ?_,
    shared ▸ sharedResolvers_isOther models⟩
  obtain ⟨resolved, related, subscribed, looked⟩ := Model.compileWith_ok compiled
  refine ⟨fun r member => ?_, fun t member => ?_, fun s member => ?_⟩
  · obtain ⟨field, _, served⟩ := mem_of_mapM_ok resolved r member
    exact Model.resolver_staysWithin (decoded m listed) (passes.identifier_declared listed) served
  · obtain ⟨⟨field, r⟩, among, served⟩ := mem_of_mapM_ok related t member
    obtain ⟨target, _, _, found, reached, _, same, asked, _⟩ := Model.traversal_ok served
    have there := (mem_of_modelNamed found).1
    refine ⟨target, same ▸ found, RequestPlan.staysWithin (decoded target there) ?_⟩
    rw [asked]
    exact Model.traversalTo_keepsTo (passes.identifier_declared there)
      (fun indexed => passes.key_on_target listed among indexed found) reached
  · rcases List.mem_append.mp member with subscription | lookup
    · exact Model.subscriptions_isOther s (subscribed ▸ subscription)
    · exact Model.jobResultLookup_isOther config s (looked ▸ Option.mem_toList.mp lookup)

def filedSource : Value := .object [("type", .text "database"), ("engine", .text "sql"),
  ("cluster", .object [("name", .text "main"), ("secretRef", .text "secret"),
    ("database", .text "notes")])]

/-- A note in a folder, to be deleted by its author alone. -/
def filedNote : Value := .object [
  ("name", .text "Note"),
  ("properties", .object [
    ("id", .object [("type", .text "ID")]),
    ("author", .object [("type", .text "String"), ("isOwner", .bool true)]),
    ("folderId", .object [("type", .text "ID")])]),
  ("dataSource", filedSource),
  ("accessControl", .object [("rules", .list [
    .object [("allow", .text "delete"), ("owner", .bool true)]])])]

def noteFolder : Value := .object [
  ("name", .text "Folder"),
  ("properties", .object [("id", .object [("type", .text "ID")])]),
  ("dataSource", filedSource),
  ("relationships", .object [
    ("notes", .object [("type", .text "hasMany"), ("target", .text "Note")])])]

theorem statements_name_declared_columns_filedNote :
    ∃ m n k l, Model.decode filedNote = .ok m ∧ Model.decode noteFolder = .ok n ∧
      Review.Passes .default [m, n] [] ∧ m.compile .default [m, n] = .ok k ∧
      n.compile .default [m, n] = .ok l ∧
      (∃ r ∈ k.resolvers, ∃ plan ∈ r.plans, plan.StaysWithin .default m ∧
        ∃ q, plan.operation = .sql q ∧ q.ownerGuard = some "author") ∧
      ∃ t ∈ l.traversals, t.exchange.request.StaysWithin .default m ∧
        ∃ q, t.exchange.request.operation = .sql q := by
  obtain ⟨m, n, k, l, first, second, compiled, also, ⟨r, there, plan, among, q, asked, guarded⟩,
      ⟨t, serves, leads, p, queried⟩, harmless, written⟩ : ∃ m n k l,
      Model.decode filedNote = .ok m ∧ Model.decode noteFolder = .ok n ∧
      m.compile .default [m, n] = .ok k ∧ n.compile .default [m, n] = .ok l ∧
      (∃ r ∈ k.resolvers, ∃ plan ∈ r.plans, ∃ q, plan.operation = .sql q ∧
        q.ownerGuard = some "author") ∧
      (∃ t ∈ l.traversals, modelNamed [m, n] t.relationship.target = some m ∧
        ∃ q, t.exchange.request.operation = .sql q) ∧
      (∀ f ∈ Review.all .default [m, n] [], f.level ≠ .error) ∧ ∀ x ∈ [m, n], ¬ x.HasLongLimit :=
    ⟨_, _, _, _, rfl, rfl, rfl, rfl,
      ⟨_, .tail _ (.tail _ (.tail _ (.tail _ (.head _)))), _, .tail _ (.tail _ (.head _)), _, rfl,
        rfl⟩,
      ⟨_, .head _, rfl, _, rfl⟩, by decide +kernel, by decide +kernel⟩
  have passes : Review.Passes .default [m, n] [] := Report.isValid_ofFindings.mpr harmless
  have decoded : ∀ x ∈ [m, n], x.IsDecoded := by
    simp only [List.mem_cons, List.not_mem_nil, or_false]
    rintro x (rfl | rfl)
    · exact ⟨_, first⟩
    · exact ⟨_, second⟩
  obtain ⟨_, _, _, each, _⟩ := (statements_name_declared_columns decoded passes).resolve_left
    (Compilation.not_breaksOff written)
  obtain ⟨fields, _⟩ := each m (by simp) k compiled
  obtain ⟨_, links, _⟩ := each n (by simp) l also
  obtain ⟨target, found, within⟩ := links t serves
  obtain rfl := Option.some.inj (leads.symm.trans found)
  exact ⟨m, n, k, l, first, second, passes, compiled, also,
    ⟨r, there, plan, among, fields r there plan among, q, asked, guarded⟩,
    ⟨t, serves, within, p, queried⟩⟩

end ApiLoom
