import ApiLoom.Proofs.DisciplinedResponses

/-!
# Disciplined models

The plans that are generated for a model obey every discipline that its settings obey.  The names
of the model are letters and digits; only its groups and hooks are texts of another kind.
-/

namespace ApiLoom

open Template

/-- All groups in the rules of the model have the property. -/
def Model.EachGroup (m : Model) (p : String → Prop) : Prop :=
  ∀ access ∈ m.accessControl, ∀ rule ∈ access.rules, ∀ group ∈ rule.groups, p group

/-- The texts of a model that are no names are allowed. -/
structure Model.Obeys (d : Discipline) (m : Model) : Prop where
  groups : m.EachGroup d.text
  hooks : ∀ phase operation, ∀ function ∈ m.hooks.hookFor phase operation, d.text function

/-- Texts that are allowed may stand behind a `#`. -/
def Template.Discipline.Marks (d : Discipline) : Prop :=
  ∀ s, d.text s → d.plain ("#" ++ s) ∧ d.plain ("#" ++ s ++ " = :" ++ s)

variable {d : Discipline}

theorem Model.Obeys.quotes {m : Model} (texts : m.Obeys d) : m.EachGroup d.quoted :=
  fun access controlled rule listed group grouped =>
    d.quoted_text (texts.groups access controlled rule listed group grouped)

theorem DataOperation.Obeys.marked (marks : d.Marks) {operation : DataOperation}
    (obeys : operation.Obeys d) : operation.ObeysMarked d := by
  cases operation with
  | updateItem u =>
    have obeys : u.Obeys d := obeys
    exact List.forall_mem_cons.mpr
      ⟨marks _ obeys.stamp, fun name member => marks name (obeys.fields name member)⟩
  | _ => trivial

namespace Model

variable {m : Model} {config : Config} {operation : Operation} {scope : AccessScope}
  {field : RootField} {gated : Bool}

/-! ### Expressions -/

theorem inputArgument_eq (name : String) : inputArgument name = argument ("input." ++ name) := by
  rw [inputArgument, argument, ← String.append_assoc]
  rfl

theorem inputArgument_obeys {name : String} (named : d.text name) :
    d.expression (inputArgument name) := by
  rw [inputArgument_eq]
  exact d.expression_argument (d.text_ahead (by decide) named)

theorem input_obeys : d.expression "$ctx.args.input" :=
  d.expression_argument (d.text_free (by decide : Text.Free "input"))

theorem page_obeys (config : Config) : config.page.Obeys d where
  limit := d.expression_argument (d.text_free (by decide : Text.Free "limit"))
  token := d.expression_argument (d.text_free (by decide : Text.Free "nextToken"))

/-! ### Bound columns -/

theorem bindColumn_obeys {column expression : String} (named : d.text column)
    (given : d.expression expression) : (bindColumn column expression).Obeys d :=
  ⟨d.text_ahead (by decide) named, given, fun _ none => by cases none⟩

theorem bindNow_obeys {column : String} (named : d.text column) : (bindNow column).Obeys d := by
  refine ⟨d.text_ahead (by decide) named, ?_, fun hint same => ?_⟩
  · exact d.expression_own (by decide : IsOwn "now") (by decide)
  · exact Option.some.inj same ▸ d.text_free (by decide : Text.Free "TIMESTAMP")

theorem bindInput_obeys {p : Property} (named : d.text p.name) : (bindInput p).Obeys d := by
  have hints : ∀ kind : ScalarKind, ∀ hint ∈ kind.sqlTypeHint, Text.Free hint := by
    intro kind
    cases kind <;> decide
  exact ⟨d.text_ahead (by decide) named, d.expression_input named,
    fun hint same => d.text_free (hints p.kind hint same)⟩

theorem pageVariables_obey : ∀ v ∈ pageVariables, v.Obeys d := by
  have limit : d.expression "$limit" := d.expression_own (by decide : IsOwn "limit") (by decide)
  have offset : d.expression "$offset" := d.expression_own (by decide : IsOwn "offset") (by decide)
  exact List.forall_mem_cons.mpr ⟨bindColumn_obeys (d.text_free (by decide)) limit,
    List.forall_mem_singleton.mpr (bindColumn_obeys (d.text_free (by decide)) offset)⟩

theorem assignments_obey : (d.name inputAssignment.name ∧ d.expression inputAssignment.expression) ∧
    d.name nowAssignment.name ∧ d.expression nowAssignment.expression :=
  ⟨⟨d.name_fixed (by decide), input_obeys⟩, d.name_fixed (by decide),
    d.expression_called (by decide) (by decide) (by decide)⟩

theorem statements_obey {sql : List SqlStatement} {placeholders : List SqlVariable}
    (written : ∀ s ∈ sql, d.row s.text) (placed : ∀ v ∈ placeholders, v.Obeys d) :
    (statements sql placeholders).Obeys d :=
  ⟨List.forall_mem_map.mpr written, placed, by simp [statements], by simp [statements],
    by simp [statements]⟩

namespace IsDecoded

variable (decoded : m.IsDecoded)

include decoded

theorem name_text : d.text m.name := d.text_name decoded.name_isName

theorem rootField_text (field : RootField) : d.text (Naming.rootField m.name field) :=
  d.text_name (decoded.rootField_isName field)

theorem tableName_text : d.text (Naming.tableName m.name) :=
  d.text_name decoded.name_isName.plural.lower

theorem timestamps_text : ∀ t ∈ m.timestamps config, d.text t :=
  fun t listed => d.text_name (decoded.timestamps_isName config t listed)

theorem writableFields_text : ∀ t ∈ m.writableFields config, d.text t :=
  fun t listed => d.text_name (decoded.writableFields_isName config t listed)

theorem ownerGuard_text : ∀ owner ∈ m.ownerGuard gated, d.text owner :=
  fun owner guarded => d.text_name (decoded.ownerGuard_isName gated owner guarded)

theorem collectionPath_text : d.text m.collectionPath :=
  d.text_ahead (by decide) decoded.tableName_text

/-! ### Decisions -/

theorem verification_obeys : ∀ v ∈ m.verification operation, d.text v.ownerField := by
  intro v asked
  obtain ⟨owner, guarded, rfl⟩ := Option.map_eq_some_iff.mp asked
  exact d.text_name (decoded.guardedOwner_isName owner guarded)

theorem collectionFilter_obeys : ∀ f ∈ m.collectionFilter, (ItemAccess.filter f).Obeys d := by
  intro f asked
  obtain ⟨owner, guarded, rfl⟩ := Option.map_eq_some_iff.mp asked
  refine ⟨fun name same => ?_, fun flag same => ?_, by simp⟩
  · exact Option.some.inj same ▸ d.text_name (decoded.guardedOwner_isName owner guarded)
  · exact Option.some.inj same ▸ working_obeys (by decide)

theorem itemAccess_obeys (groups : m.EachGroup d.quoted) (isOpen : d.IsOpen) :
    m.itemAccess.Obeys d := by
  unfold itemAccess
  split
  · trivial
  · next access controlled =>
    dsimp only
    split
    · split <;> trivial
    · refine ⟨fun owner owned => ?_, fun flag none => (nomatch none), fun group member => ?_⟩
      · dsimp only at owned
        split at owned
        · exact d.text_name (decoded.owner_isName owned)
        · cases owned
      · obtain ⟨rule, listed, grouped⟩ := List.mem_flatMap.mp (List.mem_eraseDups.mp member)
        exact ⟨isOpen.decision _ (by decide),
          groups access controlled rule (List.mem_of_mem_filter listed) group grouped⟩

theorem authCheck_obeys (texts : m.Obeys d) : (m.authCheck operation scope).Obeys d := by
  have parts := authCheck_parts m operation scope
  have reasons : ∀ reason ∈ [AccessControl.noAccessControl, AccessControl.defaultAllow,
      AccessControl.defaultDeny], Text.Free reason := by
    decide
  cases given : m.authCheck operation scope with
  | allowAll reason | denyAll reason =>
    rw [given] at parts
    exact d.text_free (reasons reason parts)
  | rules check =>
    rw [given] at parts
    obtain ⟨named, clauses, owner, stamp⟩ := parts
    refine ⟨named ▸ decoded.name_text, fun clause member => ?_, fun o ruled =>
      d.text_name (decoded.owner_isName (owner o ruled)), fun o stamped => ?_⟩
    · obtain ⟨access, controlled, rule, listed, same⟩ := clauses clause member
      exact same ▸ texts.groups access controlled rule listed
    · rw [stamp] at stamped
      split at stamped
      · exact d.text_name (decoded.owner_isName stamped)
      · cases stamped

/-! ### Operations -/

variable (settings : config.Obeys d)

include settings

theorem documentMain_obeys (field : RootField) (gated : Bool) :
    (m.documentMain config field gated).1.Obeys d := by
  have key := settings.identifier
  have argument := d.expression_argument key
  cases field with
  | get => exact ⟨key, argument⟩
  | list => exact page_obeys config
  | create => exact ⟨key, decoded.timestamps_text, input_obeys⟩
  | update =>
    exact ⟨key, inputArgument_obeys key, decoded.writableFields_text, settings.updated,
      decoded.ownerGuard_text, input_obeys⟩
  | delete => exact ⟨key, inputArgument_obeys key, decoded.ownerGuard_text⟩

theorem selectByKey_obeys : d.row (m.selectByKey config).text :=
  d.row_statement (List.forall_mem_cons.mpr
    ⟨decoded.tableName_text, List.forall_mem_singleton.mpr settings.identifier⟩)

omit settings in
theorem inputs_obey : ∀ v ∈ (m.writableProperties config).map bindInput, v.Obeys d := by
  refine List.forall_mem_map.mpr fun p listed => ?_
  exact bindInput_obeys (d.text_name (decoded.property_isName (List.mem_of_mem_filter listed)))

theorem sqlInsert_obeys : (m.sqlInsert config).Obeys d := by
  have insert : d.row (SqlStatement.insert (Naming.tableName m.name)
      (m.insertColumns config)).text :=
    d.row_statement (List.forall_mem_cons.mpr ⟨decoded.tableName_text, List.forall_mem_cons.mpr
      ⟨settings.identifier, List.forall_mem_append.mpr
        ⟨decoded.writableFields_text, decoded.timestamps_text⟩⟩⟩)
  have times : ∀ v ∈ (m.timestamps config).map bindNow, v.Obeys d :=
    List.forall_mem_map.mpr fun t listed => bindNow_obeys (decoded.timestamps_text t listed)
  have key := bindColumn_obeys settings.identifier
    (d.expression_own (by decide : IsOwn "id") (by decide))
  refine ⟨?_, ?_, ?_, by simp [sqlInsert, statements], by simp [sqlInsert, statements]⟩
  · exact List.forall_mem_cons.mpr
      ⟨insert, List.forall_mem_singleton.mpr (decoded.selectByKey_obeys settings)⟩
  · exact List.forall_mem_cons.mpr ⟨key, List.forall_mem_append.mpr ⟨decoded.inputs_obey, times⟩⟩
  · refine List.forall_mem_append.mpr ⟨List.forall_mem_cons.mpr ⟨assignments_obey.1, ?_⟩, ?_⟩
    · exact List.forall_mem_singleton.mpr
        ⟨d.name_fixed (by decide), d.expression_called (by decide) (by decide) (by decide)⟩
    · split
      · exact List.forall_mem_nil _
      · exact List.forall_mem_singleton.mpr assignments_obey.2

omit decoded in
theorem updateTimestamp_text : ∀ t ∈ m.updateTimestamp config, d.text t := by
  intro t listed
  unfold updateTimestamp at listed
  split at listed
  · exact List.mem_singleton.mp listed ▸ settings.updated
  · cases listed

theorem sqlUpdate_obeys (gated : Bool) : (m.sqlUpdate config gated).Obeys d := by
  have stamped : ∀ t ∈ m.updateTimestamp config, d.text t := updateTimestamp_text settings
  have assigned : ∀ c ∈ (m.updateAssignments config).map (·.column), d.text c := by
    simp only [updateAssignments, List.map_append, List.map_map]
    exact List.forall_mem_append.mpr ⟨List.forall_mem_map.mpr decoded.writableFields_text,
      List.forall_mem_map.mpr stamped⟩
  have update : d.row (SqlStatement.update (Naming.tableName m.name) (m.updateAssignments config)
      config.identifierField (m.ownerGuard gated).isSome).text :=
    d.row_statement (List.forall_mem_cons.mpr ⟨decoded.tableName_text,
      List.forall_mem_append.mpr ⟨assigned, List.forall_mem_singleton.mpr settings.identifier⟩⟩)
  have times : ∀ v ∈ (m.updateTimestamp config).map bindNow, v.Obeys d :=
    List.forall_mem_map.mpr fun t listed => bindNow_obeys (stamped t listed)
  have key := bindColumn_obeys settings.identifier (d.expression_input settings.identifier)
  refine ⟨?_, ?_, ?_, by simp [sqlUpdate, statements], decoded.ownerGuard_text⟩
  · exact List.forall_mem_cons.mpr
      ⟨update, List.forall_mem_singleton.mpr (decoded.selectByKey_obeys settings)⟩
  · exact List.forall_mem_cons.mpr ⟨key, List.forall_mem_append.mpr ⟨decoded.inputs_obey, times⟩⟩
  · exact List.forall_mem_cons.mpr
      ⟨assignments_obey.1, List.forall_mem_map.mpr fun _ _ => assignments_obey.2⟩

theorem sqlDelete_obeys (gated : Bool) : (m.sqlDelete config gated).Obeys d := by
  have statement {s : SqlStatement} (table : s.table = Naming.tableName m.name)
      (columns : s.columns = [config.identifierField]) : d.row s.text := by
    refine d.row_statement (List.forall_mem_cons.mpr ⟨table ▸ decoded.tableName_text, ?_⟩)
    rw [columns]
    exact List.forall_mem_singleton.mpr settings.identifier
  refine ⟨?_, ?_, by simp [sqlDelete, statements], by simp [sqlDelete, statements],
    decoded.ownerGuard_text⟩
  · exact List.forall_mem_cons.mpr
      ⟨statement rfl rfl, List.forall_mem_singleton.mpr (statement rfl rfl)⟩
  · exact List.forall_mem_singleton.mpr
      (bindColumn_obeys settings.identifier (inputArgument_obeys settings.identifier))

theorem relationalMain_obeys (field : RootField) (gated : Bool) :
    (m.relationalMain config field gated).1.Obeys d := by
  cases field with
  | get =>
    exact statements_obey (List.forall_mem_singleton.mpr (decoded.selectByKey_obeys settings))
      (List.forall_mem_singleton.mpr
        (bindColumn_obeys settings.identifier (d.expression_argument settings.identifier)))
  | list =>
    refine ⟨?_, pageVariables_obey, by simp [statements], ?_, by simp [statements]⟩
    · exact List.forall_mem_singleton.mpr
        (d.row_statement (List.forall_mem_singleton.mpr decoded.tableName_text))
    · exact fun p same => Option.some.inj same ▸ page_obeys config
  | create => exact decoded.sqlInsert_obeys settings
  | update => exact decoded.sqlUpdate_obeys settings gated
  | delete => exact decoded.sqlDelete_obeys settings gated

theorem httpMain_obeys (field : RootField) : (m.httpMain config field).1.Obeys d := by
  have collection := decoded.collectionPath_text (d := d)
  have read := d.plain_path collection settings.identifier
  have stored : d.plain (m.collectionPath ++ "/" ++ inputArgument config.identifierField) := by
    rw [inputArgument_eq]
    exact d.plain_path collection (d.text_ahead (by decide) settings.identifier)
  have input : ∀ e ∈ some "$ctx.args.input", d.expression e :=
    fun e same => Option.some.inj same ▸ input_obeys
  have query : ∀ q ∈ httpQuery config, d.name q.1 ∧ d.plain q.2 := by
    intro q member
    have names : ∀ q ∈ httpQuery config, Text.Fixed q.1 :=
      List.forall_mem_cons.mpr ⟨(by decide : Text.Fixed "limit"),
        List.forall_mem_singleton.mpr (by decide : Text.Fixed "nextToken")⟩
    exact ⟨d.name_fixed (names q member), d.plain_query member⟩
  have verb : ∀ verb ∈ ["GET", "POST", "PUT", "DELETE"], d.plain verb := by
    have fixed : ∀ verb ∈ ["GET", "POST", "PUT", "DELETE"], Text.Fixed verb := by decide
    exact fun v member => d.plain_fixed (fixed v member)
  cases field with
  | get => exact ⟨verb _ (by simp), read, by simp, by simp⟩
  | list => exact ⟨verb _ (by simp), d.plain_text collection, by simp, query⟩
  | create => exact ⟨verb _ (by simp), d.plain_text collection, input, by simp⟩
  | update => exact ⟨verb _ (by simp), stored, input, by simp⟩
  | delete => exact ⟨verb _ (by simp), stored, by simp, by simp⟩

/-- The operation of a root field obeys, and so does where a request is queued. -/
theorem mainOperation_obeys (field : RootField) (gated : Bool)
    (queued : m.engine = .queued → (Term.stash config.queueUrlStashKey).Obeys d) :
    (m.mainOperation config field gated).1.Obeys d := by
  unfold mainOperation
  cases engine : m.engine with
  | document => exact decoded.documentMain_obeys settings field gated
  | relational => exact decoded.relationalMain_obeys settings field gated
  | http => exact decoded.httpMain_obeys settings field
  | queued =>
    have word : d.text field.word := d.text_free (by cases field <;> decide)
    exact ⟨d.quoted_text word, d.quoted_text decoded.name_text, queued engine,
      d.plain_fixed (by decide)⟩

theorem fetchByKey_obeys {name : String} (named : d.text name) {operation : DataOperation}
    {source : RecordSource}
    (found : m.fetchByKey config (argument name) = .ok (operation, source)) :
    operation.Obeys d := by
  have key := d.expression_argument named
  unfold fetchByKey at found
  dsimp only at found
  split at found
  · obtain ⟨rfl, _⟩ := Prod.mk.inj (Except.ok.inj found)
    exact ⟨settings.identifier, key⟩
  · obtain ⟨rfl, _⟩ := Prod.mk.inj (Except.ok.inj found)
    exact statements_obey (List.forall_mem_singleton.mpr (decoded.selectByKey_obeys settings))
      (List.forall_mem_singleton.mpr (bindColumn_obeys settings.identifier key))
  · obtain ⟨rfl, _⟩ := Prod.mk.inj (Except.ok.inj found)
    exact ⟨d.plain_fixed (by decide : Text.Fixed "GET"),
      d.plain_path decoded.collectionPath_text named, by simp, by simp⟩
  · cases found

/-! ### Results -/

omit settings in
theorem withLocalTimes_obeys {shape : ResultShape} (obeys : shape.Obeys d) :
    (shape.withLocalTimes (m.localTimeFields config)).Obeys d := by
  have times : ∀ t ∈ m.localTimeFields config, d.text t :=
    fun t listed => d.text_name (decoded.localTimeFields_isName config t listed)
  unfold ResultShape.withLocalTimes
  split
  · exact obeys
  · cases shape with
    | single r =>
      have obeys : r.Obeys d := obeys
      exact ⟨obeys.verification, obeys.access, times⟩
    | list r =>
      have obeys : r.Obeys d := obeys
      exact ⟨obeys.access, times⟩
    | pendingAck | confirmOwnership | hookOutcome | passThrough | subscriptionAck => exact obeys

omit settings in
theorem mainOperation_shape_obeys (field : RootField) (gated : Bool)
    (queued : m.engine = .queued → (Term.stash requestIdKey).Obeys d) :
    (m.mainOperation config field gated).2.Obeys d := by
  have written (source : RecordSource) : (writtenRecord source).Obeys d :=
    ⟨by simp [SingleRecord.plain], by simp [SingleRecord.plain], by simp [SingleRecord.plain]⟩
  have read (source : RecordSource) : (m.readRecord source).Obeys d :=
    ⟨decoded.verification_obeys, by simp [SingleRecord.plain], by simp [SingleRecord.plain]⟩
  have page (source : ListSource) : (m.readPage source).Obeys d := by
    refine ⟨fun access kept => ?_, by simp⟩
    obtain ⟨f, filtered, rfl⟩ := Option.map_eq_some_iff.mp kept
    exact decoded.collectionFilter_obeys f filtered
  refine decoded.withLocalTimes_obeys ?_
  cases engine : m.engine with
  | queued => exact queued engine
  | document | relational | http =>
    cases field with
    | get => exact read _
    | list => exact page _
    | create | update | delete => exact written _

end IsDecoded

end Model

end ApiLoom
