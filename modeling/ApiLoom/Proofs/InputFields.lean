import ApiLoom.Proofs.InPlace
import ApiLoom.Proofs.UpdateNames

/-!
# Fields that clients write

The input types of the schema declare what a client may send, and the requests of a model
write what they find in it.  Both leave out the fields that the server keeps, each in its
own way: the schema, the update of a document, and the statements on rows.
-/

namespace ApiLoom

open Template Script Store
open Text (IsFilledName)

/-! ### Updates of documents -/

namespace Template

/-- What an update writes down for a field that the input has. -/
def setting (name : String) : String := "#" ++ name ++ " = :" ++ name

def naming (name : String) : String × Value := ("#" ++ name, .text name)

def valuing (input : Value) (name : String) : String × Value :=
  (":" ++ name, (input.field name).typed)

/-- An update was put together of these fields, after what there was for the time. -/
structure Assembled (input : Value) (first : String) (names values : Entries)
    (fields : List String) (s : State) : Prop where
  source : s.local? "input" = input
  expressions : s.local? "setExpressions" = .texts (first :: fields.map setting)
  names : s.local? "updateNames" = .map (names.putAll (fields.map naming))
  values : s.local? "updateValues" = .map (values.putAll (fields.map (valuing input)))

section Updates

variable {w : World} {s : State} {config : Config} {u : UpdateItem} {input : Value}
  {first : String} {names values : Entries} {fields : List String}

theorem updateField_assembles {name : String} (plain : '$' ∉ name.toList)
    (assembled : Assembled input first names values fields s) :
    ((updateField name).exec w s).Reaches
      (Assembled input first names values (fields ++ givenFields input [name])) := by
  have contains : (Cond.holds ((Term.var "input").call "containsKey" [.plain name])).eval w s =
      (input.field? name).isSome := by
    rw [Cond.eval, eval_method rfl, eval_var (by decide), assembled.source]
    simp only [List.map_cons, List.map_nil, Term.eval, expand_plain plain, callMethod]
    rfl
  rw [updateField, exec_when, contains]
  cases has : (input.field? name).isSome with
  | false => exact .now (by simpa [givenFields, has] using assembled)
  | true =>
    have given : givenFields input [name] = [name] := by simp [givenFields, has]
    have marks (mark : String) (without : '$' ∉ mark.toList) (s : State) :
        w.expand s (mark ++ name) = mark ++ name := by
      rw [expand_marked without, expand_plain plain]
    have sets (s : State) : w.expand s ("#" ++ name ++ " = :" ++ name) = setting name :=
      expand_plain (by simp [plain])
    rw [given]
    simp only [if_true, exec_acts_cons, exec_acts_nil, Action.perform, Step.next_andThen,
      State.effect, State.change, eval_typed, Term.eval, World.printed, expand_plain plain,
      marks "#" (by decide), marks ":" (by decide), sets]
    refine .now ⟨?input, ?expressions, ?names, ?values⟩
    case input =>
      rw [State.local?_bind_of_ne (by decide), State.local?_bind_of_ne (by decide),
        State.local?_bind_of_ne (by decide), assembled.source]
    case expressions =>
      rw [State.local?_bind_of_ne (by decide), State.local?_bind_of_ne (by decide),
        State.local?_bind_self, assembled.expressions]
      simp [Value.add, Value.texts]
    case names =>
      rw [State.local?_bind_of_ne (by decide), State.local?_bind_self,
        State.local?_bind_of_ne (by decide), assembled.names, List.map_append,
        Entries.putAll_append]
      rfl
    case values =>
      rw [State.local?_bind_self, State.local?_bind_of_ne (by decide),
        State.local?_bind_of_ne (by decide), assembled.values, World.lookup, if_neg (by decide),
        State.local?_bind_of_ne (by decide), State.local?_bind_of_ne (by decide), assembled.source,
        List.map_append, Entries.putAll_append]
      rfl

theorem updateFields_assemble (plain : ∀ name ∈ fields, '$' ∉ name.toList) {before : List String}
    (assembled : Assembled input first names values before s) :
    ((concat (fields.map updateField)).exec w s).Reaches
      (Assembled input first names values (before ++ givenFields input fields)) := by
  induction fields generalizing before s with
  | nil => exact .now (by simpa [givenFields] using assembled)
  | cons name rest ih =>
    obtain ⟨own, later⟩ := List.forall_mem_cons.mp plain
    have split : before ++ givenFields input (name :: rest) =
        before ++ givenFields input [name] ++ givenFields input rest := by
      rw [List.append_assoc, givenFields, givenFields, givenFields, ← List.filter_append]
      rfl
    rw [List.map_cons, exec_concat_cons, split]
    exact (updateField_assembles own assembled).andThen fun t next => ih later next

/-- What an update puts together before its condition. -/
theorem updateLead_assembles (plain : ∀ name ∈ u.fields, '$' ∉ name.toList)
    (asks : u.inputExpression = "$ctx.args.input") :
    ((updateLead u).exec w s).Reaches fun t => ∃ (first stamp value : String) (time : Value),
      ('$' ∉ u.updatedAtField.toList → first = setting u.updatedAtField ∧
        stamp = u.updatedAtField ∧ value = u.updatedAtField) ∧
      Assembled (s.args.field "input") first [(.text ("#" ++ stamp), .text stamp)]
        [(.text (":" ++ value), time)] (givenFields (s.args.field "input") u.fields) t := by
  have marks (mark : String) (without : '$' ∉ mark.toList) (s : State) (name : String) :
      w.expand s (mark ++ name) = mark ++ w.expand s name := expand_marked without name
  have begun : ((acts [.set "input" (.verbatim u.inputExpression),
      .set "setExpressions" (.list [.plain ("#" ++ u.updatedAtField ++ " = :" ++
        u.updatedAtField)]),
      .set "updateNames" (.entry (.plain ("#" ++ u.updatedAtField)) (.plain u.updatedAtField)),
      .set "updateValues" (.entry (.plain (":" ++ u.updatedAtField)) Term.now.typed)]).exec w
        s).Reaches fun t => ∃ (first stamp value : String) (time : Value),
          ('$' ∉ u.updatedAtField.toList → first = setting u.updatedAtField ∧
            stamp = u.updatedAtField ∧ value = u.updatedAtField) ∧
          Assembled (s.args.field "input") first [(.text ("#" ++ stamp), .text stamp)]
            [(.text (":" ++ value), time)] [] t := by
    simp only [exec_acts_cons, exec_acts_nil, Action.perform, Step.next_andThen, Term.eval,
      World.printed, marks "#" (by decide), marks ":" (by decide), asks, read_inputArg,
      Term.evals]
    refine .now ⟨?first, ?stamp, ?value, ?time, ?whole, ?source, ?expressions, ?names, ?values⟩
    case source =>
      rw [State.local?_bind_of_ne (by decide), State.local?_bind_of_ne (by decide),
        State.local?_bind_of_ne (by decide), State.local?_bind_self]
    case expressions =>
      rw [State.local?_bind_of_ne (by decide), State.local?_bind_of_ne (by decide),
        State.local?_bind_self]
      rfl
    case names =>
      rw [State.local?_bind_of_ne (by decide), State.local?_bind_self]
      rfl
    case values =>
      rw [State.local?_bind_self]
      rfl
    case whole =>
      intro plain
      exact ⟨expand_plain (by simp [plain]), expand_plain plain, expand_plain plain⟩
  rw [updateLead, exec_append]
  refine begun.andThen fun t start => ?_
  obtain ⟨first, stamp, value, time, whole, assembled⟩ := start
  refine (updateFields_assemble plain assembled).mono fun v updated => ?_
  exact ⟨first, stamp, value, time, whole, updated⟩

/-- What an update sends: for the time, and then for these fields of the input, an expression that
sets the field, its name, and its value. -/
def SetsFields (u : UpdateItem) (input : Value) (fields : List String) (t : State) : Prop :=
  ∃ (first stamp value : String) (time : Value),
    ('$' ∉ u.updatedAtField.toList → first = setting u.updatedAtField ∧
      stamp = u.updatedAtField ∧ value = u.updatedAtField) ∧
    t.local? "setExpressions" = .texts (first :: fields.map setting) ∧
    (t.output.field "update").field "expressionNames" =
      .map (Entries.putAll [] (naming stamp :: fields.map naming)) ∧
    (t.output.field "update").field "expressionValues" =
      .map (Entries.putAll [] ((":" ++ value, time) :: fields.map (valuing input)))

theorem writeCondition_changed {name : String} (keyField : String) (ownerGuard : Option String)
    (own : name ∉ ["conditionExpression", "conditionNames", "conditionValues"]) :
    name ∉ (writeCondition keyField ownerGuard).changed := by
  unfold writeCondition changed
  cases nonEmpty ownerGuard <;> simp_all [Action.changed]

/-- An update sets the time, and of its fields those that the input has. -/
theorem updateItem_sets (config : Config) (plain : ∀ name ∈ u.fields, '$' ∉ name.toList)
    (asks : u.inputExpression = "$ctx.args.input") :
    ((perform config (.updateItem u)).exec w s).Reaches
      (SetsFields u (s.args.field "input") (givenFields (s.args.field "input") u.fields)) := by
  obtain ⟨t, written, first, stamp, value, time, whole, assembled⟩ :=
    updateLead_assembles (w := w) (s := s) plain asks
  obtain ⟨v, conditions, _⟩ := (writeCondition_asks u.keyField u.ownerGuard).exec_reaches w t
  have kept (name : String)
      (own : name ∉ ["conditionExpression", "conditionNames", "conditionValues"]) :
      v.local? name = t.local? name := by
    have ends := exec_local (w := w) (writeCondition_changed u.keyField u.ownerGuard own) t
    rwa [conditions] at ends
  have others : ∀ e ∈ evalMembers w v [conditionMember], e.1 ≠ "update" :=
    List.forall_mem_singleton.mpr (by decide : "condition" ≠ "update")
  rw [perform, updateItem_exec config written conditions]
  generalize output : Value.map (Entries.putAll [] _) = body
  have sent : body.field "update" = updateValue w v := by
    rw [← output, Value.field_map]
    exact congrArg (·.getD .null) (Entries.get?_putAll [_, _, _] others [])
  refine .now ⟨first, stamp, value, time, whole, ?_, ?_, ?_⟩
  · exact (kept "setExpressions" (by decide)).trans assembled.expressions
  · rw [State.handOut, sent, updateValue, kept "updateNames" (by decide), assembled.names]
    rfl
  · rw [State.handOut, sent, updateValue, kept "updateValues" (by decide), assembled.values]
    rfl

end Updates

end Template

/-! ### Statements on rows -/

section Rows

variable {m : Model} {config : Config} {q : SqlStatements}

/-- The first statement that a run sends can be read, and this holds of it. -/
def SqlStatements.SendsFirst (q : SqlStatements) (config : Config) (holds : Query → Prop) : Prop :=
  ∀ w s, ((perform config (.sql q)).exec w s).Reaches fun t => ∃ statement rest query,
    t.output.field "statements" = .texts (statement :: rest) ∧ Reads statement query ∧ holds query

/-- The variable map of the request binds placeholders of these names, in this order. -/
def SqlStatements.BindsInOrder (q : SqlStatements) (config : Config) (names : List String) : Prop :=
  ∃ front body, perform config (.sql q) = front ++ acts [.send body] ∧
    ∀ w s, body.bound w s = names.map placeholder

theorem SqlStatements.sendsFirst {holds : Query → Prop} (st : SqlStatement)
    (others : List SqlStatement)
    (written : q.statements = (st :: others).map SqlStatement.text)
    (names : ∀ x ∈ st :: others, ∀ n ∈ x.table :: x.columns, IsFilledName n)
    (guarded : ∀ x ∈ st :: others, x.isGuarded = true → q.ownerGuard.isSome = true)
    (owned : ∀ owner ∈ q.ownerGuard, Text.isIdentifier owner = true)
    (held : ∀ owner, holds (st.query owner)) : q.SendsFirst config holds := by
  intro w s
  refine (sql_sends written names guarded
    (fun owner given => Text.isWord_of_isIdentifier (owned owner given)) w s).mono fun t sent => ?_
  obtain ⟨owner, guards, sent⟩ := sent
  refine ⟨_, _, _, sent, SqlStatement.sent_reads (names st List.mem_cons_self) ?_, held _⟩
  intro name given
  split at given
  · exact Text.isFilledName_of_isIdentifier (owned name (guards name given))
  · cases given

/-- The key of a model, and what is declared of it, can be named in statements. -/
theorem Model.columns_named (decoded : m.IsDecoded) (key : IsFilledName config.identifierField)
    {table : String} {columns : List String} (on : table = Naming.tableName m.name)
    (known : ∀ c ∈ columns, c = config.identifierField ∨ m.hasProperty c = true) :
    ∀ n ∈ table :: columns, IsFilledName n := by
  refine List.forall_mem_cons.mpr ⟨on ▸ tableName_isFilledName decoded, fun c member => ?_⟩
  rcases known c member with rfl | declared
  · exact key
  · exact Text.isFilledName_of_isIdentifier (decoded.declared_identifier declared)

theorem Model.selectByKey_named (decoded : m.IsDecoded)
    (key : IsFilledName config.identifierField) :
    ∀ n ∈ (m.selectByKey config).table :: (m.selectByKey config).columns, IsFilledName n :=
  columns_named decoded key rfl (List.forall_mem_singleton.mpr (.inl rfl))

theorem Model.sqlInsert_sendsFirst (decoded : m.IsDecoded)
    (key : IsFilledName config.identifierField) :
    (m.sqlInsert config).SendsFirst config
      (· = .insert (Naming.tableName m.name) (m.insertColumns config)
        (m.insertColumns config)) := by
  refine SqlStatements.sendsFirst (.insert (Naming.tableName m.name) (m.insertColumns config))
    [m.selectByKey config] rfl ?_ ?_ (by simp [sqlInsert, statements]) fun owner => rfl
  · refine List.forall_mem_cons.mpr ⟨columns_named decoded key rfl fun c member => ?_,
      List.forall_mem_singleton.mpr (selectByKey_named decoded key)⟩
    simp only [SqlStatement.columns, insertColumns, List.mem_cons, List.mem_append] at member
    rcases member with rfl | writable | time
    · exact .inl rfl
    · exact .inr (writableFields_declared c writable)
    · exact .inr (List.mem_filter.mp time).2
  · simp [SqlStatement.isGuarded, selectByKey]

theorem Model.sqlUpdate_sendsFirst (decoded : m.IsDecoded) (gated : Bool)
    (key : IsFilledName config.identifierField) :
    (m.sqlUpdate config gated).SendsFirst config fun query => ∃ conditions,
      query = .update (Naming.tableName m.name)
        ((m.updateAssignments config).map SqlStatement.changeOf) conditions := by
  refine SqlStatements.sendsFirst (.update (Naming.tableName m.name)
      (m.updateAssignments config) config.identifierField (m.ownerGuard gated).isSome)
      [m.selectByKey config] rfl ?_ ?_ ?_ fun owner => ⟨_, rfl⟩
  · refine List.forall_mem_cons.mpr ⟨columns_named decoded key rfl fun c member => ?_,
      List.forall_mem_singleton.mpr (selectByKey_named decoded key)⟩
    simp only [SqlStatement.columns, updateAssignments, List.map_append, List.map_map,
      List.mem_append, List.mem_map, Function.comp_apply, SqlAssignment.column, exists_eq_right,
      List.mem_singleton] at member
    rcases member with (writable | time) | rfl
    · exact .inr (writableFields_declared c writable)
    · exact .inr (updateTimestamp_declared c time)
    · exact .inl rfl
  · simp [SqlStatement.isGuarded, selectByKey, sqlUpdate]
  · exact fun owner given => decoded.declared_identifier (ownerGuard_declared owner given)

theorem Model.sqlInsert_bindsInOrder :
    (m.sqlInsert config).BindsInOrder config (m.insertColumns config) := by
  refine ⟨_, _, sql_parts config _, fun w s => ?_⟩
  have unguarded : ∀ owner ∈ (m.sqlInsert config).ownerGuard, owner ≠ "" := by
    simp [sqlInsert, statements]
  have bound : (versioned config (sqlMembers (m.sqlInsert config))).bound w s = _ :=
    bound_eq unguarded insertVariables_names
  have narrowed : (m.sqlInsert config).narrowedTo (s.flagged needsOwnershipCheck) = none := by
    simp [SqlStatements.narrowedTo, sqlInsert, statements]
  rwa [narrowed, ownerName, Option.map_none, Option.toList_none, List.append_nil] at bound

end Rows

/-! ### The schema and the requests -/

namespace Model

/-- The input types of a model declare what its requests write. -/
structure InputsAgree (m : Model) (config : Config) : Prop where
  /-- A client writes all properties but the key and the times that the server keeps. -/
  writable : m.writableFields config = m.propertyNames.filter fun name =>
    name ∉ [config.identifierField, config.createdAtField, config.updatedAtField]
  updateInput : (Schema.updateInput config m).fields.map (·.name) =
    config.identifierField :: m.writableFields config
  createInput : (Schema.createInput config m).fields.map (·.name) =
    (m.writableFields config).filter fun name => m.ownerField ≠ some name
  /-- The update of a document sets the time and the writable fields of its input. -/
  documents : m.engine = .document → ∃ u : UpdateItem,
    (m.mainOperation config .update (m.isGated .update)).1 = .updateItem u ∧
      u.fields = m.writableFields config ∧ u.updatedAtField = config.updatedAtField ∧
      ∀ w s, ((perform config (.updateItem u)).exec w s).Reaches (SetsFields u
        (s.args.field "input") (givenFields (s.args.field "input") (m.writableFields config)))
  /-- The update of a row sets the writable columns, each unless its value is null, and a declared
  time. -/
  updates : m.engine = .relational → ∃ q guarded,
    let time := [config.updatedAtField].filter m.hasProperty
    (m.mainOperation config .update (m.isGated .update)).1 = .sql q ∧
      q.statements.head? = some (SqlStatement.update (Naming.tableName m.name)
        ((m.writableFields config).map .keepIfNull ++ time.map .put) config.identifierField
        guarded).text ∧
      (IsFilledName config.identifierField → q.SendsFirst config fun query => ∃ conditions,
        query = .update (Naming.tableName m.name)
          ((m.writableFields config).map (fun c => .keepIfNull c c c) ++
            time.map fun c => .put c c) conditions)
  /-- A new row has its key, the writable columns and the declared times, each bound by its own
  name. -/
  inserts : m.engine = .relational → ∃ q,
    let columns := config.identifierField :: (m.writableFields config ++
      [config.createdAtField, config.updatedAtField].filter m.hasProperty)
    (m.mainOperation config .create (m.isGated .create)).1 = .sql q ∧
      q.statements.head? =
        some (SqlStatement.insert (Naming.tableName m.name) columns).text ∧
      q.placeholders.map (·.name) = columns.map (":" ++ ·) ∧ q.BindsInOrder config columns ∧
      (IsFilledName config.identifierField → q.SendsFirst config fun query =>
        query = .insert (Naming.tableName m.name) columns columns)

variable {m : Model}

theorem writableFields_eq (m : Model) (config : Config) : m.writableFields config =
    m.propertyNames.filter fun name =>
      name ∉ [config.identifierField, config.createdAtField, config.updatedAtField] := by
  rw [writableFields, writableProperties, propertyNames, List.filter_map]
  congr 2
  funext p
  simp [isManaged, Config.managedTimestamps]

theorem updateTimestamp_eq (m : Model) (config : Config) :
    m.updateTimestamp config = [config.updatedAtField].filter m.hasProperty := by
  rw [updateTimestamp, List.filter_singleton]
  cases m.hasProperty config.updatedAtField <;> rfl

/-- For every configuration, the schema lets a client send what the requests write. -/
theorem inputs_agree (decoded : m.IsDecoded) (config : Config) : m.InputsAgree config where
  writable := writableFields_eq m config
  updateInput := by
    simp only [Schema.updateInput, List.map_cons, List.map_map, writableFields]
    rfl
  createInput := by
    simp only [Schema.createInput, List.map_map, writableFields, List.filter_map]
    rfl
  documents document := by
    refine ⟨_, by simp only [mainOperation, document]; rfl, rfl, rfl, fun w s => ?_⟩
    exact updateItem_sets config (fun name written =>
      (Text.isWord_of_isIdentifier
        (decoded.declared_identifier (writableFields_declared name written))).plain) rfl
  updates relational := by
    refine ⟨m.sqlUpdate config (m.isGated .update), (m.ownerGuard (m.isGated .update)).isSome,
      by simp only [mainOperation, relational]; rfl, ?_, fun key => ?_⟩
    · rw [← updateTimestamp_eq]
      rfl
    · have sends := sqlUpdate_sendsFirst decoded (m.isGated .update) key
      simp only [updateAssignments, List.map_append, List.map_map] at sends
      rw [← updateTimestamp_eq]
      exact sends
  inserts relational := by
    refine ⟨m.sqlInsert config, by simp only [mainOperation, relational]; rfl, rfl, ?_, ?_, ?_⟩
    · exact insertVariables_names
    · exact sqlInsert_bindsInOrder
    · exact sqlInsert_sendsFirst decoded

/-- A note with an author and the time of its last change. -/
def changedNote (source : Value) : Value := .object [
  ("name", .text "Note"),
  ("properties", .object [
    ("id", .object [("type", .text "ID")]),
    ("author", .object [("type", .text "String"), ("isOwner", .bool true)]),
    ("text", .object [("type", .text "String")]),
    ("updatedAt", .object [("type", .text "AWSDateTime")])]),
  ("dataSource", source)]

theorem inputs_agree_changedNote :
    ∃ note row u create update,
      Model.decode (changedNote (.object [("type", .text "database"),
        ("engine", .text "nosql")])) = .ok note ∧
      Model.decode (changedNote filedSource) = .ok row ∧
      (Schema.updateInput .default note).fields.map (·.name) = ["id", "author", "text"] ∧
      (Schema.createInput .default note).fields.map (·.name) = ["text"] ∧
      (note.mainOperation .default .update false).1 = .updateItem u ∧
      u.fields = ["author", "text"] ∧
      (row.mainOperation .default .create false).1 = .sql create ∧
      create.SendsFirst .default (· = .insert "notes" ["id", "author", "text", "updatedAt"]
        ["id", "author", "text", "updatedAt"]) ∧
      (row.mainOperation .default .update false).1 = .sql update ∧
      update.SendsFirst .default fun query => ∃ conditions, query = .update "notes"
        [.keepIfNull "author" "author" "author", .keepIfNull "text" "text" "text",
          .put "updatedAt" "updatedAt"] conditions := by
  obtain ⟨note, row, first, second, document, relational, fields, owned, columns, times, time,
      unowned, ungated, free, table⟩ : ∃ note row,
      Model.decode (changedNote (.object [("type", .text "database"),
        ("engine", .text "nosql")])) = .ok note ∧
      Model.decode (changedNote filedSource) = .ok row ∧ note.engine = .document ∧
      row.engine = .relational ∧ note.writableFields .default = ["author", "text"] ∧
      note.ownerField = some "author" ∧ row.writableFields .default = ["author", "text"] ∧
      [Config.default.createdAtField, Config.default.updatedAtField].filter row.hasProperty =
        ["updatedAt"] ∧
      [Config.default.updatedAtField].filter row.hasProperty = ["updatedAt"] ∧
      note.isGated .update = false ∧ row.isGated .update = false ∧
      row.isGated .create = false ∧ Naming.tableName row.name = "notes" :=
    ⟨_, _, rfl, rfl, rfl, rfl, rfl, rfl, rfl, rfl, rfl, rfl, rfl, rfl, by decide +kernel⟩
  have documents := inputs_agree ⟨_, first⟩ .default
  have rows := inputs_agree ⟨_, second⟩ .default
  have key : IsFilledName Config.default.identifierField :=
    Text.isFilledName_of_isIdentifier (by decide)
  obtain ⟨u, item, written, _⟩ := documents.documents document
  obtain ⟨create, made, _, _, _, inserts⟩ := rows.inserts relational
  obtain ⟨update, guarded, changed, _, updates⟩ := rows.updates relational
  refine ⟨note, row, u, create, update, first, second, ?_, ?_, ?_, ?_, ?_, ?_, ?_, ?_⟩
  · exact documents.updateInput.trans (by rw [fields]; rfl)
  · exact documents.createInput.trans (by rw [fields, owned]; decide)
  · exact unowned ▸ item
  · exact written.trans fields
  · exact free ▸ made
  · have sends := inserts key
    rw [columns, times, table] at sends
    exact sends
  · exact ungated ▸ changed
  · have sends := updates key
    rw [columns, time, table] at sends
    exact sends

end Model

end ApiLoom
