import ApiLoom.Proofs.Columns

/-!
# New records

What the two stores make of the request of a create.  An item is its key and its attributes,
and where both have a name the key counts; a row has the columns that an `INSERT` names, each
with the value of its placeholder.  Either way the record is that of the input, in which the
server sets the key and the times.
-/

namespace ApiLoom

open Template Template.Script

/-! ### What stores create -/

namespace Store

def documentPuts (body : Value) (r : Record) : Prop :=
  body.field "operation" = .text "PutItem" ∧ ∀ name, (r.get? name).map Value.typed =
    ((body.field "key").field? name).or ((body.field "attributeValues").field? name)

/-- The record is the row that the statement inserts; no column can be named twice. -/
def statementInserts (values : Value) (r : Record) (statement : String) : Prop :=
  ∃ table columns bound, Reads statement (.insert table columns bound) ∧ columns.Nodup ∧
    ∀ column v, r.get? column = some v ↔
      ∃ name, (column, name) ∈ columns.zip bound ∧ values.field (placeholder name) = v

def relationalInserts (body : Value) (r : Record) : Prop :=
  ∃ statement, .text statement ∈ (body.field "statements").items ∧
    statementInserts (body.field "variableMap") r statement

/-- The request makes the record, provided that there is none of this key yet. -/
def creates (request : Binding × Value) (r : Record) : Prop :=
  match request.1.kind with
  | .documentTable => documentPuts request.2 r
  | .relationalCluster => relationalInserts request.2 r
  | _ => False

/-- A row has the columns of the statement, and no others. -/
theorem statementInserts_iff {statement table : String} {columns : List String} {values : Value}
    {r : Record} (reads : Reads statement (.insert table columns columns)) :
    statementInserts values r statement ↔ columns.Nodup ∧ ∀ name, r.get? name =
      if name ∈ columns then some (values.field (placeholder name)) else none := by
  have zipped : ∀ column name, (column, name) ∈ columns.zip columns ↔
      column ∈ columns ∧ name = column := by
    intro column name
    rw [List.zip_eq_zipWith, List.zipWith_self]
    simp +contextual [eq_comm]
  constructor
  · rintro ⟨table, others, bound, also, apart, row⟩
    obtain ⟨rfl, rfl, rfl⟩ := Query.insert.inj (reads.unique also)
    refine ⟨apart, fun name => ?_⟩
    split
    · next listed => exact (row name _).mpr ⟨name, (zipped _ _).mpr ⟨listed, rfl⟩, rfl⟩
    · next absent =>
      refine Option.eq_none_iff_forall_ne_some.mpr fun v found => ?_
      obtain ⟨other, member, _⟩ := (row name v).mp found
      exact absent ((zipped _ _).mp member).1
  · rintro ⟨apart, row⟩
    refine ⟨table, columns, columns, reads, apart, fun column v => ?_⟩
    rw [row]
    split
    · next listed => simp [zipped, listed]
    · next absent => simp [zipped, absent]

theorem not_statementInserts {statement : String} {values : Value} {r : Record} {q : Query}
    (reads : Reads statement q) (other : ∀ table columns bound, q ≠ .insert table columns bound) :
    ¬ statementInserts values r statement := by
  rintro ⟨table, columns, bound, also, _⟩
  exact other table columns bound (reads.unique also)

end Store

def Trace.creates (t : Trace) (r : Record) : Prop := ∃ request ∈ t.sent, Store.creates request r

/-! ### The record of a create -/

namespace Model

section NewRecord

variable {m : Model} {config : Config} {library : Library} {input : Entries} {name : String}

theorem isManaged_eq_false_iff : isManaged config name = false ↔
    name ≠ config.identifierField ∧ name ∉ config.managedTimestamps := by
  simp [isManaged]

def newKey (m : Model) (library : Library) : Value :=
  if m.engine = .relational then library.written "$util.autoId()" else library.call "" "autoId" []

def newTime (m : Model) (library : Library) : Value :=
  if m.engine = .relational then library.written "$util.time.nowISO8601()"
  else library.call "time" "nowISO8601" []

/-- What the input says of a new record.  A row has all the columns that a client may set. -/
def newFields (m : Model) (config : Config) (input : Entries) : Entries :=
  if m.engine = .relational then
    Entries.putAll [] ((m.writableFields config).map fun name =>
      (name, (Value.map input).field name))
  else input

/-- The record that a create makes of an input. -/
def newRecord (m : Model) (config : Config) (library : Library) (input : Entries) : Record :=
  ((m.newFields config input).putAll ((m.timestamps config).map fun name =>
    (name, m.newTime library))).put (.text config.identifierField) (m.newKey library)

theorem newRecord_get? : (m.newRecord config library input).get? name =
    if name = config.identifierField then some (m.newKey library)
    else if name ∈ m.timestamps config then some (m.newTime library)
    else (m.newFields config input).get? name := by
  unfold newRecord
  split
  · next key => rw [key, Entries.get?_put_self]
  · next other =>
    rw [Entries.get?_put_of_ne other, Entries.get?_putAll_map fun _ => m.newTime library]

theorem newFields_get? (relational : m.engine = .relational) :
    (m.newFields config input).get? name =
      if name ∈ m.writableFields config then some ((Value.map input).field name) else none := by
  rw [newFields, if_pos relational,
    Entries.get?_putAll_map fun name => (Value.map input).field name, Entries.get?_nil]

/-- A row has a value in each column, and none elsewhere. -/
theorem newRecord_row (relational : m.engine = .relational) :
    (m.newRecord config library input).get? name =
      if name ∈ m.insertColumns config then
        some (((m.newRecord config library input).get? name).getD .null)
      else none := by
  rw [newRecord_get?, newFields_get? relational, insertColumns]
  by_cases key : name = config.identifierField
  · simp [key]
  · by_cases time : name ∈ m.timestamps config
    · simp [key, time]
    · by_cases writable : name ∈ m.writableFields config <;> simp [key, time, writable]

end NewRecord

end Model

namespace Template

/-! ### Items -/

/-- A map is written out with its values in the typed notation. -/
def Library.TypesMaps (library : Library) : Prop :=
  ∀ (entries : Entries) (name : String),
    (library.call "dynamodb" "toMapValuesJson" [.map entries]).field? name =
      (entries.get? name).map Value.typed

section Items

variable {w : World} {s : State} {config : Config} {entries : Entries} {timestamps : List String}

theorem putEach_reaches (words : ∀ name ∈ timestamps, Text.IsWord name)
    (input : s.local? "input" = .map entries) :
    ((acts (timestamps.map fun name =>
      .run ((Term.var "input").call "put" [.plain name, .var "now"]))).exec w s).Reaches fun t =>
        s.AgreesOff ["input"] t ∧ t.local? "input" =
          .map (entries.putAll (timestamps.map fun name => (name, s.local? "now"))) := by
  induction timestamps generalizing s entries with
  | nil => exact .now ⟨.refl _ s, input⟩
  | cons name rest ih =>
    obtain ⟨word, later⟩ := List.forall_mem_cons.mp words
    have set : s.effect w ((Term.var "input").call "put" [.plain name, .var "now"]) =
        s.bind "input" (.map (entries.put (.text name) (s.local? "now"))) := by
      simp [State.effect, State.change, Term.eval, expand_plain word.plain, World.printed, input,
        Value.put, lookup_local (by decide : "now" ≠ "ctx")]
    rw [List.map_cons, exec_acts_cons, Action.perform, Step.next_andThen, set]
    refine (ih later State.local?_bind_self).mono ?_
    rintro t ⟨same, stamped⟩
    refine ⟨(State.AgreesOff.bind (by decide) _).trans same, ?_⟩
    rw [stamped, State.local?_bind_of_ne (by decide)]
    rfl

/-- Sets the times in the input, if there are any to set. -/
def putTimes (timestamps : List String) : Script :=
  if timestamps.isEmpty then done
  else acts (.set "now" .now :: timestamps.map fun name =>
    .run ((Term.var "input").call "put" [.plain name, .var "now"]))

theorem putTimes_reaches (words : ∀ name ∈ timestamps, Text.IsWord name)
    (input : s.local? "input" = .map entries) :
    ((putTimes timestamps).exec w s).Reaches fun t => s.AgreesOff ["now", "input"] t ∧
      t.local? "input" = .map (entries.putAll (timestamps.map fun name =>
        (name, w.library.call "time" "nowISO8601" []))) := by
  cases timestamps with
  | nil => exact .now ⟨.refl _ s, input⟩
  | cons first rest =>
    have now : Term.now.eval w s = w.library.call "time" "nowISO8601" [] := eval_library "time" rfl
    rw [putTimes, List.isEmpty_cons, if_neg (by decide), exec_acts_cons, Action.perform,
      Step.next_andThen, now]
    refine (putEach_reaches words ((State.local?_bind_of_ne (by decide)).trans input)).mono ?_
    rintro t ⟨same, put⟩
    refine ⟨(State.AgreesOff.bind (by decide) _).trans (same.mono (by simp)), ?_⟩
    rw [put, State.local?_bind_self]

/-- The members of the request of a put. -/
def itemMembers (keyField : String) : List Member := [
  .always "operation" (.plain "PutItem"),
  keyMember keyField (.var "keyValue"),
  .always "attributeValues"
    (.value ((Term.util.member "dynamodb").call "toMapValuesJson" [.var "input"])),
  .always "condition" (.object [
    .always "expression" (.plain "attribute_not_exists(#key)"),
    .always "expressionNames" (namesEntry "#key" keyField)])]

theorem itemMembers_puts {key : String} {v : Value} {r : Record} (typesMaps : w.library.TypesMaps)
    (keyed : s.local? "keyValue" = v) (input : s.local? "input" = .map entries) :
    Store.documentPuts ((versioned config (itemMembers key)).eval w s) r ↔
      ∀ name, r.get? name = (entries.put (.text key) v).get? name := by
  have attributes : ((Term.util.member "dynamodb").call "toMapValuesJson" [.var "input"]).inBody
      w s = w.library.call "dynamodb" "toMapValuesJson" [.map entries] := by
    change Term.eval w s _ = _
    rw [eval_library "dynamodb" rfl, List.map_cons, List.map_nil, eval_var (by decide), input]
    rfl
  have fields : ((versioned config (itemMembers key)).eval w s).field "operation" =
        .text "PutItem" ∧
      ((versioned config (itemMembers key)).eval w s).field "key" = .object [(key, v.typed)] ∧
      ((versioned config (itemMembers key)).eval w s).field "attributeValues" =
        w.library.call "dynamodb" "toMapValuesJson" [.map entries] := by
    rw [versioned_eval, itemMembers, evalMembers,
      body_plain_eval (by decide : '$' ∉ "PutItem".toList), keyMember_eval, eval_var (by decide),
      keyed, evalMembers, Body.eval, attributes, evalMembers, evalMembers]
    simp [Entries.putAll, Entries.put, Entries.sameKey_text, Entries.get?]
  obtain ⟨operation, key', values⟩ := fields
  rw [Store.documentPuts, operation, key', values]
  simp only [true_and, typesMaps entries]
  refine forall_congr' fun name => ?_
  have whole : ((Value.object [(key, v.typed)]).field? name).or
      ((entries.get? name).map Value.typed) =
        ((entries.put (.text key) v).get? name).map Value.typed := by
    by_cases same : name = key
    · subst same
      rw [Entries.get?_put_self]
      simp [Value.object, Value.field?, Entries.get?]
    · rw [Entries.get?_put_of_ne same]
      simp [Value.object, Value.field?, Entries.get?, Ne.symm same]
  rw [whole]
  exact (Option.map_injective fun _ _ => Value.typed_inj).eq_iff

/-- A put stores the item that the input makes with the key and the times. -/
theorem putItem_reaches {key : String} (typesMaps : w.library.TypesMaps)
    (words : ∀ name ∈ timestamps, Text.IsWord name) (given : s.args.field "input" = .map entries) :
    ((putItem config key timestamps "$ctx.args.input").exec w s).Reaches fun t => ∀ r : Record,
      Store.documentPuts t.output r ↔ ∀ name, r.get? name =
        ((entries.putAll (timestamps.map fun name =>
          (name, w.library.call "time" "nowISO8601" []))).put (.text key)
            (w.library.call "" "autoId" [])).get? name := by
  have parts : putItem config key timestamps "$ctx.args.input" =
      acts [.set "input" (.verbatim "$ctx.args.input"),
        .set "keyValue" (Term.util.call "autoId" [])] ++ putTimes timestamps ++
          acts [.send (versioned config (itemMembers key))] := rfl
  have fresh (t : State) : (Term.util.call "autoId" []).eval w t =
      w.library.call "" "autoId" [] := eval_library "" rfl
  have read : (Term.verbatim "$ctx.args.input").eval w s = .map entries := by
    rw [Term.eval, read_inputArg, given]
  have input : ((s.bind "input" (.map entries)).bind "keyValue"
      (w.library.call "" "autoId" [])).local? "input" = .map entries := by
    rw [State.local?_bind_of_ne (by decide), State.local?_bind_self]
  rw [parts, exec_append, exec_append]
  simp only [exec_acts_cons, exec_acts_nil, Action.perform, Step.next_andThen, read, fresh]
  refine (putTimes_reaches words input).andThen fun t reached => ?_
  obtain ⟨same, stamped⟩ := reached
  refine .now fun r => itemMembers_puts typesMaps ?_ stamped
  rw [same.locals _ (by decide), State.local?_bind_self]

end Items

/-! ### Rows -/

/-- The variables from which an insert takes the values of its row. -/
structure Inserting (m : Model) (config : Config) (library : Library) (entries : Entries)
    (s : State) : Prop where
  input : s.local? "input" = .map entries
  key : s.local? "id" = library.written "$util.autoId()"
  time : ∀ name ∈ m.timestamps config,
    s.local? "now" = library.written "$util.time.nowISO8601()"

section Rows

variable {w : World} {s : State} {m : Model} {config : Config} {caller : Caller}
  {entries : Entries}

theorem insertPrelude_exec (m : Model) (config : Config)
    (given : s.args.field "input" = .map entries) : ∃ u,
    (acts ((m.sqlInsert config).prelude.map fun a =>
      .set a.name (.verbatim a.expression))).exec w s = .next u ∧
      Inserting m config w.library entries u := by
  have prelude : (m.sqlInsert config).prelude = [Model.inputAssignment, ⟨"id", "$util.autoId()"⟩] ++
      if (m.timestamps config).isEmpty then [] else [Model.nowAssignment] := rfl
  have fresh (t : State) : w.read t "$util.autoId()" = w.library.written "$util.autoId()" :=
    read_called (by decide)
  rw [prelude]
  cases times : m.timestamps config with
  | nil =>
    simp only [List.isEmpty_nil, if_true, List.append_nil, List.map_cons, List.map_nil,
      exec_acts_cons, exec_acts_nil, Action.perform, Step.next_andThen, Model.inputAssignment,
      Term.eval, read_inputArg, given, fresh]
    refine ⟨_, rfl, ?_, State.local?_bind_self, by simp [times]⟩
    rw [State.local?_bind_of_ne (by decide), State.local?_bind_self]
  | cons first rest =>
    simp only [List.isEmpty_cons, Bool.false_eq_true, if_false, List.cons_append, List.nil_append,
      List.map_cons, List.map_nil, exec_acts_cons, exec_acts_nil, Action.perform,
      Step.next_andThen, Model.inputAssignment, Model.nowAssignment, Term.eval, read_inputArg,
      given, fresh, read_time]
    refine ⟨_, rfl, ?_, ?_, fun _ _ => State.local?_bind_self⟩
    · rw [State.local?_bind_of_ne (by decide), State.local?_bind_of_ne (by decide),
        State.local?_bind_self]
    · rw [State.local?_bind_of_ne (by decide), State.local?_bind_self]

/-- A variable of an insert has the value that the new record has in its column. -/
theorem insertVariable_reads {v : SqlVariable} {column : String} (decoded : m.IsDecoded)
    (relational : m.engine = .relational) (apart : (m.insertColumns config).Nodup)
    (inserting : Inserting m config w.library entries s) (among : v ∈ m.insertVariables config)
    (named : v.name = placeholder column) :
    w.read s v.expression = ((m.newRecord config w.library entries).get? column).getD .null := by
  rw [Model.newRecord_get?, Model.newFields_get? relational]
  rcases List.mem_cons.mp among with rfl | among
  · obtain rfl : config.identifierField = column := placeholder_inj.mp named
    have word : Text.IsWord "id" := Text.isWord_of_isIdentifier (by decide)
    rw [if_pos rfl, Option.getD_some, Model.newKey, if_pos relational, ← inserting.key]
    exact read_variable word (by decide)
  · rcases List.mem_append.mp among with writable | timed
    · obtain ⟨p, listed, rfl⟩ := List.mem_map.mp writable
      obtain rfl : p.name = column := placeholder_inj.mp named
      obtain ⟨property, unmanaged⟩ := List.mem_filter.mp listed
      have word : Text.IsWord p.name :=
        Text.isWord_of_isIdentifier (decoded.property_identifier property)
      have field : p.name ∈ m.writableFields config := List.mem_map_of_mem listed
      obtain ⟨other, untimed⟩ := Model.isManaged_eq_false_iff.mp (by simpa using unmanaged)
      have untimed : p.name ∉ m.timestamps config :=
        fun timed => untimed (List.mem_of_mem_filter timed)
      rw [if_neg other, if_neg untimed, if_pos field, Option.getD_some, ← inserting.input]
      exact read_bound word
    · obtain ⟨name, listed, rfl⟩ := List.mem_map.mp timed
      obtain rfl : name = column := placeholder_inj.mp named
      have other : name ≠ config.identifierField := by
        rintro rfl
        exact (List.nodup_cons.mp apart).1 (List.mem_append_right _ listed)
      rw [if_neg other, if_pos listed, Option.getD_some, Model.newTime, if_pos relational,
        ← inserting.time name listed]
      exact read_now

/-- No column is bound to two values, if none is named twice. -/
theorem insertBinding {sub : Value} {column : String} (decoded : m.IsDecoded)
    (relational : m.engine = .relational) (apart : (m.insertColumns config).Nodup)
    (inserting : Inserting m config w.library entries s)
    (listed : column ∈ m.insertColumns config) :
    (variableMap w s (m.insertVariables config) none sub).field (placeholder column) =
      ((m.newRecord config w.library entries).get? column).getD .null := by
  have bound : ∃ e ∈ boundValues w s (m.insertVariables config), e.1 = placeholder column := by
    have member : placeholder column ∈ (m.insertVariables config).map (·.name) :=
      Model.insertVariables_names ▸ List.mem_map_of_mem listed
    obtain ⟨v, among, same⟩ := List.mem_map.mp member
    exact ⟨_, List.mem_map_of_mem among, same⟩
  have agree : ∀ e ∈ boundValues w s (m.insertVariables config), e.1 = placeholder column →
      e.2 = ((m.newRecord config w.library entries).get? column).getD .null := by
    intro e member named
    obtain ⟨v, among, rfl⟩ := List.mem_map.mp member
    exact insertVariable_reads decoded relational apart inserting among named
  simp only [variableMap, Option.map_none, Option.toList_none, List.append_nil, Value.field_map,
    Entries.get?_putAll_of_agree bound agree, Option.getD_some]

/-- An insert makes the row of the new record, if it names no column twice. -/
theorem sqlInsert_reaches (decoded : m.IsDecoded)
    (declared : m.hasProperty config.identifierField = true)
    (relational : m.engine = .relational)
    (told : w.context.identity = caller.identity config)
    (given : s.args.field "input" = .map entries) :
    ((sql config (m.sqlInsert config)).exec w s).Reaches fun t => ∀ r : Record,
      Store.relationalInserts t.output r ↔ (m.insertColumns config).Nodup ∧
        ∀ name, r.get? name = (m.newRecord config w.library entries).get? name := by
  let insert := SqlStatement.insert (Naming.tableName m.name) (m.insertColumns config)
  have unguarded : (m.sqlInsert config).ownerGuard = none := rfl
  have keeps : ∀ st ∈ [insert, m.selectByKey config], st.KeepsTo m none :=
    List.forall_mem_cons.mpr ⟨Model.insert_keepsTo declared,
      List.forall_mem_singleton.mpr (Model.selectByKey_keepsTo declared)⟩
  have names : ∀ st ∈ [insert, m.selectByKey config], ∀ n ∈ st.table :: st.columns,
      Text.IsFilledName n := by
    intro st member
    refine List.forall_mem_cons.mpr
      ⟨(keeps st member).table ▸ m.tableName_isFilledName decoded, fun c listed => ?_⟩
    exact Text.isFilledName_of_isIdentifier
      (decoded.declared_identifier ((keeps st member).columns c listed))
  obtain ⟨u, begun, inserting⟩ := insertPrelude_exec (w := w) m config given
  obtain ⟨t, run, _, _, v, same, _, mapped, _⟩ :=
    sql_reaches rfl told (by simp [unguarded]) begun
  have written : (m.sqlInsert config).statements =
      [insert, m.selectByKey config].map SqlStatement.text := rfl
  have sends : ((perform config (.sql (m.sqlInsert config))).exec w s).Reaches fun t =>
      t.output.field "statements" = .texts [insert.sent (rowGuard none),
        (m.selectByKey config).sent (rowGuard none)] :=
    (sql_sends written names (fun st member => (keeps st member).guarded) (by simp [unguarded])
      w s).mono fun t ⟨_, _, sent⟩ => sent
  obtain ⟨t', also, texts⟩ := sends
  obtain rfl : t = t' := Step.next.inj (run.symm.trans also)
  rw [unguarded, ite_self] at mapped
  have reads : ∀ st ∈ [insert, m.selectByKey config],
      Store.Reads (st.sent (rowGuard none)) (st.query none) :=
    fun st member => SqlStatement.sent_reads (names st member) (by simp)
  have bound : Inserting m config w.library entries v :=
    ⟨(same.locals _ (by decide)).trans inserting.input,
      (same.locals _ (by decide)).trans inserting.key,
      fun name listed => (same.locals _ (by decide)).trans (inserting.time name listed)⟩
  refine ⟨t, run, fun r => ?_⟩
  have selects : ¬ Store.statementInserts (t.output.field "variableMap") r
      ((m.selectByKey config).sent (rowGuard none)) :=
    Store.not_statementInserts (reads _ (by simp)) fun _ _ _ same => by cases same
  have inserts : Store.relationalInserts t.output r ↔
      Store.statementInserts (t.output.field "variableMap") r (insert.sent (rowGuard none)) := by
    simp [Store.relationalInserts, texts, Value.texts, Value.items, selects]
  rw [inserts, Store.statementInserts_iff (reads insert (by simp)), mapped]
  refine and_congr_right fun apart => forall_congr' fun name => ?_
  rw [Model.newRecord_row relational]
  split
  · next listed => rw [← insertBinding decoded relational apart bound listed]; rfl
  · rfl

end Rows

end Template

end ApiLoom
