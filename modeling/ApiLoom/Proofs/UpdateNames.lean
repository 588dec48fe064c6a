import ApiLoom.Proofs.Placeholders

/-!
# Names of updates

The update of a document introduces a name and a value for each field that it writes, and so does
its condition for the key and, where the caller was let in provisionally, for the owner.  Fields
lend theirs to the former, while those of the condition are fixed.
-/

namespace ApiLoom

/-! ### Names behind a mark -/

/-- The keys of the value are these names behind the mark. -/
def Value.IsMarked (mark : String) (names : List String) (v : Value) : Prop :=
  ∀ key, (v.field? key).isSome = true ↔ ∃ name ∈ names, key = mark ++ name

def Value.SharesNoKey (v w : Value) : Prop :=
  ∀ key, (v.field? key).isSome = true → (w.field? key).isSome = false

namespace Value.IsMarked

variable {mark name : String} {names others : List String} {v w x : Value}

theorem object (mark : String) (fields : List (String × Value)) :
    (Value.object (fields.map fun f => (mark ++ f.1, f.2))).IsMarked mark
      (fields.map Prod.fst) := by
  intro key
  have found : ((Value.object (fields.map fun f => (mark ++ f.1, f.2))).field? key).isSome =
      Entries.has _ key := (Entries.has_eq_isSome _ key).symm
  simp only [found, Entries.has, List.any_map, List.any_eq_true, Function.comp_apply,
    decide_eq_true_eq, Scalar.text.injEq, List.mem_map]
  constructor
  · rintro ⟨f, listed, rfl⟩
    exact ⟨f.1, ⟨f, listed, rfl⟩, rfl⟩
  · rintro ⟨_, ⟨f, listed, rfl⟩, rfl⟩
    exact ⟨f, listed, rfl⟩

theorem put (marked : v.IsMarked mark names) (filled : names ≠ []) :
    (v.put (mark ++ name) x).IsMarked mark (names ++ [name]) := by
  obtain ⟨first, rest, rfl⟩ := List.exists_cons_of_ne_nil filled
  have found := (marked (mark ++ first)).mpr ⟨first, List.mem_cons_self, rfl⟩
  cases v with
  | map es =>
    intro key
    by_cases same : key = mark ++ name
    · subst same
      simp [Value.field?, Value.put, Entries.get?_put_self]
    · have kept : ((Value.map es).put (mark ++ name) x).field? key = (Value.map es).field? key :=
        Entries.get?_put_of_ne same es x
      rw [kept, marked key]
      simp [same]
  | scalar | list => simp [Value.field?] at found

/-- Two sets of names behind one mark share no key if they share no name. -/
theorem sharesNoKey_iff (first : v.IsMarked mark names) (second : w.IsMarked mark others) :
    v.SharesNoKey w ↔ ∀ name ∈ names, name ∉ others := by
  constructor
  · intro apart name member listed
    have shared := apart _ ((first _).mpr ⟨name, member, rfl⟩)
    rw [(second _).mpr ⟨name, listed, rfl⟩] at shared
    cases shared
  · intro apart key found
    obtain ⟨name, member, rfl⟩ := (first key).mp found
    rw [← Bool.not_eq_true, second]
    rintro ⟨other, listed, same⟩
    have equal : name = other := by
      rw [← String.toList_inj] at same ⊢
      simpa [String.toList_append] using same
    exact apart name member (equal ▸ listed)

end Value.IsMarked

namespace Template

open Script

section Fields

variable {w : World} {s t : State} {input : Value} {names values : List String}

/-- While an update is put together, names and values were introduced for these fields. -/
structure Updating (input : Value) (names values : List String) (s : State) : Prop where
  input : s.local? "input" = input
  names : (s.local? "updateNames").IsMarked "#" names
  values : (s.local? "updateValues").IsMarked ":" values

theorem expand_marked {mark : String} (plain : '$' ∉ mark.toList) (text : String) :
    w.expand s (mark ++ text) = mark ++ w.expand s text := by
  rw [World.expand, String.toList_append, Text.expand_of_notMem plain, ← String.toList_inj]
  simp [World.expand]

theorem eval_has (updating : Updating input names values s) {name : String}
    (plain : '$' ∉ name.toList) :
    (Cond.holds ((Term.var "input").call "containsKey" [.plain name])).eval w s =
      (input.field? name).isSome := by
  rw [Cond.eval, eval_method rfl, eval_var (by decide), updating.input]
  simp only [List.map_cons, List.map_nil, Term.eval, expand_plain plain, callMethod]
  rfl

/-- The fields that the input has. -/
def givenFields (input : Value) (fields : List String) : List String :=
  fields.filter fun name => (input.field? name).isSome

theorem updateField_updates {name : String} (plain : '$' ∉ name.toList) (named : names ≠ [])
    (valued : values ≠ []) (updating : Updating input names values s) :
    ((updateField name).exec w s).Reaches (Updating input (names ++ givenFields input [name])
      (values ++ givenFields input [name])) := by
  rw [updateField, exec_when, eval_has updating plain]
  cases has : (input.field? name).isSome with
  | false => exact .now (by simpa [givenFields, has] using updating)
  | true =>
    have given : givenFields input [name] = [name] := by simp [givenFields, has]
    rw [given]
    have marks : ∀ mark : String, '$' ∉ mark.toList → ∀ s,
        w.expand s (mark ++ name) = mark ++ name :=
      fun mark without s => by rw [expand_marked without, expand_plain plain]
    simp only [if_true, exec_acts_cons, exec_acts_nil, Action.perform, Step.next_andThen,
      State.effect, State.change, Term.eval, World.printed,
      marks "#" (by decide), marks ":" (by decide)]
    refine .now ⟨?_, ?_, ?_⟩
    · rw [State.local?_bind_of_ne (by decide), State.local?_bind_of_ne (by decide),
        State.local?_bind_of_ne (by decide), updating.input]
    · rw [State.local?_bind_of_ne (by decide), State.local?_bind_self,
        State.local?_bind_of_ne (by decide)]
      exact updating.names.put named
    · rw [State.local?_bind_self, State.local?_bind_of_ne (by decide),
        State.local?_bind_of_ne (by decide)]
      exact updating.values.put valued

theorem updateFields_update {fields : List String} (plain : ∀ name ∈ fields, '$' ∉ name.toList)
    (named : names ≠ []) (valued : values ≠ []) (updating : Updating input names values s) :
    ((concat (fields.map updateField)).exec w s).Reaches (Updating input
      (names ++ givenFields input fields) (values ++ givenFields input fields)) := by
  induction fields generalizing names values s with
  | nil => exact .now (by simpa [givenFields] using updating)
  | cons name rest ih =>
    obtain ⟨first, later⟩ := List.forall_mem_cons.mp plain
    have split (before : List String) : before ++ givenFields input (name :: rest) =
        before ++ givenFields input [name] ++ givenFields input rest := by
      rw [List.append_assoc, givenFields, givenFields, givenFields, ← List.filter_append]
      rfl
    rw [List.map_cons, exec_concat_cons, split, split]
    refine (updateField_updates first named valued updating).andThen fun t next => ?_
    exact ih later (by simp [named]) (by simp [valued]) next

/-- The time stands under the names that its field has when the update is begun; a field without
references has its own. -/
theorem updateLead_updates {u : UpdateItem} (plain : ∀ name ∈ u.fields, '$' ∉ name.toList)
    (asks : u.inputExpression = "$ctx.args.input") :
    ((updateLead u).exec w s).Reaches fun t => ∃ stamp value,
      ('$' ∉ u.updatedAtField.toList → stamp = u.updatedAtField ∧ value = u.updatedAtField) ∧
      Updating (s.args.field "input") (stamp :: givenFields (s.args.field "input") u.fields)
        (value :: givenFields (s.args.field "input") u.fields) t := by
  have hash : '$' ∉ "#".toList := by decide
  have colon : '$' ∉ ":".toList := by decide
  have begun : ((acts [.set "input" (.verbatim u.inputExpression),
      .set "setExpressions" (.list [.plain ("#" ++ u.updatedAtField ++ " = :" ++
        u.updatedAtField)]),
      .set "updateNames" (.entry (.plain ("#" ++ u.updatedAtField)) (.plain u.updatedAtField)),
      .set "updateValues" (.entry (.plain (":" ++ u.updatedAtField)) Term.now.typed)]).exec w
        s).Reaches fun t => ∃ stamp value,
          ('$' ∉ u.updatedAtField.toList → stamp = u.updatedAtField ∧ value = u.updatedAtField) ∧
            Updating (s.args.field "input") [stamp] [value] t := by
    simp only [exec_acts_cons, exec_acts_nil, Action.perform, Step.next_andThen, Term.eval,
      World.printed, expand_marked hash, expand_marked colon, asks, read_inputArg]
    refine .now ⟨?stamp, ?value, ?whole, ?input, ?names, ?values⟩
    case input =>
      rw [State.local?_bind_of_ne (by decide), State.local?_bind_of_ne (by decide),
        State.local?_bind_of_ne (by decide), State.local?_bind_self]
    case names =>
      rw [State.local?_bind_of_ne (by decide), State.local?_bind_self]
      exact Value.IsMarked.object "#" [(_, _)]
    case values =>
      rw [State.local?_bind_self]
      exact Value.IsMarked.object ":" [(_, _)]
    case whole => exact fun whole => ⟨expand_plain whole, expand_plain whole⟩
  obtain ⟨t, reached, stamp, value, whole, updating⟩ := begun
  rw [updateLead, exec_append, reached, Step.next_andThen]
  refine (updateFields_update plain (List.cons_ne_nil _ _) (List.cons_ne_nil _ _) updating).mono ?_
  exact fun v updated => ⟨stamp, value, whole, updated⟩

end Fields

/-! ### Names of a condition -/

theorem conditionNames_marked (key : String) (guard : Option String) :
    (conditionNames key guard).IsMarked "#" ("key" :: ownerName guard) := by
  have marked := Value.IsMarked.object "#"
    (("key", .text key) :: (guard.map fun owner => ("owner", Value.text owner)).toList)
  cases guard <;> exact marked

theorem conditionValues_marked (guard : Option String) (sub : Value) :
    (conditionValues guard sub).IsMarked ":" (ownerName guard) := by
  have marked := Value.IsMarked.object ":"
    (guard.map fun _ => ("owner", sub.typed)).toList
  cases guard <;> exact marked

theorem conditionValues_field_marked (key : String) (guard : Option String) (sub : Value) :
    ((conditionValue key guard sub).field "expressionValues").IsMarked ":" (ownerName guard) := by
  cases guard with
  | none =>
    intro name
    have absent : (conditionValue key none sub).field "expressionValues" = .null := rfl
    simp [absent, ownerName, Value.field?]
  | some owner => exact conditionValues_marked (some owner) sub

theorem writeBody_parts {version v update condition : Value} {operation key : String} :
    (writeBody version operation key v (some update) condition).field "update" = update ∧
      (writeBody version operation key v (some update) condition).field "condition" =
        condition := by
  simp [writeBody, Entries.putAll, Entries.put, Entries.sameKey_text, Entries.get?]

/-! ### Names of a request -/

/-- What a run of an update introduces: for the fields that it writes, the time among them, and
for its condition. -/
structure Introduces (u : UpdateItem) (stamp value : String) (t : State) : Prop where
  names : ((t.output.field "update").field "expressionNames").IsMarked "#"
    (stamp :: givenFields (t.args.field "input") u.fields)
  values : ((t.output.field "update").field "expressionValues").IsMarked ":"
    (value :: givenFields (t.args.field "input") u.fields)
  conditionNames : ((t.output.field "condition").field "expressionNames").IsMarked "#"
    ("key" :: ownerName (if t.flagged needsOwnershipCheck then u.ownerGuard else none))
  conditionValues : ((t.output.field "condition").field "expressionValues").IsMarked ":"
    (ownerName (if t.flagged needsOwnershipCheck then u.ownerGuard else none))

/-- The update and its condition share no name and no value. -/
def UpdateApart (body : Value) : Prop :=
  ((body.field "update").field "expressionNames").SharesNoKey
      ((body.field "condition").field "expressionNames") ∧
    ((body.field "update").field "expressionValues").SharesNoKey
      ((body.field "condition").field "expressionValues")

section Requests

variable {w : World} {s t : State} {config : Config} {u : UpdateItem}

theorem updateItem_introduces (plain : ∀ name ∈ u.fields, '$' ∉ name.toList)
    (word : Text.IsWord u.keyField)
    (guarded : ∀ owner, u.ownerGuard = some owner → Text.IsWord owner)
    (asks : u.inputExpression = "$ctx.args.input")
    (run : (perform config (.updateItem u)).exec w s = .next t) : ∃ stamp value,
      ('$' ∉ u.updatedAtField.toList → stamp = u.updatedAtField ∧ value = u.updatedAtField) ∧
      Introduces u stamp value t := by
  obtain ⟨v, x, lead, kept, conditioned, whole⟩ := updateItem_runs (w := w) (s := s)
    config u word guarded
  obtain ⟨y, same, stamp, value, named, updating⟩ := updateLead_updates (w := w) (s := s) plain asks
  obtain rfl := Step.next.inj (same.symm.trans lead)
  obtain rfl : t = _ := Step.next.inj (run.symm.trans whole)
  have flagged : s.flagged needsOwnershipCheck = x.flagged needsOwnershipCheck := by
    rw [conditioned.same.flagged, kept.flagged]
  have args : s.args = x.args := (conditioned.same.args.trans kept.args).symm
  rw [args] at updating
  have names := conditioned.same.locals "updateNames" (by decide) ▸ updating.names
  have values := conditioned.same.locals "updateValues" (by decide) ▸ updating.values
  refine ⟨stamp, value, named, ?_, ?_, ?_, ?_⟩
  · rw [State.handOut, writeBody_parts.1]
    exact names
  · rw [State.handOut, writeBody_parts.1]
    exact values
  · rw [State.handOut, writeBody_parts.2, flagged]
    exact conditionNames_marked u.keyField _
  · rw [State.handOut, writeBody_parts.2, flagged]
    exact conditionValues_field_marked _ _ _

/-- Fields have the names of the condition where they are called like what these stand for. -/
theorem Introduces.apart_iff {stamp value : String} (introduces : Introduces u stamp value t) :
    let given := givenFields (t.args.field "input") u.fields
    let narrowed := t.flagged needsOwnershipCheck = true ∧ u.ownerGuard.isSome = true
    UpdateApart t.output ↔
      (∀ name ∈ stamp :: given, name ≠ "key" ∧ (narrowed → name ≠ "owner")) ∧
        (narrowed → "owner" ∉ value :: given) := by
  have owned (name : String) :
      name ∈ ownerName (if t.flagged needsOwnershipCheck then u.ownerGuard else none) ↔
        (t.flagged needsOwnershipCheck = true ∧ u.ownerGuard.isSome = true) ∧ name = "owner" := by
    cases t.flagged needsOwnershipCheck <;> cases u.ownerGuard <;> simp [ownerName]
  rw [UpdateApart, introduces.names.sharesNoKey_iff introduces.conditionNames,
    introduces.values.sharesNoKey_iff introduces.conditionValues]
  refine and_congr (forall₂_congr fun name _ => ?_) ⟨fun apart narrowed member => ?_, ?_⟩
  · rw [List.mem_cons, owned]
    tauto
  · exact apart _ member ((owned _).mpr ⟨narrowed, rfl⟩)
  · intro apart name member listed
    obtain ⟨narrowed, rfl⟩ := (owned name).mp listed
    exact apart narrowed member

end Requests

end Template

open Template

/-- Of the relational requests of a set, which have names that are apart, by whether the caller
was let in provisionally: those of root fields as their columns allow, the fetch of a stored record
always, and those of relationships unless the key of a page is called like a bound of it. -/
inductive Compilation.ClearNames (config : Config) (models : List Model) :
    RequestPlan → (Bool → Prop) → Prop where
  | root {m : Model} {field : RootField} {plan : RequestPlan} (member : m ∈ models)
    (asks : plan.operation = (m.mainOperation config field (m.isGated field)).1) :
    ClearNames config models plan fun flagged =>
      m.NamesApart config field (flagged && (m.ownerGuard (m.isGated field)).isSome)
  | fetch {m : Model} {key : String} {source : RecordSource} {plan : RequestPlan}
    (member : m ∈ models) (fetched : m.fetchByKey config key = .ok (plan.operation, source)) :
    ClearNames config models plan fun _ => True
  | traversal {m target : Model} {link : String × Relationship} {shape : ResultShape}
    {plan : RequestPlan} (member : m ∈ models) (related : link ∈ m.relationships)
    (found : modelNamed models link.2.target = some target)
    (reached : Model.traversalTo config target link.2.kind (foreignKeyOf m link.2) =
      some (plan.operation, shape)) :
    ClearNames config models plan fun _ => link.2.kind = .hasMany →
      foreignKeyOf m link.2 ≠ "limit" ∧ foreignKeyOf m link.2 ≠ "offset"

/-- The main operation of a model has statements only on a cluster. -/
theorem Model.engine_of_sql {m : Model} {config : Config} {field : RootField} {gated : Bool}
    {q : SqlStatements} (asks : (m.mainOperation config field gated).1 = .sql q) :
    m.engine = .relational := by
  by_contra other
  exact absurd asks (mainOperation_isOther config field gated other q)

/-- Every request with statements has names of which it is known when they are clear. -/
theorem Compilation.Generated.clearNames {config : Config} {models : List Model} {e : Exchange}
    {q : SqlStatements} (generated : Generated config models e)
    (asks : e.request.operation = .sql q) : ∃ clear, ClearNames config models e.request clear := by
  rcases generated.operation with ⟨m, member, field, main⟩ | ⟨m, member, key, source, fetched⟩ |
    ⟨m, member, link, related, target, shape, found, reached⟩ | aside
  · exact ⟨_, .root member main⟩
  · exact ⟨_, .fetch member fetched⟩
  · exact ⟨_, .traversal member related found reached⟩
  · rw [asks] at aside
    cases aside

theorem Compilation.ClearNames.namesApartIff {config : Config} {models : List Model}
    {seeds : Review.SeedData} {plan : RequestPlan} {q : SqlStatements} {clear : Bool → Prop}
    (clearNames : ClearNames config models plan clear) (read : ∀ m ∈ models, m.IsRead)
    (passes : Review.Passes config models seeds) (asks : plan.operation = .sql q) :
    plan.NamesApartIff config clear := by
  have declared : ∀ m ∈ models, m.hasProperty config.identifierField = true :=
    fun m member => passes.identifier_declared member
  cases clearNames with
  | root member main =>
    exact Model.mainOperation_namesApart (declared _ member) (read _ member)
      (Model.engine_of_sql (main.symm.trans asks)) main
  | fetch member fetched =>
    exact Model.fetchByKey_namesApart (declared _ member) (read _ member).isDecoded fetched asks
  | traversal member related found reached =>
    have there := (mem_of_modelNamed found).1
    exact Model.traversalTo_namesApart (read _ there).isDecoded (declared _ there)
      (fun indexed => passes.key_on_target member related indexed found) reached asks

/-- In a reviewed set, a relational request binds each placeholder of its statements once, and
nothing else, exactly where its names are clear; an update of a document introduces names that are
apart from those of its condition unless it writes a field called `key`, or for a caller let in
provisionally one called `owner`.  There are no requests where generation breaks off. -/
theorem placeholders_mean_one_thing {config : Config} {models : List Model}
    {seeds : Review.SeedData} (read : ∀ m ∈ models, m.IsRead)
    (passes : Review.Passes config models seeds) :
    Compilation.BreaksOff config models ∨
      ∃ c, Compilation.build config models = .ok c ∧ ∀ e ∈ c.exchanges,
      (∀ q, e.2.request.operation = .sql q →
        (∃ clear, Compilation.ClearNames config models e.2.request clear) ∧
        ∀ clear, Compilation.ClearNames config models e.2.request clear →
          e.2.request.NamesApartIff config clear) ∧
      ∀ u, e.2.request.operation = .updateItem u → ∀ w s t,
        (ofRequest config e.2.request).exec w s = .next t → ∃ stamp value,
          ('$' ∉ config.updatedAtField.toList →
            stamp = config.updatedAtField ∧ value = config.updatedAtField) ∧
          Introduces u stamp value t ∧
          let given := givenFields (t.args.field "input") u.fields
          let narrowed := t.flagged needsOwnershipCheck = true ∧ u.ownerGuard.isSome = true
          (UpdateApart t.output ↔
            (∀ name ∈ stamp :: given, name ≠ "key" ∧ (narrowed → name ≠ "owner")) ∧
              (narrowed → "owner" ∉ value :: given)) := by
  refine passes.builds.imp id fun ⟨c, built⟩ => ?_
  refine ⟨c, built, fun e listed => ?_⟩
  have generated := Compilation.generated built e listed
  refine ⟨fun q asks => ⟨generated.clearNames asks,
    fun clear clearNames => clearNames.namesApartIff read passes asks⟩, fun u asks w s t run => ?_⟩
  obtain ⟨m, member, _, made⟩ := generated.updateItem asks
  have decoded := (read m member).isDecoded
  have word {name : String} (declared : m.hasProperty name = true) : Text.IsWord name :=
    Text.isWord_of_isIdentifier (decoded.declared_identifier declared)
  obtain rfl := DataOperation.updateItem.inj made
  obtain ⟨v, run⟩ := ofRequest_next run
  rw [asks] at run
  obtain ⟨stamp, value, whole, introduces⟩ := updateItem_introduces
    (fun name written => (word (Model.writableFields_declared name written)).plain)
    (word (passes.identifier_declared member))
    (fun owner guard => word (Model.ownerGuard_declared owner guard)) rfl run
  exact ⟨stamp, value, whole, introduces, introduces.apart_iff⟩

/-- A row that only its owner may update, whose property is called `owner`. -/
def ownedRow : Value := .object [
  ("name", .text "Row"),
  ("properties", .object [
    ("id", .object [("type", .text "ID")]),
    ("owner", .object [("type", .text "String"), ("isOwner", .bool true)])]),
  ("dataSource", .object [("type", .text "database"), ("engine", .text "sql"),
    ("cluster", .object [("name", .text "main"), ("secretRef", .text "secret"),
      ("database", .text "rows")])]),
  ("accessControl", .object [("rules", .list [
    .object [("allow", .text "update"), ("owner", .bool true)]])])]

/-- A document with a property that is called `key`. -/
def keyedDocument : Value := .object [
  ("name", .text "Entry"),
  ("properties", .object [
    ("id", .object [("type", .text "ID")]),
    ("key", .object [("type", .text "String")])]),
  ("dataSource", .object [("type", .text "database"), ("engine", .text "nosql")])]

/-- A caller let in provisionally gets two values for `:owner`, and an update of the document that
gives it a `key` two names for `#key`. -/
theorem placeholders_mean_one_thing_ownedRow :
    ∃ row entry c, Model.decode ownedRow = .ok row ∧ Model.decode keyedDocument = .ok entry ∧
      Compilation.build .default [row, entry] = .ok c ∧
      (∃ e ∈ c.exchanges, e.2.request.operation = (row.mainOperation .default .update true).1 ∧
        e.2.request.NamesApartIff .default fun flagged => flagged = false) ∧
      ∃ e ∈ c.exchanges, e.2.request.operation = (entry.mainOperation .default .update false).1 ∧
        ∀ w s t, (ofRequest .default e.2.request).exec w s = .next t →
          (UpdateApart t.output ↔ ((t.args.field "input").field? "key").isSome = false) := by
  obtain ⟨row, entry, c, first, second, built, harmless, written, relational, gated, clear,
      ⟨e, listed, asks⟩, documents, fields, ⟨d, also, updates⟩⟩ :
      ∃ row entry c, Model.decode ownedRow = .ok row ∧ Model.decode keyedDocument = .ok entry ∧
      Compilation.build .default [row, entry] = .ok c ∧
      (∀ f ∈ Review.all .default [row, entry] [], f.level ≠ .error) ∧
      (∀ x ∈ [row, entry], ¬ x.HasLongLimit) ∧
      row.engine = .relational ∧ row.isGated .update = true ∧
      (∀ flagged, row.NamesApart .default .update
        (flagged && (row.ownerGuard true).isSome) ↔ flagged = false) ∧
      (∃ e ∈ c.exchanges, e.2.request.operation = (row.mainOperation .default .update true).1) ∧
      entry.engine = .document ∧ entry.writableFields .default = ["key"] ∧
      ∃ d ∈ c.exchanges, d.2.request.operation = (entry.mainOperation .default .update false).1 :=
    ⟨_, _, _, rfl, rfl, rfl, by decide +kernel, by decide +kernel, rfl, rfl, by decide +kernel,
      by decide +kernel, rfl, rfl, by decide +kernel⟩
  have read : ∀ m ∈ [row, entry], m.IsRead := by
    simp only [List.mem_cons, List.not_mem_nil, or_false]
    rintro m (rfl | rfl)
    · exact ⟨ownedRow, by simp [ownedRow], first⟩
    · exact ⟨keyedDocument, by simp [keyedDocument], second⟩
  obtain ⟨c', rebuilt, means⟩ :=
    (placeholders_mean_one_thing read (Report.isValid_ofFindings.mpr harmless)).resolve_left
      (Compilation.not_breaksOff written)
  obtain rfl := Except.ok.inj (built.symm.trans rebuilt)
  refine ⟨row, entry, c, first, second, built, ⟨e, listed, asks, ?_⟩, d, also, updates,
    fun w s t run => ?_⟩
  · have operation : e.2.request.operation = .sql (row.sqlUpdate .default true) := by
      rw [asks]
      simp [Model.mainOperation, relational, Model.relationalMain]
    have origin : Compilation.ClearNames .default [row, entry] e.2.request fun flagged =>
        row.NamesApart .default .update
          (flagged && (row.ownerGuard (row.isGated .update)).isSome) :=
      .root List.mem_cons_self (gated.symm ▸ asks)
    exact (((means e listed).1 _ operation).2 _ origin).congr (gated.symm ▸ clear)
  · have operation : d.2.request.operation = (entry.documentMain .default .update false).1 := by
      rw [updates]
      simp [Model.mainOperation, documents]
    obtain ⟨stamp, value, plain, _, apart⟩ := (means d also).2 _ operation w s t run
    obtain ⟨rfl, rfl⟩ := plain (by decide)
    have unguarded : entry.ownerGuard false = none := rfl
    simp only [fields, unguarded, Option.isSome_none, Bool.false_eq_true, and_false,
      false_implies, and_true] at apart
    rw [apart]
    cases has : ((t.args.field "input").field? "key").isSome <;>
      simp [givenFields, has, Config.default]

end ApiLoom
