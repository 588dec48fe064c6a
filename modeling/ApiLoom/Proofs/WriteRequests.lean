import ApiLoom.Proofs.Compiled
import ApiLoom.Proofs.Decision
import ApiLoom.Proofs.Decoded
import ApiLoom.Proofs.Writes

/-!
# What write requests change

A write of the document store changes the record of its key, and where the caller
was let in provisionally only if the record is still the caller's.
-/

namespace ApiLoom.Template

open Script

section Expressions

variable {w : World} {s : State} {name : String}

/-! ### Expressions -/

theorem path_cons {first : List Char} (rest : List Char) (whole : '.' ∉ first) :
    Text.path (first ++ '.' :: rest) = String.ofList first :: Text.path rest := by
  simp [Text.path, Text.parts_append, Text.parts_of_notMem whole]

theorem path_word (word : Text.IsWord name) : Text.path name.toList = [name] := by
  simp [Text.path, Text.parts_of_notMem word.undotted]

theorem read_input (word : Text.IsWord name) :
    w.read s (inputArgument name) = (s.args.field "input").field name := by
  have chars : (inputArgument name).toList = '$' :: ("ctx".toList ++ '.' ::
      ("args".toList ++ '.' :: ("input".toList ++ '.' :: name.toList))) := by
    have lead : "$ctx.args.input.".toList = '$' :: ("ctx".toList ++ '.' ::
        ("args".toList ++ '.' :: ("input".toList ++ ['.']))) := rfl
    have spelled : inputArgument name = "$ctx.args.input." ++ name := rfl
    simp only [spelled, String.toList_append, lead, List.cons_append, List.append_assoc,
      List.nil_append]
  have uncalled : ("ctx".toList ++ '.' :: ("args".toList ++ '.' ::
      ("input".toList ++ '.' :: name.toList))).contains '(' = false := by
    simp [word.uncalled]
  rw [World.read, chars]
  simp only [uncalled, path_cons _ (by decide : '.' ∉ "ctx".toList),
    path_cons _ (by decide : '.' ∉ "args".toList), path_cons _ (by decide : '.' ∉ "input".toList),
    path_word word]
  simp [World.follow, World.lookup, World.contextValue, Value.object, Entries.get?]

theorem read_bound (word : Text.IsWord name) :
    w.read s ("$input." ++ name) = (s.local? "input").field name := by
  have chars : ("$input." ++ name).toList = '$' :: ("input".toList ++ '.' :: name.toList) := by
    have lead : "$input.".toList = '$' :: ("input".toList ++ ['.']) := rfl
    simp only [String.toList_append, lead, List.cons_append, List.append_assoc, List.nil_append]
  have uncalled : ("input".toList ++ '.' :: name.toList).contains '(' = false := by
    simp [word.uncalled]
  rw [World.read, chars]
  simp only [uncalled, path_cons _ (by decide : '.' ∉ "input".toList), path_word word]
  simp [World.follow, World.lookup]

theorem read_variable (word : Text.IsWord name) (own : name ≠ "ctx") :
    w.read s ("$" ++ name) = s.local? name := by
  have chars : ("$" ++ name).toList = '$' :: name.toList := by
    rw [String.toList_append]
    rfl
  have uncalled : name.toList.contains '(' = false := by simp [word.uncalled]
  rw [World.read, chars]
  simp only [uncalled, path_word word]
  simp [World.follow, lookup_local own]

/-- What calls something is left to the library. -/
theorem read_called {text : String} (called : '(' ∈ text.toList) :
    w.read s text = w.library.written text := by
  unfold World.read
  split
  · next rest chars =>
    have within : rest.contains '(' = true := by simpa [chars] using called
    rw [if_pos within]
  · rfl

theorem reference_text {v : String} (own : name ≠ "ctx") (path : Text.path name.toList = [name])
    (bound : s.local? name = .text v) : w.reference s name.toList = v.toList := by
  have followed : w.follow s [name] = .text v := by
    simp [World.follow, lookup_local own, bound]
  simp [World.reference, path, followed, World.printed]

theorem expand_plain {text : String} (plain : '$' ∉ text.toList) : w.expand s text = text := by
  simp [World.expand, Text.expand_plain plain]

theorem eval_typed {t : Term} : t.typed.eval w s = (t.eval w s).typed := by
  rw [Term.typed, eval_library "dynamodb" rfl]
  simp [Library.apply]

theorem eval_typedJson {t : Term} : t.typedJson.eval w s = (t.eval w s).typed := by
  rw [Term.typedJson, eval_library "dynamodb" rfl]
  simp [Library.apply]

theorem eval_asJson {t : Term} : t.asJson.eval w s = t.eval w s := by
  rw [Term.asJson, eval_library "" rfl]
  simp [Library.apply]

theorem inBody_plain {text : String} : (Term.plain text).inBody w s = .text (w.expand s text) := by
  rw [Term.inBody, Term.eval]
  simp

theorem inBody_asJson {t : Term} : t.asJson.inBody w s = t.eval w s := eval_asJson

theorem inBody_typedJson {t : Term} : t.typedJson.inBody w s = (t.eval w s).typed := eval_typedJson

end Expressions

/-! ### The condition of a write -/

def conditionText : Option String → String
  | some _ => "attribute_exists(#key) AND #owner = :owner"
  | none => "attribute_exists(#key)"

def conditionNames (key : String) (guard : Option String) : Value :=
  .object (("#key", .text key) :: (guard.map fun owner => ("#owner", .text owner)).toList)

def conditionValues (guard : Option String) (sub : Value) : Value :=
  .object (guard.map fun _ => (":owner", sub.typed)).toList

/-- The variables with which the condition of a write is put together. -/
structure Conditioned (key : String) (guard : Option String) (sub : Value) (s t : State) :
    Prop where
  same : s.AgreesOff ["conditionExpression", "conditionNames", "conditionValues"] t
  expression : t.local? "conditionExpression" = .text (conditionText guard)
  names : t.local? "conditionNames" = conditionNames key guard
  values : t.local? "conditionValues" = conditionValues guard sub

section Conditions

variable {w : World} {s t : State} {config : Config} {caller : Caller} {key : String}
  {guard : Option String}

theorem beginCondition_reaches (sub : Value) (word : Text.IsWord key) :
    ((acts [.set "conditionExpression" (.plain "attribute_exists(#key)"),
      .set "conditionNames" (.entry (.plain "#key") (.plain key)),
      .set "conditionValues" .emptyMap]).exec w s).Reaches (Conditioned key none sub s) := by
  simp only [exec_acts_cons, exec_acts_nil, Action.perform, Step.next_andThen, Term.eval,
    World.printed, expand_plain (by decide : '$' ∉ "attribute_exists(#key)".toList),
    expand_plain (by decide : '$' ∉ "#key".toList), expand_plain word.plain]
  refine .now ⟨?_, ?_, ?_, ?_⟩
  · refine ((State.AgreesOff.bind ?_ _).trans (.bind ?_ _)).trans (.bind ?_ _) <;> decide
  · rw [State.local?_bind_of_ne (by decide), State.local?_bind_of_ne (by decide),
      State.local?_bind_self]
    rfl
  · rw [State.local?_bind_of_ne (by decide), State.local?_bind_self]
    rfl
  · rw [State.local?_bind_self]
    rfl

theorem guardCondition_reaches {owner : String} (word : Text.IsWord owner)
    (conditioned : Conditioned key none (w.context.identity.field "sub") s t) :
    ((acts [.set "conditionExpression" (.plain "$conditionExpression AND #owner = :owner"),
      .run ((Term.var "conditionNames").call "put" [.plain "#owner", .plain owner]),
      .run ((Term.var "conditionValues").call "put"
        [.plain ":owner", Term.caller.typed])]).exec w t).Reaches
      (Conditioned key (some owner) (w.context.identity.field "sub") s) := by
  have expanded : w.expand t "$conditionExpression AND #owner = :owner" =
      conditionText (some owner) := by
    have chars : "$conditionExpression AND #owner = :owner".toList =
        ('$' :: "conditionExpression".toList) ++ ' ' :: "AND #owner = :owner".toList := rfl
    rw [World.expand, chars, Text.expand_append, Text.expand_reference (by decide),
      reference_text (by decide) rfl conditioned.expression, Text.expand_plain (by decide)]
    rfl
  have names : (t.bind "conditionExpression" (.text (conditionText (some owner)))).local?
      "conditionNames" = .object [("#key", .text key)] := by
    rw [State.local?_bind_of_ne (by decide), conditioned.names]
    rfl
  simp only [exec_acts_cons, exec_acts_nil, Action.perform, Step.next_andThen, Term.eval, expanded,
    State.effect, State.change, World.printed, expand_plain (by decide : '$' ∉ "#owner".toList),
    expand_plain (by decide : '$' ∉ ":owner".toList), expand_plain word.plain, names,
    State.local?_bind_of_ne (by decide : "conditionValues" ≠ "conditionNames"),
    State.local?_bind_of_ne (by decide : "conditionValues" ≠ "conditionExpression"),
    conditioned.values, eval_typed, eval_sub]
  refine .now ⟨conditioned.same.trans ?_, ?_, ?_, ?_⟩
  · refine ((State.AgreesOff.bind ?_ _).trans (.bind ?_ _)).trans (.bind ?_ _) <;> decide
  · rw [State.local?_bind_of_ne (by decide), State.local?_bind_of_ne (by decide),
      State.local?_bind_self]
  · rw [State.local?_bind_of_ne (by decide), State.local?_bind_self]
    simp [conditionNames, Value.put, Entries.put, Value.object, Entries.sameKey_text]
  · rw [State.local?_bind_self]
    simp [conditionValues, Value.put, Entries.put, Value.object]

theorem writeCondition_reaches (word : Text.IsWord key)
    (guarded : ∀ owner, guard = some owner → Text.IsWord owner) :
    ((writeCondition key guard).exec w s).Reaches (Conditioned key
      (if s.flagged needsOwnershipCheck then guard else none) (w.context.identity.field "sub")
      s) := by
  obtain ⟨t, begun, conditioned⟩ := beginCondition_reaches (w := w) (s := s)
    (w.context.identity.field "sub") word
  rw [writeCondition, exec_append, begun, Step.next_andThen]
  cases guard with
  | none =>
    rw [ite_self]
    exact .now conditioned
  | some owner =>
    have given : nonEmpty (some owner) = some owner :=
      nonEmpty_eq_some_iff.mpr ⟨rfl, (guarded owner rfl).filled⟩
    rw [given]
    dsimp only
    rw [exec_append, exec_acts_cons, Action.perform, Step.next_andThen, exec_acts_nil,
      Step.next_andThen, exec_when, eval_flagged, conditioned.same.flagged]
    split
    · exact guardCondition_reaches (guarded owner rfl) conditioned
    · exact .now conditioned

def conditionValue (key : String) (guard : Option String) (sub : Value) : Value :=
  .object ([("expression", .text (conditionText guard)),
    ("expressionNames", conditionNames key guard)] ++
    (guard.map fun _ => ("expressionValues", conditionValues guard sub)).toList)

theorem conditionMember_eval {sub : Value} (conditioned : Conditioned key guard sub s t) :
    evalMembers w t [conditionMember] = [("condition", conditionValue key guard sub)] := by
  have expanded : w.expand t "$conditionExpression" = conditionText guard := by
    have chars : "$conditionExpression".toList = '$' :: "conditionExpression".toList := rfl
    rw [World.expand, chars, Text.expand_reference (by decide),
      reference_text (by decide) rfl conditioned.expression, String.ofList_toList]
  have empty : ((Term.var "conditionValues").call "isEmpty" []).eval w t =
      .bool guard.isNone := by
    rw [eval_method rfl, eval_var (by decide), conditioned.values]
    cases guard <;> rfl
  simp only [conditionMember, evalMembers, Body.eval, Body.plain, inBody_plain, expanded,
    inBody_asJson, eval_var (by decide : "conditionNames" ≠ "ctx"), conditioned.names,
    eval_var (by decide : "conditionValues" ≠ "ctx"), conditioned.values, Cond.eval, empty,
    Value.isTrue_bool]
  cases guard <;>
    simp [conditionValue, Value.object, Entries.putAll, Entries.put, Entries.sameKey_text]

end Conditions

/-! ### Writes of the document store -/

theorem hasKey_of_stored {key : String} {v : Value} {r : Record} (stored : r.get? key = some v) :
    Store.hasKey (.object [(key, v.typed)]) r = true := by
  obtain ⟨e, found, rfl⟩ := Option.map_eq_some_iff.mp stored
  simp [Store.hasKey, Value.object, Value.entries, found]

/-- The condition of a write holds of a record that is there and belongs to the caller, where
that counts. -/
theorem conditionHolds_eq {key : String} {guard : Option String} {values sub v : Value}
    {r : Record} (stored : r.get? key = some v)
    (bound : guard.isSome = true → values.field ":owner" = sub.typed) :
    Store.conditionHolds (conditionNames key guard) values r
        (Text.words (conditionText guard)) =
      guard.all fun owner => (r.get? owner).any fun v => v.typed = sub.typed := by
  have present : r.has key = true := by simp [Entries.has_eq_isSome, stored]
  have asked : Store.presence? "attribute_exists(#key)" = some "#key" := by decide
  cases guard with
  | none =>
    have words : Text.words (conditionText none) = ["attribute_exists(#key)"] := by decide
    simp [words, Store.conditionHolds, asked, Store.fieldNamed, conditionNames, Value.object,
      Entries.get?, Value.text?, present]
  | some owner =>
    have words : Text.words (conditionText (some owner)) =
        ["attribute_exists(#key)", "AND", "#owner", "=", ":owner"] := by
      change Text.words "attribute_exists(#key) AND #owner = :owner" = _
      decide
    have named : Store.fieldNamed (conditionNames key (some owner)) "#key" = key := rfl
    have owned : Store.fieldNamed (conditionNames key (some owner)) "#owner" = owner := rfl
    simp [words, Store.conditionHolds, asked, named, owned, present, bound rfl]

theorem documentWrites_eq {body v sub : Value} {operation key : String} {guard : Option String}
    {r : Record} (asked : body.field "operation" = .text operation)
    (writes : ["UpdateItem", "DeleteItem"].contains operation = true)
    (keyed : body.field "key" = .object [(key, v.typed)])
    (conditioned : body.field "condition" = conditionValue key guard sub)
    (stored : r.get? key = some v) :
    Store.documentWrites body r =
      guard.all fun owner => (r.get? owner).any fun v => v.typed = sub.typed := by
  have expression : (conditionValue key guard sub).field "expression" =
      .text (conditionText guard) := rfl
  have names : (conditionValue key guard sub).field "expressionNames" =
      conditionNames key guard := rfl
  have bound : guard.isSome = true →
      ((conditionValue key guard sub).field "expressionValues").field ":owner" = sub.typed := by
    cases guard with
    | none => simp
    | some owner => exact fun _ => rfl
  rw [← conditionHolds_eq stored bound, Store.documentWrites, asked, keyed, conditioned,
    expression, names]
  simp only [Value.text?, Option.getD_some, writes, hasKey_of_stored stored, Bool.true_and]

section Bodies

variable {w : World} {s : State} {config : Config} {caller : Caller} {key : String}
  {guard : Option String}

/-- The request changes the record of the key that the input names, if it is there and is the
caller's where that counts. -/
def ChangesDocument (key : String) (guard : Option String) (caller : Caller) (s t : State) : Prop :=
  t.stash = s.stash ∧ t.args = s.args ∧
    ∀ r : Record, r.get? key = some ((s.args.field "input").field key) →
      Store.documentWrites t.output r =
        (if s.flagged needsOwnershipCheck then guard else none).all fun owner =>
          (r.get? owner).any fun v => v.typed = (subValue caller).typed

theorem keyMember_eval (key : String) (value : Term) (rest : List Member) :
    evalMembers w s (keyMember key value :: rest) =
      ("key", .object [(key, (value.eval w s).typed)]) :: evalMembers w s rest := by
  simp only [keyMember, evalMembers, Body.eval, inBody_typedJson]
  simp [Entries.putAll, Entries.put, Value.object]

def writeBody (version : Value) (operation key : String) (v : Value) (update : Option Value)
    (condition : Value) : Value :=
  .map (Entries.putAll [] (("version", version) :: ("operation", .text operation) ::
    ("key", .object [(key, v.typed)]) ::
      ((update.map (("update", ·))).toList ++ [("condition", condition)])))

theorem documentWrites_writeBody {version v sub : Value} {operation : String} {r : Record}
    (update : Option Value)
    (writes : ["UpdateItem", "DeleteItem"].contains operation = true)
    (stored : r.get? key = some v) :
    Store.documentWrites
        (writeBody version operation key v update (conditionValue key guard sub)) r =
      guard.all fun owner => (r.get? owner).any fun v => v.typed = sub.typed := by
  refine documentWrites_eq ?_ writes ?_ ?_ stored
  all_goals
    cases update <;>
      simp [writeBody, Entries.putAll, Entries.put, Entries.sameKey_text, Entries.get?]

theorem body_plain_eval {text : String} (plain : '$' ∉ text.toList) :
    (Body.plain text).eval w s = .text text := by
  rw [Body.plain, Body.eval, inBody_plain, expand_plain plain]

theorem versioned_eval (members : List Member) :
    (versioned config members).eval w s =
      .map (Entries.putAll [] (("version", (Body.plain config.templateVersion).eval w s) ::
        evalMembers w s members)) := by
  rw [versioned, Body.eval, evalMembers]

theorem deleteItem_reaches (told : w.context.identity = caller.identity config)
    (word : Text.IsWord key) (guarded : ∀ owner, guard = some owner → Text.IsWord owner) :
    ((deleteItem config key (inputArgument key) guard).exec w s).Reaches
      (ChangesDocument key guard caller s) := by
  obtain ⟨t, set, conditioned⟩ := writeCondition_reaches (w := w) (s := s) word guarded
  rw [told, identity_sub] at conditioned
  rw [deleteItem, exec_append, set, Step.next_andThen, exec_acts_cons, Action.perform,
    Step.next_andThen, exec_acts_nil, versioned_eval, evalMembers,
    body_plain_eval (by decide : '$' ∉ "DeleteItem".toList), keyMember_eval, Term.eval,
    read_input word, conditionMember_eval conditioned, conditioned.same.args]
  refine .now ⟨conditioned.same.stash, conditioned.same.args, fun r stored => ?_⟩
  exact documentWrites_writeBody none (by decide) stored

theorem effect_agreesOff {names : List String} {name : String} (member : name ∈ names)
    (method : String) (arguments : List Term) :
    s.AgreesOff names (s.effect w ((Term.var name).call method arguments)) := by
  unfold State.effect
  split
  · next same =>
    obtain ⟨rfl, rfl, rfl⟩ := Term.call.inj same
    exact .bind member _
  · next same =>
    obtain ⟨rfl, rfl, rfl⟩ := Term.call.inj same
    exact .bind member _
  · exact .refl names s

theorem updateField_reaches (name : String) :
    ((updateField name).exec w s).Reaches
      (s.AgreesOff ["setExpressions", "updateNames", "updateValues"]) := by
  rw [updateField, exec_when]
  split
  · simp only [exec_acts_cons, exec_acts_nil, Action.perform, Step.next_andThen]
    exact .now (((effect_agreesOff (by simp) _ _).trans (effect_agreesOff (by simp) _ _)).trans
      (effect_agreesOff (by simp) _ _))
  · exact .now (.refl _ s)

theorem updateFields_reaches (fields : List String) (s : State) :
    ((concat (fields.map updateField)).exec w s).Reaches
      (s.AgreesOff ["setExpressions", "updateNames", "updateValues"]) := by
  induction fields generalizing s with
  | nil => exact .now (.refl _ s)
  | cons name rest ih =>
    rw [List.map_cons, exec_concat_cons]
    refine (updateField_reaches name).andThen fun t same => ?_
    exact (ih t).mono fun u later => same.trans later

/-- What an update puts together before its condition: the fields that it writes. -/
def updateLead (u : UpdateItem) : Script :=
  acts [.set "input" (.verbatim u.inputExpression),
    .set "setExpressions" (.list [.plain ("#" ++ u.updatedAtField ++ " = :" ++ u.updatedAtField)]),
    .set "updateNames" (.entry (.plain ("#" ++ u.updatedAtField)) (.plain u.updatedAtField)),
    .set "updateValues" (.entry (.plain (":" ++ u.updatedAtField)) Term.now.typed)] ++
  concat (u.fields.map updateField)

theorem updateLead_reaches (u : UpdateItem) : ((updateLead u).exec w s).Reaches
    (s.AgreesOff ["input", "setExpressions", "updateNames", "updateValues"]) := by
  rw [updateLead, exec_append]
  simp only [exec_acts_cons, exec_acts_nil, Action.perform, Step.next_andThen]
  refine (updateFields_reaches u.fields _).mono fun t fields => ?_
  refine State.AgreesOff.trans ?_ (fields.mono (by simp))
  refine ((((State.AgreesOff.bind ?_ _).trans (.bind ?_ _)).trans (.bind ?_ _)).trans
    (.bind ?_ _)) <;> simp

def updateValue (w : World) (s : State) : Value :=
  .object [("expression", w.read s setClause), ("expressionNames", s.local? "updateNames"),
    ("expressionValues", s.local? "updateValues")]

/-- What an update hands out, once its fields and its condition are put together. -/
theorem updateItem_exec (config : Config) {u : UpdateItem} {t v : State}
    (written : (updateLead u).exec w s = .next t)
    (conditions : (writeCondition u.keyField u.ownerGuard).exec w t = .next v) :
    (updateItem config u).exec w s = .next (v.handOut (.map (Entries.putAll []
      (("version", (Body.plain config.templateVersion).eval w v) ::
        ("operation", .text "UpdateItem") ::
        ("key", .object [(u.keyField, (w.read v u.keyExpression).typed)]) ::
        ("update", updateValue w v) :: evalMembers w v [conditionMember])))) := by
  have parts : updateItem config u = updateLead u ++ writeCondition u.keyField u.ownerGuard ++
      acts [.send (versioned config [
        .always "operation" (.plain "UpdateItem"),
        keyMember u.keyField (.verbatim u.keyExpression),
        .always "update" (.object [
          .always "expression" (.verbatim setClause),
          .always "expressionNames" (.value (Term.var "updateNames").asJson),
          .always "expressionValues" (.value (Term.var "updateValues").asJson)]),
        conditionMember])] := rfl
  have update : (Body.object [
      .always "expression" (.verbatim setClause),
      .always "expressionNames" (.value (Term.var "updateNames").asJson),
      .always "expressionValues" (.value (Term.var "updateValues").asJson)]).eval w v =
        updateValue w v := by
    simp only [Body.verbatim, Body.eval, evalMembers, inBody_asJson,
      eval_var (by decide : "updateNames" ≠ "ctx"), eval_var (by decide : "updateValues" ≠ "ctx")]
    simp [updateValue, Term.inBody, Term.eval, Value.object, Entries.putAll, Entries.put,
      Entries.sameKey_text]
  rw [parts, exec_append, exec_append, written, Step.next_andThen, conditions, Step.next_andThen,
    exec_acts_cons, Action.perform, Step.next_andThen, exec_acts_nil, versioned_eval, evalMembers,
    body_plain_eval (by decide : '$' ∉ "UpdateItem".toList), keyMember_eval, Term.eval, evalMembers,
    update]

/-- An update ends with a body that has the fields put together first, under a condition. -/
theorem updateItem_runs (config : Config) (u : UpdateItem) (word : Text.IsWord u.keyField)
    (guarded : ∀ owner, u.ownerGuard = some owner → Text.IsWord owner) :
    let active := if s.flagged needsOwnershipCheck then u.ownerGuard else none
    let sub := w.context.identity.field "sub"
    ∃ t v, (updateLead u).exec w s = .next t ∧
      s.AgreesOff ["input", "setExpressions", "updateNames", "updateValues"] t ∧
      Conditioned u.keyField active sub t v ∧
      (updateItem config u).exec w s = .next (v.handOut (writeBody
        ((Body.plain config.templateVersion).eval w v) "UpdateItem" u.keyField
        (w.read v u.keyExpression) (some (updateValue w v))
        (conditionValue u.keyField active sub))) := by
  obtain ⟨t, written, kept⟩ := updateLead_reaches (w := w) (s := s) u
  obtain ⟨v, conditions, conditioned⟩ := writeCondition_reaches (w := w) (s := t) word guarded
  rw [kept.flagged] at conditioned
  refine ⟨t, v, written, kept, conditioned, ?_⟩
  rw [updateItem_exec config written conditions, conditionMember_eval conditioned]
  rfl

theorem updateItem_reaches {fields : List String} {updatedAt : String}
    (told : w.context.identity = caller.identity config) (word : Text.IsWord key)
    (guarded : ∀ owner, guard = some owner → Text.IsWord owner) :
    ((updateItem config ⟨key, inputArgument key, fields, updatedAt, guard,
      "$ctx.args.input"⟩).exec w s).Reaches (ChangesDocument key guard caller s) := by
  obtain ⟨t, v, _, kept, conditioned, run⟩ := updateItem_runs (w := w) (s := s) config
    ⟨key, inputArgument key, fields, updatedAt, guard, "$ctx.args.input"⟩ word guarded
  have same := conditioned.same
  rw [run, read_input word, same.args, kept.args, told, identity_sub]
  refine .now ⟨same.stash.trans kept.stash, same.args.trans kept.args, fun r stored => ?_⟩
  exact documentWrites_writeBody (some _) (by decide) stored

end Bodies

end ApiLoom.Template
