import ApiLoom.Proofs.Statements

/-!
# What relational requests change

The condition of a statement names the key, and where the caller was let in
provisionally the owner too.  The values of both come from one variable map, in
which the last entry of a name stands.
-/

namespace ApiLoom.Template

open Script

/-! ### Bodies with statements -/

section Bodies

variable {w : World} {s u : State} {config : Config} {caller : Caller}

theorem evalMembers_append (first rest : List Member) :
    evalMembers w s (first ++ rest) = evalMembers w s first ++ evalMembers w s rest := by
  induction first with
  | nil => rfl
  | cons member later ih =>
    cases member with
    | always key body => simp [evalMembers, ih]
    | provided condition key value =>
      simp only [List.cons_append, evalMembers, ih]
      split <;> rfl

def boundValues (w : World) (s : State) (placeholders : List SqlVariable) :
    List (String × Value) :=
  placeholders.map fun v => (v.name, w.read s v.expression)

theorem boundValues_eval (placeholders : List SqlVariable) :
    evalMembers w s (placeholders.map fun v =>
      .always v.name (.value (Term.verbatim v.expression).asJson)) =
        boundValues w s placeholders := by
  induction placeholders with
  | nil => rfl
  | cons v rest ih =>
    simp only [List.map_cons, evalMembers, Body.eval, inBody_asJson, Term.eval, ih]
    rfl

/-- The variable map of a request, in which the caller stands last where the owner counts. -/
def variableMap (w : World) (s : State) (placeholders : List SqlVariable)
    (active : Option String) (sub : Value) : Value :=
  .map (Entries.putAll [] (boundValues w s placeholders ++
    (active.map fun _ => (":owner", sub)).toList))

def guardScript (guard : Option String) : Script :=
  match nonEmpty guard with
  | some owner => guardRows owner
  | none => done

def ownerMembers (guard : Option String) : List Member :=
  match nonEmpty guard with
  | some _ => [.provided (.flagged needsOwnershipCheck) ":owner" Term.caller.asJson]
  | none => []

theorem guardScript_reaches {guard : Option String}
    (guarded : ∀ owner, guard = some owner → Text.IsWord owner) :
    ((guardScript guard).exec w s).Reaches fun t => s.AgreesOff ["ownerGuard"] t ∧
      GuardBound (if s.flagged needsOwnershipCheck then guard else none) guard.isSome t := by
  cases guard with
  | none => exact .now ⟨.refl _ s, by simp [GuardBound]⟩
  | some owner =>
    have word := guarded owner rfl
    have given : nonEmpty (some owner) = some owner := nonEmpty_eq_some_iff.mpr ⟨rfl, word.filled⟩
    have begun : s.AgreesOff ["ownerGuard"] (s.bind "ownerGuard" (.text "")) := .bind (by simp) _
    simp only [guardScript, given, guardRows, exec_append, exec_acts_cons, exec_acts_nil,
      Action.perform, Step.next_andThen, exec_when, eval_flagged, Term.eval,
      expand_plain (by decide : '$' ∉ "".toList), State.bind_flagged]
    split
    · have plain : '$' ∉ (" AND " ++ owner ++ " = :owner").toList := by
        simp [String.toList_append, word.plain]
      rw [expand_plain plain]
      refine .now ⟨begun.trans (.bind (by simp) _), ?_⟩
      simp [GuardBound, rowGuard]
    · exact .now ⟨begun, by simp [GuardBound, rowGuard]⟩

theorem ownerMembers_eval {guard : Option String}
    (told : w.context.identity = caller.identity config)
    (guarded : ∀ owner, guard = some owner → Text.IsWord owner) :
    evalMembers w s (ownerMembers guard) =
      ((if s.flagged needsOwnershipCheck then guard else none).map fun _ =>
        (":owner", subValue caller)).toList := by
  cases guard with
  | none => simp [ownerMembers, nonEmpty, evalMembers]
  | some owner =>
    have given : nonEmpty (some owner) = some owner :=
      nonEmpty_eq_some_iff.mpr ⟨rfl, (guarded owner rfl).filled⟩
    simp only [ownerMembers, given, evalMembers, eval_flagged, inBody_asJson, eval_caller told]
    split <;> simp

theorem statements_entry {version listed values : Value} {more : List (String × Value)}
    (other : ∀ e ∈ more, e.1 = "variableTypeHints") :
    (Entries.putAll [] (("version", version) :: ("statements", listed) ::
      ("variableMap", values) :: more)).get? "statements" = some listed := by
  refine Entries.get?_putAll [("version", version)] (fun e member => ?_) []
  rcases List.mem_cons.mp member with rfl | member
  · simp
  · simp [other e member]

theorem variables_entry {version listed values : Value} {more : List (String × Value)}
    (other : ∀ e ∈ more, e.1 = "variableTypeHints") :
    (Entries.putAll [] (("version", version) :: ("statements", listed) ::
      ("variableMap", values) :: more)).get? "variableMap" = some values := by
  refine Entries.get?_putAll [("version", version), ("statements", listed)]
    (fun e member => ?_) []
  simp [other e member]

theorem relationalWrites_eq {body values : Value} {texts : List String} {r : Record}
    (sent : body.field "statements" = .texts texts) (bound : body.field "variableMap" = values) :
    Store.relationalWrites body r = texts.any (Store.statementWrites values r) := by
  rw [Store.relationalWrites, sent, bound, Value.texts, Value.items, List.any_map]
  rfl

/-- The members of the body of a request with statements. -/
def sqlMembers (q : SqlStatements) : List Member :=
  [.always "statements" (.rows (q.statements.map .quoted)),
    .always "variableMap" (.object ((q.placeholders.map fun v =>
      .always v.name (.value (Term.verbatim v.expression).asJson)) ++
        ownerMembers q.ownerGuard))] ++
    if (typeHints q.placeholders).isEmpty then []
    else [.always "variableTypeHints" (.object (typeHints q.placeholders))]

/-- The body holds the statements with their references replaced, and the variables; behind
them stand at most the hints at types. -/
theorem sqlMembers_eval (config : Config) (q : SqlStatements) : ∃ version more,
    (∀ e ∈ more, e.1 = "variableTypeHints") ∧
      (versioned config (sqlMembers q)).eval w s = .map (Entries.putAll []
        (("version", version) ::
          ("statements", .list ((q.statements.map (w.expand s)).map Value.text)) ::
          ("variableMap", .map (Entries.putAll [] (boundValues w s q.placeholders ++
            evalMembers w s (ownerMembers q.ownerGuard)))) :: more)) := by
  have rows : (q.statements.map Term.quoted).map (Term.inBody w s) =
      (q.statements.map (w.expand s)).map Value.text := by
    simp only [List.map_map]
    rfl
  refine ⟨(Body.plain config.templateVersion).eval w s, evalMembers w s
    (if (typeHints q.placeholders).isEmpty then []
    else [.always "variableTypeHints" (.object (typeHints q.placeholders))]), ?_, ?_⟩
  · split <;> simp [evalMembers]
  · rw [versioned_eval, sqlMembers, List.cons_append, evalMembers, List.cons_append, evalMembers,
      List.nil_append, Body.eval, rows, Body.eval, evalMembers_append, boundValues_eval]

/-- What a request with statements sends, once its prelude ended in `u`. -/
theorem sql_body {q : SqlStatements} (unpaged : q.page = none)
    (told : w.context.identity = caller.identity config)
    (guarded : ∀ owner, q.ownerGuard = some owner → Text.IsWord owner)
    (begun : (acts (q.prelude.map fun a => .set a.name (.verbatim a.expression))).exec w s =
      .next u) :
    ((sql config q).exec w s).Reaches fun t => t.stash = u.stash ∧ t.args = u.args ∧
      ∃ v, u.AgreesOff ["ownerGuard"] v ∧
        GuardBound (if u.flagged needsOwnershipCheck then q.ownerGuard else none)
          q.ownerGuard.isSome v ∧
        t.output.field "statements" = .texts (q.statements.map (w.expand v)) ∧
        t.output.field "variableMap" = variableMap w v q.placeholders
          (if u.flagged needsOwnershipCheck then q.ownerGuard else none) (subValue caller) := by
  obtain ⟨v, set, same, bound⟩ := guardScript_reaches (w := w) (s := u) guarded
  obtain ⟨version, more, hints, body⟩ := sqlMembers_eval (w := w) (s := v) config q
  have plan : (sql config q).exec w s = ((guardScript q.ownerGuard).exec w u).andThen
      ((acts [.send (versioned config (sqlMembers q))]).exec w) := by
    simp only [sql, exec_append, begun, unpaged, Step.next_andThen, exec_done]
    rfl
  rw [plan, set, Step.next_andThen, exec_acts_cons, Action.perform, Step.next_andThen,
    exec_acts_nil]
  rw [ownerMembers_eval told guarded, same.flagged] at body
  rw [body]
  refine .now ⟨same.stash, same.args, v, same, bound, ?_, ?_⟩
  · rw [State.handOut, Value.field_map, statements_entry hints]
    rfl
  · rw [State.handOut, Value.field_map, variables_entry hints]
    rfl

/-- What a request with statements asks for, once its prelude ended in `u`. -/
theorem sql_reaches {q : SqlStatements} (unpaged : q.page = none)
    (told : w.context.identity = caller.identity config)
    (guarded : ∀ owner, q.ownerGuard = some owner → Text.IsWord owner)
    (begun : (acts (q.prelude.map fun a => .set a.name (.verbatim a.expression))).exec w s =
      .next u) :
    ((sql config q).exec w s).Reaches fun t => t.stash = u.stash ∧ t.args = u.args ∧
      ∃ v, u.AgreesOff ["ownerGuard"] v ∧
        GuardBound (if u.flagged needsOwnershipCheck then q.ownerGuard else none)
          q.ownerGuard.isSome v ∧
        t.output.field "variableMap" = variableMap w v q.placeholders
          (if u.flagged needsOwnershipCheck then q.ownerGuard else none) (subValue caller) ∧
        ∀ r, Store.relationalWrites t.output r = q.statements.any fun text =>
          Store.statementWrites (variableMap w v q.placeholders
            (if u.flagged needsOwnershipCheck then q.ownerGuard else none) (subValue caller)) r
            (w.expand v text) := by
  refine (sql_body unpaged told guarded begun).mono ?_
  rintro t ⟨stash, args, v, same, guard, sent, bound⟩
  refine ⟨stash, args, v, same, guard, bound, fun r => ?_⟩
  rw [relationalWrites_eq sent bound, List.any_map, Function.comp_def]

end Bodies

/-! ### Writes of the relational store -/

theorem placeholder_inj {column other : String} : placeholder column = placeholder other ↔
    column = other := by
  have spelled : ∀ c, (placeholder c).toList = ':' :: c.toList := by
    intro c
    rw [placeholder, String.toList_append]
    rfl
  rw [← String.toList_inj, spelled, spelled, List.cons.injEq, String.toList_inj]
  simp

section Rows

variable {w : World} {s u : State} {m : Model} {config : Config} {caller : Caller} {key : String}
  {gated : Bool} {active : Option String} {placeholders : List SqlVariable} {v sub : Value}

/-- The caller takes the place of a key that is named like the placeholder of the owner. -/
def keyBinding (key : String) (active : Option String) (sub v : Value) : Value :=
  if active.isSome && key = "owner" then sub else v

theorem variableMap_owner {owner : String} :
    (variableMap w s placeholders (some owner) sub).field ":owner" = sub := by
  have last : (Entries.putAll [] (boundValues w s placeholders ++ [(":owner", sub)])).get?
      ":owner" = some sub := Entries.get?_putAll _ (by simp) []
  simp [variableMap, last]

theorem variableMap_key {before after : List (String × Value)}
    (last : boundValues w s placeholders = before ++ (placeholder key, v) :: after)
    (absent : ∀ e ∈ after, e.1 ≠ placeholder key) :
    (variableMap w s placeholders active sub).field (placeholder key) =
      keyBinding key active sub v := by
  have kept := Entries.get?_putAll (v := v) before absent []
  have named : placeholder "owner" = ":owner" := rfl
  cases active with
  | none => simp [variableMap, keyBinding, last, kept]
  | some owner =>
    by_cases same : key = "owner"
    · subst same
      rw [named, variableMap_owner, keyBinding]
      simp
    · have apart : placeholder key ≠ ":owner" := by
        rw [← named]
        exact fun equal => same (placeholder_inj.mp equal)
      simp only [variableMap, Option.map_some, Option.toList_some, Entries.putAll_append, last,
        Value.field_map]
      rw [Entries.get?_putAll_of_absent (by simp [apart.symm]), ← Entries.putAll_append, kept]
      simp [keyBinding, same]

/-- The request changes the row whose key has the value that the key is bound to, if the row is
the caller's where that counts. -/
def ChangesRow (key : String) (guard : Option String) (caller : Caller) (v : Value)
    (s t : State) : Prop :=
  t.stash = s.stash ∧ t.args = s.args ∧ ∀ r, Store.relationalWrites t.output r =
    let active := if s.flagged needsOwnershipCheck then guard else none
    ((active.all fun owner => Store.columnIs r owner (subValue caller)) &&
      Store.columnIs r key (keyBinding key active (subValue caller) v))

theorem conditions_hold {r : Record} {before after : List (String × Value)}
    (last : boundValues w s placeholders = before ++ (placeholder key, v) :: after)
    (absent : ∀ e ∈ after, e.1 ≠ placeholder key) :
    ((conditionsOf key active).all fun c =>
      Store.columnIs r c.1 ((variableMap w s placeholders active sub).field c.2)) =
        ((active.all fun owner => Store.columnIs r owner sub) &&
          Store.columnIs r key (keyBinding key active sub v)) := by
  cases active with
  | none => simp [conditionsOf, variableMap_key last absent]
  | some owner => simp [conditionsOf, variableMap_owner, variableMap_key last absent]

theorem ownerGuard_word {owner : String} (named : ∀ owner, m.ownerField = some owner →
    Text.IsWord owner) (guard : m.ownerGuard gated = some owner) : Text.IsWord owner := by
  cases gated with
  | false => cases guard
  | true => exact named owner guard

theorem active_guard {guard : Option String} {asked : Prop} [Decidable asked] {owner : String}
    (active : (if asked then guard else none) = some owner) : guard = some owner := by
  split at active
  · exact active
  · cases active

theorem sqlDelete_reaches (told : w.context.identity = caller.identity config)
    (word : Text.IsWord config.identifierField)
    (named : ∀ owner, m.ownerField = some owner → Text.IsWord owner) :
    ((sql config (m.sqlDelete config gated)).exec w s).Reaches
      (ChangesRow config.identifierField (m.ownerGuard gated) caller
        ((s.args.field "input").field config.identifierField) s) := by
  have guarded : ∀ owner, m.ownerGuard gated = some owner → Text.IsWord owner :=
    fun owner => ownerGuard_word named
  refine (sql_reaches (q := m.sqlDelete config gated) (u := s) rfl told guarded rfl).mono ?_
  have guardIs : (m.sqlDelete config gated).ownerGuard = m.ownerGuard gated := rfl
  rintro t ⟨stash, args, v, same, bound, _, writes⟩
  rw [guardIs] at bound writes
  refine ⟨stash, args, fun r => ?_⟩
  have read : boundValues w v (m.sqlDelete config gated).placeholders = [] ++
      (placeholder config.identifierField,
        (s.args.field "input").field config.identifierField) :: [] := by
    rw [← same.args, ← read_input word]
    rfl
  have statements : (m.sqlDelete config gated).statements =
      [(SqlStatement.select (Naming.tableName m.name) (some config.identifierField)
          (m.ownerGuard gated).isSome .all).text,
        (SqlStatement.delete (Naming.tableName m.name) config.identifierField
          (m.ownerGuard gated).isSome).text] := rfl
  rw [writes, statements, List.any_cons, List.any_cons, List.any_nil, select_reads,
    delete_writes word bound fun owner active => guarded owner (active_guard active),
    conditions_hold read (by simp)]
  rw [Bool.false_or, Bool.or_false]

/-- What the key of an update is bound to: the time, if that goes to the same column. -/
def updateBinding (w : World) (config : Config) (s : State) : Value :=
  if config.updatedAtField = config.identifierField then
    w.library.written "$util.time.nowISO8601()"
  else (s.args.field "input").field config.identifierField

theorem read_inputArg : w.read s "$ctx.args.input" = s.args.field "input" := by
  have chars : "$ctx.args.input".toList = '$' :: "ctx.args.input".toList := rfl
  have path : Text.path "ctx.args.input".toList = ["ctx", "args", "input"] := by decide
  rw [World.read, chars]
  simp only [(by decide : "ctx.args.input".toList.contains '(' = false), path]
  simp [World.follow, World.lookup, World.contextValue, Value.object, Entries.get?]

theorem read_time : w.read s "$util.time.nowISO8601()" =
    w.library.written "$util.time.nowISO8601()" := read_called (by decide)

theorem read_now : w.read s "$now" = s.local? "now" := by
  have word : Text.IsWord "now" := Text.isWord_of_isIdentifier (by decide)
  exact read_variable word (by decide)

theorem updatePrelude_exec (w : World) (s : State) (m : Model) (config : Config) (gated : Bool) :
    ∃ u,
    ((acts ((m.sqlUpdate config gated).prelude.map fun a =>
      .set a.name (.verbatim a.expression))).exec w s) = .next u ∧
      s.AgreesOff ["input", "now"] u ∧ u.local? "input" = s.args.field "input" ∧
      (m.hasProperty config.updatedAtField = true →
        u.local? "now" = w.library.written "$util.time.nowISO8601()") := by
  have prelude : (m.sqlUpdate config gated).prelude =
      Model.inputAssignment :: (m.updateTimestamp config).map fun _ => Model.nowAssignment := rfl
  rw [prelude, Model.updateTimestamp]
  cases m.hasProperty config.updatedAtField with
  | true =>
    simp only [if_true, List.map_cons, List.map_nil, exec_acts_cons, exec_acts_nil, Action.perform,
      Step.next_andThen, Model.inputAssignment, Model.nowAssignment, Term.eval, read_inputArg,
      read_time]
    refine ⟨_, rfl, (State.AgreesOff.bind (by simp) _).trans (.bind (by simp) _), ?_, fun _ => ?_⟩
    · rw [State.local?_bind_of_ne (by decide), State.local?_bind_self]
    · rw [State.local?_bind_self]
  | false =>
    simp only [Bool.false_eq_true, if_false, List.map_nil, List.map_cons, exec_acts_cons,
      exec_acts_nil, Action.perform, Step.next_andThen, Model.inputAssignment, Term.eval,
      read_inputArg]
    exact ⟨_, rfl, .bind (by simp) _, State.local?_bind_self, by simp⟩

/-- The key is managed, so that no writable column shares its placeholder. -/
theorem writable_apart {v : State} :
    ∀ e ∈ boundValues w v ((m.writableProperties config).map Model.bindInput),
      e.1 ≠ placeholder config.identifierField := by
  simp only [boundValues, List.map_map, List.mem_map]
  rintro _ ⟨p, member, rfl⟩
  have unmanaged := (List.mem_filter.mp member).2
  refine fun same => ?_
  have named : p.name = config.identifierField := placeholder_inj.mp same
  simp [Model.isManaged, named] at unmanaged

theorem updateBinding_last {v : State} (word : Text.IsWord config.identifierField)
    (declared : m.hasProperty config.identifierField = true)
    (input : v.local? "input" = s.args.field "input")
    (time : m.hasProperty config.updatedAtField = true →
      v.local? "now" = w.library.written "$util.time.nowISO8601()") :
    ∃ before after, boundValues w v (m.updateVariables config) =
        before ++ (placeholder config.identifierField, updateBinding w config s) :: after ∧
      ∀ e ∈ after, e.1 ≠ placeholder config.identifierField := by
  have split : boundValues w v (m.updateVariables config) =
      (placeholder config.identifierField, (s.args.field "input").field config.identifierField) ::
        (boundValues w v ((m.writableProperties config).map Model.bindInput) ++
          boundValues w v ((m.updateTimestamp config).map Model.bindNow)) := by
    rw [← input, ← read_bound (w := w) word]
    simp [Model.updateVariables, boundValues, Model.bindColumn]
  by_cases same : config.updatedAtField = config.identifierField
  · have stamped := time (same ▸ declared)
    refine ⟨(placeholder config.identifierField,
        (s.args.field "input").field config.identifierField) ::
          boundValues w v ((m.writableProperties config).map Model.bindInput), [], ?_, by simp⟩
    rw [split, updateBinding, if_pos same, Model.updateTimestamp, same, if_pos declared]
    simp only [List.map_cons, List.map_nil, Model.bindNow, boundValues, read_now, stamped,
      List.cons_append]
  · refine ⟨[], boundValues w v ((m.writableProperties config).map Model.bindInput) ++
      boundValues w v ((m.updateTimestamp config).map Model.bindNow), ?_, ?_⟩
    · rw [split, updateBinding, if_neg same, List.nil_append]
    · intro e member
      rcases List.mem_append.mp member with member | member
      · exact writable_apart e member
      · unfold Model.updateTimestamp at member
        split at member
        · obtain rfl : e = (placeholder config.updatedAtField, w.read v "$now") := by
            simpa [boundValues, Model.bindNow] using member
          exact fun equal => same (placeholder_inj.mp equal)
        · cases member

theorem sqlUpdate_reaches (told : w.context.identity = caller.identity config)
    (word : Text.IsWord config.identifierField)
    (declared : m.hasProperty config.identifierField = true)
    (named : ∀ owner, m.ownerField = some owner → Text.IsWord owner) :
    ((sql config (m.sqlUpdate config gated)).exec w s).Reaches
      (ChangesRow config.identifierField (m.ownerGuard gated) caller
        (updateBinding w config s) s) := by
  have guarded : ∀ owner, m.ownerGuard gated = some owner → Text.IsWord owner :=
    fun owner => ownerGuard_word named
  obtain ⟨u, begun, kept, input, time⟩ := updatePrelude_exec w s m config gated
  refine (sql_reaches (q := m.sqlUpdate config gated) rfl told guarded begun).mono ?_
  have guardIs : (m.sqlUpdate config gated).ownerGuard = m.ownerGuard gated := rfl
  rintro t ⟨stash, args, v, same, bound, _, writes⟩
  rw [guardIs, kept.flagged] at bound writes
  refine ⟨stash.trans kept.stash, args.trans kept.args, fun r => ?_⟩
  obtain ⟨before, after, last, absent⟩ := updateBinding_last (w := w) (v := v) (s := s) word
    declared ((same.locals _ (by decide)).trans input)
    fun stamped => (same.locals _ (by decide)).trans (time stamped)
  have statements : (m.sqlUpdate config gated).statements =
      [(SqlStatement.update (Naming.tableName m.name) (m.updateAssignments config)
          config.identifierField (m.ownerGuard gated).isSome).text,
        (m.selectByKey config).text] := rfl
  rw [writes, statements, List.any_cons, List.any_cons, List.any_nil, Model.selectByKey,
    select_reads, update_writes word bound fun owner active => guarded owner (active_guard active)]
  have placeholders : (m.sqlUpdate config gated).placeholders = m.updateVariables config := rfl
  rw [placeholders, conditions_hold last absent, Bool.false_or, Bool.or_false]

end Rows

end ApiLoom.Template
