import ApiLoom.Proofs.GuardedWrite
import ApiLoom.Proofs.Links

/-!
# Rejected writes

An owner can change between the fetch of a record and the write.  The condition of the write
then keeps it from the record, and the answer of the store decides what the response shows.
-/

namespace ApiLoom

open Template Script

/-! ### Answers of stores -/

/-- What a store gives back. -/
structure Answer where
  result : Value
  error : Value
deriving Repr, Inhabited

namespace Store

def statementSelects (values : Value) (r : Record) (statement : String) : Bool :=
  let words := Text.words statement
  words.head?.getD "" = "SELECT" &&
    (equalities words.reverse).any fun conditions =>
      conditions.all fun c => columnIs r c.1 (values.field c.2)

/-- The rows that each of the statements returns, where the record is the only row. -/
def selections (body : Value) (r : Record) : Value :=
  .list ((body.field "statements").items.map fun statement =>
    .list (if statementSelects (body.field "variableMap") r (statement.text?.getD "") then [.map r]
      else []))

/-- How a store that holds the record answers a write that does not apply to it: the document
store with an error, a cluster with the rows that its statements return. -/
def Declines (r : Record) (request : Binding × Value) (answer : Answer) : Prop :=
  match request.1.kind with
  | .documentTable => answer.error.isTrue = true
  | .relationalCluster => answer = ⟨selections request.2 r, .null⟩
  | _ => True

theorem Declines.failed {r : Record} {request : Binding × Value} {answer : Answer}
    (declines : Declines r request answer) (kind : request.1.kind = .documentTable) :
    answer.error.isTrue = true := by
  simpa [Declines, kind] using declines

theorem Declines.selected {r : Record} {request : Binding × Value} {answer : Answer}
    (declines : Declines r request answer) (kind : request.1.kind = .relationalCluster) :
    answer = ⟨selections request.2 r, .null⟩ := by
  simpa [Declines, kind] using declines

end Store

namespace Template

theorem Step.Reaches.and {step : Step} {holds also : State → Prop} (first : step.Reaches holds)
    (second : step.Reaches also) : step.Reaches fun s => holds s ∧ also s := by
  obtain ⟨s, rfl, held⟩ := first
  obtain ⟨t, same, other⟩ := second
  obtain rfl := Step.next.inj same
  exact .now ⟨held, other⟩

/-! ### What statements select -/

section Statements

variable {w : World} {s : State} {key : String} {active : Option String} {guarded : Bool}
  {values : Value} {r : Record}

theorem select_selects {table : String} (word : Text.IsWord key)
    (bound : GuardBound active guarded s)
    (named : ∀ owner, active = some owner → Text.IsWord owner) :
    Store.statementSelects values r
        (w.expand s (SqlStatement.select table (some key) guarded .all).text) =
      (conditionsOf key active).all fun c => Store.columnIs r c.1 (values.field c.2) := by
  have spelled : (SqlStatement.select table (some key) guarded .all).text.toList =
      ("SELECT".toList ++ ' ' :: ("* FROM ".toList ++ table.toList)) ++
        (SqlStatement.matching key guarded).toList := by
    have text : (SqlStatement.select table (some key) guarded .all).text =
        "SELECT * FROM " ++ table ++ SqlStatement.matching key guarded ++ "" := rfl
    have lead : "SELECT * FROM ".toList = "SELECT".toList ++ ' ' :: "* FROM ".toList := rfl
    simp only [text, String.append_empty, String.toList_append, lead, List.append_assoc,
      List.cons_append]
  have head : (Text.words (w.expand s
      (SqlStatement.select table (some key) guarded .all).text)).head? = some "SELECT" :=
    head?_words (by rw [spelled, List.append_assoc, List.cons_append]) (by decide) (by decide)
  rw [Store.statementSelects, head, equalities_expand _ word bound named spelled]
  simp

theorem selects_of_verb (verb : String) {text : String} {rest : List Char}
    (begins : text.toList = verb.toList ++ ' ' :: rest) (plain : '$' ∉ verb.toList)
    (whole : ' ' ∉ verb.toList) (other : verb ≠ "SELECT") :
    Store.statementSelects values r (w.expand s text) = false := by
  simp [Store.statementSelects, head?_words begins plain whole, other]

theorem update_selects {table : String} {assignments : List SqlAssignment} :
    Store.statementSelects values r
      (w.expand s (SqlStatement.update table assignments key guarded).text) = false :=
  selects_of_verb "UPDATE"
    (by rw [update_toList, List.append_assoc, List.cons_append]) (by decide) (by decide)
    (by decide)

theorem delete_selects {table : String} :
    Store.statementSelects values r
      (w.expand s (SqlStatement.delete table key guarded).text) = false :=
  selects_of_verb "DELETE"
    (by rw [delete_toList, List.append_assoc, List.cons_append]) (by decide) (by decide)
    (by decide)

end Statements

section Rows

variable {w : World} {s : State} {m : Model} {config : Config} {caller : Caller} {gated : Bool}

/-- The row that a request finds by its key, or nothing. -/
def rowIf (found : Bool) (r : Record) : Value := .list (if found then [.map r] else [])

theorem rowIf_eq (found : Bool) (r : Record) :
    rowIf found r = .list (((if found then some r else none).toList).map Value.map) := by
  cases found <;> rfl

theorem selections_eq {body values : Value} {first second : String} {r : Record}
    (sent : body.field "statements" = .texts [first, second])
    (bound : body.field "variableMap" = values) :
    Store.selections body r = .list [rowIf (Store.statementSelects values r first) r,
      rowIf (Store.statementSelects values r second) r] := by
  rw [Store.selections, sent, bound]
  rfl

/-- An update changes the rows of its owner and then returns the row of the key, whoever owns
it. -/
theorem sqlUpdate_selects (told : w.context.identity = caller.identity config)
    (word : Text.IsWord config.identifierField)
    (declared : m.hasProperty config.identifierField = true)
    (named : ∀ owner, m.ownerField = some owner → Text.IsWord owner) :
    ((sql config (m.sqlUpdate config gated)).exec w s).Reaches fun t => ∀ r,
      Store.selections t.output r = .list [rowIf false r,
        rowIf (Store.columnIs r config.identifierField
          (keyBinding config.identifierField
            (if s.flagged needsOwnershipCheck then m.ownerGuard gated else none)
            (subValue caller) (updateBinding w config s))) r] := by
  have guarded : ∀ owner, m.ownerGuard gated = some owner → Text.IsWord owner :=
    fun owner => ownerGuard_word named
  obtain ⟨u, begun, kept, input, time⟩ := updatePrelude_exec w s m config gated
  refine (sql_body (q := m.sqlUpdate config gated) rfl told guarded begun).mono ?_
  have guardIs : (m.sqlUpdate config gated).ownerGuard = m.ownerGuard gated := rfl
  have placeholders : (m.sqlUpdate config gated).placeholders = m.updateVariables config := rfl
  rintro t ⟨_, _, v, same, _, sent, bound⟩ r
  have unguarded : GuardBound none false v := rfl
  rw [guardIs, placeholders, kept.flagged] at bound
  obtain ⟨before, after, last, absent⟩ := updateBinding_last (w := w) (v := v) (s := s) word
    declared ((same.locals _ (by decide)).trans input)
    fun stamped => (same.locals _ (by decide)).trans (time stamped)
  rw [selections_eq sent bound, update_selects, Model.selectByKey,
    select_selects word unguarded (by simp)]
  simp [conditionsOf, variableMap_key last absent]

/-- A delete first returns the row of the key, if it is its owner's where that counts. -/
theorem sqlDelete_selects (told : w.context.identity = caller.identity config)
    (word : Text.IsWord config.identifierField)
    (named : ∀ owner, m.ownerField = some owner → Text.IsWord owner) :
    ((sql config (m.sqlDelete config gated)).exec w s).Reaches fun t => ∀ r,
      let active := if s.flagged needsOwnershipCheck then m.ownerGuard gated else none
      Store.selections t.output r = .list [
        rowIf ((active.all fun owner => Store.columnIs r owner (subValue caller)) &&
          Store.columnIs r config.identifierField (keyBinding config.identifierField active
            (subValue caller) ((s.args.field "input").field config.identifierField))) r,
        rowIf false r] := by
  have guarded : ∀ owner, m.ownerGuard gated = some owner → Text.IsWord owner :=
    fun owner => ownerGuard_word named
  refine (sql_body (q := m.sqlDelete config gated) (u := s) rfl told guarded rfl).mono ?_
  have guardIs : (m.sqlDelete config gated).ownerGuard = m.ownerGuard gated := rfl
  rintro t ⟨_, _, v, same, guard, sent, bound⟩ r
  rw [guardIs] at guard bound
  have read : boundValues w v (m.sqlDelete config gated).placeholders = [] ++
      (placeholder config.identifierField,
        (s.args.field "input").field config.identifierField) :: [] := by
    rw [← same.args, ← read_input word]
    rfl
  rw [selections_eq sent bound, delete_selects,
    select_selects word guard fun owner active => guarded owner (active_guard active),
    conditions_hold read (by simp)]

end Rows

/-! ### What responses show -/

section Responses

variable {w : World} {s : State} {config : Config} {fields : List String} {r : Option Record}

theorem plainRecord_hands {source : RecordSource}
    (plain : ∀ name ∈ fields, '$' ∉ (Naming.localTimeField name).toList)
    (finds : ((bindRecord source).exec w s).Reaches (Found r s)) :
    ((singleRecord config ⟨source, none, none, fields⟩).exec w s).Reaches fun t =>
      t.output = ((r.map (w.library.shown config w.context.headers fields)).map
        Value.map).getD .null := by
  have parts : singleRecord config ⟨source, none, none, fields⟩ =
      bindRecord source ++ showRecord config fields := by
    simp only [singleRecord, verifyIfAny, append_assoc, done_append]
    rfl
  rw [parts, exec_append]
  refine finds.andThen fun t found => ?_
  cases r with
  | none =>
    have hidden : (Term.visible.eval w t).isTrue = false := by
      rw [Term.visible, eval_var (by decide), found.visible]
      rfl
    exact ((showRecord_shows fields).hides w t hidden).mono fun u reached => reached.1
  | some stored => exact showRecord_reaches plain found.visible (found.record stored rfl)

theorem ofResponse_failed (config : Config) (plan : ResponsePlan) (s : State)
    (failed : w.context.error.isTrue = true) :
    ∃ message kind, (ofResponse config plan).exec w s = .failed message kind := by
  have wrong : (Cond.holds (Term.context.member "error")).eval w s = true := by
    simp [Cond.eval, Term.eval, Term.context, World.lookup, World.contextValue, Value.object,
      Entries.get?, failed]
  simp only [ofResponse, exec_append, exec_acts_cons, exec_acts_nil, Action.perform,
    Step.next_andThen, errorGuard, exec_when, wrong, if_true, Step.failed_andThen]
  exact ⟨_, _, rfl⟩

end Responses

end Template

/-! ### Runs on a store -/

namespace Host

def answeredWorld (host : Host) (p : Progress) (answer : Answer) : World :=
  { host.world p answer.result with
    context := { (host.world p answer.result).context with error := answer.error } }

def respondTo (host : Host) (p : Progress) (answer : Answer) (plan : ResponsePlan) :
    Option Progress :=
  Progress.ofStep? ((ofResponse host.config plan).exec (host.answeredWorld p answer) p.state)

/-- A stage, whose main request is answered by the store. -/
def runStageOn (host : Host) (store : Binding × Value → Answer) (p : Progress) (s : Stage) :
    Option Progress :=
  match host.ask p s.exchange.request with
  | .aborted => none
  | .returned q => some q
  | .sent body q =>
    let answer := if s.kind = .main then store (s.binding, body) else ⟨host.reply s.kind, .null⟩
    host.respondTo q answer s.exchange.response

def runStagesOn (host : Host) (store : Binding × Value → Answer) (p : Progress) :
    List Stage → Option Progress
  | [] => some p
  | s :: rest => (host.runStageOn store p s).bind fun q => host.runStagesOn store q rest

/-- What a resolver hands out on a store that may fail, unless the run is aborted. -/
def response (host : Host) (store : Binding × Value → Answer) (r : RootResolver) : Option Value :=
  match r.execution with
  | .unit binding =>
    (host.runStageOn store host.start ⟨r.fieldName, .main, binding, r.exchange⟩).map (·.previous)
  | .pipeline stages =>
    match host.ask host.start r.exchange.request with
    | .sent body p =>
      let later := host.runStagesOn store { p with previous := body.field "payload" } stages
      (later.bind fun q => host.respond q q.previous r.exchange.response).map (·.previous)
    | .returned p => some p.previous
    | .aborted => none

section Runs

variable {host : Host} {store : Binding × Value → Answer} {p : Progress}

theorem respondTo_result (v : Value) (plan : ResponsePlan) :
    host.respondTo p ⟨v, .null⟩ plan = host.respond p v plan := rfl

theorem respondTo_failed {answer : Answer} (plan : ResponsePlan)
    (failed : answer.error.isTrue = true) : host.respondTo p answer plan = none := by
  obtain ⟨message, kind, run⟩ := ofResponse_failed host.config plan p.state
    (w := host.answeredWorld p answer) failed
  rw [respondTo, run]
  rfl

/-- Where the answer to a stage does not depend on its request, a stage runs as before. -/
theorem runStageOn_eq {s : Stage}
    (answers : s.kind = .main → ∀ request, store request = ⟨host.reply .main, .null⟩) :
    host.runStageOn store p s = (host.runStage p s).progress := by
  have answered : ∀ body, (if s.kind = .main then store (s.binding, body)
      else ⟨host.reply s.kind, .null⟩) = (⟨host.reply s.kind, .null⟩ : Answer) := by
    intro body
    split
    · next main => rw [answers main, main]
    · rfl
  rw [runStageOn, runStage]
  cases host.ask p s.exchange.request with
  | aborted => rfl
  | returned q => rfl
  | sent body q => simp only [answered, respondTo_result]

theorem runStagesOn_eq {stages : List Stage} (answers : ∀ s ∈ stages, s.kind = .main →
      ∀ request, store request = ⟨host.reply .main, .null⟩) :
    host.runStagesOn store p stages = (host.runStages p stages).progress := by
  induction stages generalizing p with
  | nil => rfl
  | cons s rest ih =>
    rw [runStagesOn, runStages, Trace.progress_andThen,
      runStageOn_eq (answers s List.mem_cons_self)]
    congr 1
    funext q
    exact ih fun t later => answers t (List.mem_cons_of_mem _ later)

theorem runStagesOn_append (first rest : List Stage) :
    host.runStagesOn store p (first ++ rest) =
      (host.runStagesOn store p first).bind fun q => host.runStagesOn store q rest := by
  induction first generalizing p with
  | nil => rfl
  | cons s later ih =>
    rw [List.cons_append, runStagesOn, runStagesOn, Option.bind_assoc]
    congr 1
    funext q
    exact ih

theorem runStagesOn_single (s : Stage) :
    host.runStagesOn store p [s] = host.runStageOn store p s := by
  rw [runStagesOn]
  exact Option.bind_fun_some _

end Runs

/-! ### Writes that do not apply -/

section Rejections

variable {host : Host} {store : Binding × Value → Answer} {p : Progress} {m : Model}
  {cluster : Option Cluster} {field : RootField} {binding : Binding} {owner : String} {r : Record}

/-- Behind the gate a request comes to its operation; before it the store is not asked. -/
theorem ask_gated {plan : RequestPlan} {holds : State → Prop} (unasked : plan.auth = none)
    (gate : plan.gate = some ownershipConfirmed)
    (performed : ((perform host.config plan.operation).exec (host.world p .null)
      p.state).Reaches holds) :
    if p.state.flagged ownershipConfirmed then
      ∃ t, holds t ∧ host.ask p plan = .sent t.output { p with stash := t.stash, args := t.args }
    else host.ask p plan = .returned ⟨p.stash, p.args, .null⟩ := by
  have run : (ofRequest host.config plan).exec (host.world p .null) p.state =
      if p.state.flagged ownershipConfirmed then
        (perform host.config plan.operation).exec (host.world p .null) p.state
      else .stopped p.state := ofRequest_gated unasked gate (by decide)
  obtain ⟨t, reached, held⟩ := performed
  split
  · next confirmed =>
    rw [if_pos confirmed, reached] at run
    exact ⟨t, held, by rw [ask, run]⟩
  · next unconfirmed =>
    rw [if_neg unconfirmed] at run
    rw [ask, run]
    rfl

theorem respond_plain (host : Host) {plan : ResponsePlan} {source : RecordSource}
    {fields : List String} {v : Value} {found : Option Record}
    (shape : plan.shape = .single ⟨source, none, none, fields⟩)
    (plain : ∀ name ∈ fields, '$' ∉ (Naming.localTimeField name).toList)
    (finds : ((bindRecord source).exec (host.world p v) p.state).Reaches (Found found p.state)) :
    (host.respond p v plan).map (·.previous) =
      some (((found.map (host.library.shown host.config host.call.headers fields)).map
        Value.map).getD .null) := by
  obtain ⟨t, run, output⟩ := plainRecord_hands plain finds
  rw [respond, ofResponse_exec rfl, shape, handOut, run]
  exact congrArg some output

theorem mainStage_shape (binding : Binding) (relational : m.engine = .relational)
    (changes : field = .update ∨ field = .delete) :
    (m.mainStage host.config field binding).exchange.response.shape =
      .single ⟨.sqlRow (if field = .update then 1 else 0 : Nat), none, none,
        m.localTimeFields host.config⟩ := by
  have shape : (m.mainStage host.config field binding).exchange.response.shape =
      (m.mainOperation host.config field (m.isGated field)).2 := rfl
  rw [shape, Model.mainOperation, relational]
  rcases changes with rfl | rfl <;> exact single_withLocalTimes _ none none _

/-- What a caller asks for who is not the owner changes nothing; an update returns the row of its
key all the same. -/
theorem declined_reaches {w : World} {s : State} (told : w.context.identity =
      host.call.caller.identity host.config)
    (writes : m.Writes host.config cluster field binding)
    (guarded : m.guardedOwner field.operation = some owner)
    (provisional : s.flagged needsOwnershipCheck = true)
    (identified : host.call.caller.isIdentified = true)
    (keyed : r.get? host.config.identifierField = some (inputKey host.config s.args))
    (present : inputKey host.config s.args ≠ .null)
    (other : host.call.caller.owns owner r = false) :
    ((perform host.config (m.mainOperation host.config field (m.isGated field)).1).exec w
      s).Reaches fun t => Store.changes (binding, t.output) (some r) = false ∧
        (m.engine = .relational → ∃ lists, Store.selections t.output r = .list lists ∧
          lists[if field = .update then 1 else 0]? = some (rowIf (field = .update ∧
            m.writeKey host.config field (some owner) (subValue host.call.caller)
              (timeOfUpdate w.library) (inputKey host.config s.args) =
                inputKey host.config s.args) r)) := by
  have active : activeGuard m (m.isGated field) s = some owner := by
    rw [activeGuard, if_pos provisional, writes.ownerGuard_eq guarded]
  obtain ⟨word, named, _⟩ := writes.words (m.isGated field)
  have unchanged : ((perform host.config
      (m.mainOperation host.config field (m.isGated field)).1).exec w s).Reaches
        fun t => Store.changes (binding, t.output) (some r) = false := by
    refine (write_reaches _ told writes fun _ => identified).mono fun t changes => ?_
    rw [changes r keyed present, active, Option.all_some, other, Bool.false_and]
  by_cases relational : m.engine = .relational
  · refine unchanged.and ?_
    rcases writes.changes with rfl | rfl
    · rw [Model.mainOperation, relational]
      refine (sqlUpdate_selects told word writes.declared named).mono fun t selects _ => ?_
      refine ⟨_, selects r, ?_⟩
      rw [columnIs_key_eq keyed present, if_pos provisional, writes.ownerGuard_eq guarded]
      simp only [Model.writeKey, relational, updateBinding, if_true, true_and]
      rfl
    · rw [Model.mainOperation, relational]
      refine (sqlDelete_selects told word named).mono fun t selects _ => ?_
      refine ⟨_, selects r, ?_⟩
      rw [if_pos provisional, writes.ownerGuard_eq guarded, Option.all_some,
        columnIs_owner_eq identified, other, Bool.false_and]
      simp
  · exact unchanged.mono fun t same => ⟨same, fun engine => absurd engine relational⟩

/-- What the write of a caller who is not the owner hands out: a document write fails, an update
of a row shows it all the same, and a delete hands out null. -/
def declined (host : Host) (m : Model) (field : RootField) (owner : String) (r : Record) :
    Option Value :=
  if m.engine = .relational then
    some (if field = .update ∧ m.writeKey host.config field (some owner)
        (subValue host.call.caller) (timeOfUpdate host.library) host.key = host.key then
      .map (host.library.shown host.config host.call.headers (m.localTimeFields host.config) r)
    else .null)
  else none

theorem shownIf (shows : Prop) [Decidable shows] (shown : Record → Record) (r : Record) :
    (((if shows then some r else none).map shown).map Value.map).getD .null =
      if shows then .map (shown r) else .null := by
  split <;> rfl

theorem mainStage_declined (writes : m.Writes host.config cluster field binding)
    (guarded : m.guardedOwner field.operation = some owner)
    (provisional : p.state.flagged needsOwnershipCheck = true)
    (identified : host.call.caller.isIdentified = true)
    (args : p.args = host.call.args)
    (keyed : r.get? host.config.identifierField = some host.key) (present : host.key ≠ .null)
    (other : host.call.caller.owns owner r = false)
    (declines : ∀ request, Store.changes request (some r) = false →
      Store.Declines r request (store request)) :
    (host.runStageOn store p (m.mainStage host.config field binding)).map (·.previous) =
      if p.state.flagged ownershipConfirmed then host.declined m field owner r else some .null := by
  have key : inputKey host.config p.state.args = host.key := congrArg (inputKey host.config) args
  have gated : m.isGated field = true := by rw [writes.isGated_eq, guarded, Option.isSome_some]
  have gate : (m.mainStage host.config field binding).exchange.request.gate =
      some ownershipConfirmed := by simp [Model.mainStage, Model.mainExchange, gated]
  have asked := ask_gated rfl gate (declined_reaches (host.told p .null) writes guarded
    provisional identified (by rwa [key]) (by rwa [key]) other)
  rw [key] at asked
  cases confirmed : p.state.flagged ownershipConfirmed with
  | false =>
    rw [confirmed, if_neg (by decide)] at asked
    rw [runStageOn, asked]
    rfl
  | true =>
    rw [confirmed, if_pos rfl] at asked
    obtain ⟨t, ⟨unchanged, selects⟩, asked⟩ := asked
    have answered := declines _ unchanged
    obtain ⟨ofDocument, ofRelational⟩ := Binding.forModel_kind writes.bound
    have bound : (m.mainStage host.config field binding).binding = binding := rfl
    have main : (m.mainStage host.config field binding).kind = .main := rfl
    rw [runStageOn, asked, if_pos rfl]
    dsimp only
    rw [if_pos main, bound]
    have stored := writes.stored
    cases engine : m.engine with
    | document =>
      rw [respondTo_failed _ (answered.failed (ofDocument engine)), declined, engine,
        if_neg (by decide)]
      rfl
    | relational =>
      obtain ⟨lists, returned, there⟩ := selects engine
      rw [rowIf_eq] at there
      have shows := respond_plain host (p := ⟨t.stash, t.args, p.previous⟩) (v := .list lists)
        (mainStage_shape binding engine writes.changes)
        (localTimes_plain writes.decoded host.config) (bindRowsAt_reaches _ rfl there)
      rw [answered.selected (ofRelational engine), respondTo_result, declined, if_pos engine]
      dsimp only
      rw [returned, shows, Option.head?_toList]
      simp only [decide_eq_true_eq]
      exact congrArg some (shownIf _ _ r)
    | http => simp [engine, EngineKind.isStored] at stored
    | queued => simp [engine, EngineKind.isStored] at stored

/-- A stage off the main one runs as before. -/
theorem runStagesOn_aside {stages : List Stage} (aside : ∀ s ∈ stages, s.kind ≠ .main) :
    host.runStagesOn store p stages = (host.runStages p stages).progress :=
  runStagesOn_eq fun s member main => absurd main (aside s member)

theorem hookStage_aside {phase : HookPhase} : ∀ s ∈ m.hookStage field phase, s.kind ≠ .main := by
  intro s member
  obtain ⟨function, _, _, rfl⟩ := Model.mem_hookStage member
  cases phase <;> simp [functionStage, HookPhase.stageKind]

/-- The hook after an operation hands on what the operation handed out. -/
theorem afterHook_previous (host : Host) (p : Progress) (m : Model) (field : RootField) :
    (host.runStages p (m.hookStage field .after)).progress.map (·.previous) = some p.previous := by
  unfold Model.hookStage
  split
  · next function named =>
    obtain ⟨body, q, run, _, kept, _⟩ := functionStage_run host p (Eq.refl
      (functionStage m.name (Naming.rootField m.name field) function field.operation .after))
    rw [runStages_single, run]
    exact congrArg some (kept rfl)
  · rfl

theorem respond_passThrough {plan : ResponsePlan} (v : Value) (shape : plan.shape = .passThrough) :
    host.respond p v plan = some ⟨p.stash, p.args, v⟩ := by
  rw [respond, ofResponse_exec rfl, shape, handOut, exec_acts_cons, Action.perform, eval_result,
    Step.next_andThen, exec_acts_nil]
  rfl

/-- Between the hooks, the fetch and the write decide what is handed out. -/
theorem response_pipeline {fetch : List Stage} {t : State}
    (store : Binding × Value → Answer) (aside : ∀ s ∈ fetch, s.kind ≠ .main)
    (begun : host.Begins host.start
      (m.pipelineResolver host.config field binding fetch).exchange.request t) :
    ∃ q : Progress, q.args = t.args ∧
      (∀ flag ∈ writeFlags, q.state.flagged flag = t.flagged flag) ∧
      host.response store (m.pipelineResolver host.config field binding fetch) =
        ((host.runStages q fetch).progress.bind fun u =>
          host.runStageOn store u (m.mainStage host.config field binding)).map (·.previous) := by
  obtain ⟨body, sent⟩ : ∃ body, host.ask host.start
      (m.pipelineExchange field (m.authCheck field.operation field.scope)).request =
        .sent body ⟨t.stash, t.args, .null⟩ := by
    simp only [Begins, Model.pipelineResolver] at begun
    rw [ask, begun]
    exact ⟨_, rfl⟩
  let p : Progress := ⟨t.stash, t.args, body.field "payload"⟩
  obtain ⟨_, q, reached, kept⟩ := hookStage_run host p m field .before
  refine ⟨q, kept.args, kept.flags, ?_⟩
  have after : ∀ u, (host.runStagesOn store u (m.hookStage field .after)).map (·.previous) =
      some u.previous := by
    intro u
    rw [runStagesOn_aside hookStage_aside]
    exact afterHook_previous host u m field
  have passes : ∀ u : Progress, host.respond u u.previous
      (m.pipelineExchange field (m.authCheck field.operation field.scope)).response =
        some ⟨u.stash, u.args, u.previous⟩ := fun u => respond_passThrough _ rfl
  simp only [response, Model.pipelineResolver, sent]
  rw [runStagesOn_append, runStagesOn_append, runStagesOn_append,
    runStagesOn_aside hookStage_aside, reached, Option.bind_some, runStagesOn_aside aside]
  simp only [runStagesOn_single, passes]
  cases ((host.runStages q fetch).progress.bind fun u =>
    host.runStageOn store u (m.mainStage host.config field binding)) with
  | none => rfl
  | some u =>
    have last := after u
    cases run : host.runStagesOn store u (m.hookStage field .after) with
    | none =>
      rw [run] at last
      cases last
    | some v =>
      rw [run] at last
      simpa [run] using last

/-- A caller who is not the owner sees what the write hands out that does not apply, if the
record that was fetched first was the caller's. -/
theorem declined_response {resolver : RootResolver} {seen : Option Record}
    (writes : m.Writes host.config cluster field binding)
    (resolved : m.resolver host.config cluster field = .ok resolver)
    (guarded : m.guardedOwner field.operation = some owner)
    (ungranted : ¬ m.GrantsAny field.operation host.call.caller)
    (returned : host.reply .preFetch = m.engine.fetched seen)
    (keyed : r.get? host.config.identifierField = some host.key) (present : host.key ≠ .null)
    (other : host.call.caller.owns owner r = false)
    (declines : ∀ request, Store.changes request (some r) = false →
      Store.Declines r request (store request)) :
    host.response store resolver =
      if host.call.caller.isIdentified && seen.all fun before => host.call.caller.owns owner before
      then if seen.isSome then host.declined m field owner r else some .null
      else none := by
  have operation := writes.operation_stored
  obtain ⟨_, provisionally⟩ := Model.authCheck_flagsFor m field.scope host.call.caller operation
  have admission := provisionally ungranted
  have gated : m.isGated field = true := by rw [writes.isGated_eq, guarded, Option.isSome_some]
  obtain ⟨also, bound, _, ⟨unit, _⟩ | ⟨_, fetch, fetched, rfl⟩⟩ := Model.resolver_ok resolved
  · rw [Model.isGated_of_isUnit unit] at gated
    cases gated
  obtain rfl := Except.ok.inj (writes.bound.symm.trans bound)
  have asks := ask_first host operation resolved
  rw [admission, guarded] at asks
  cases identified : host.call.caller.isIdentified with
  | false =>
    rw [identified] at asks
    simp only [response, Model.pipelineResolver] at asks ⊢
    rw [asks]
    rfl
  | true =>
    rw [identified] at asks
    obtain ⟨t, flagged, args, begun⟩ := asks
    have provisional : t.flagged needsOwnershipCheck = true := by
      rw [flagged]
      rcases writes.changes with rfl | rfl <;> rfl
    have unconfirmed : t.flagged ownershipConfirmed = false := by
      rw [flagged]
      rcases writes.changes with rfl | rfl <;> rfl
    have aside : ∀ s ∈ fetch, s.kind ≠ .main := by
      obtain ⟨_, _, _, _, rfl, _, kind, _⟩ := Model.preFetchStage_gated gated fetched
      simp [kind]
    obtain ⟨q, kept, flags, response⟩ := response_pipeline store aside begun
    have needed : q.state.flagged needsOwnershipCheck = true := by
      rw [flags _ (by decide), provisional]
    obtain ⟨_, confirmed⟩ := fetchStage_run writes gated guarded fetched returned q none
    have confirmed := confirmed fun _ => identified
    rw [response]
    cases owned : seen.all fun before => host.call.caller.owns owner before with
    | false =>
      have foreign : mismatched host.call.caller owner seen q.state = true := by
        cases seen <;> simp_all [mismatched]
      rw [if_pos foreign] at confirmed
      rw [confirmed]
      rfl
    | true =>
      have own : mismatched host.call.caller owner seen q.state = false := by
        cases seen <;> simp_all [mismatched]
      rw [own, if_neg (by decide)] at confirmed
      obtain ⟨u, reached, given, still, set⟩ := confirmed
      rw [reached, Option.bind_some, mainStage_declined writes guarded (still.trans needed)
        identified (given.trans (kept.trans args)) keyed present other declines, set,
        flags _ (by decide), unconfirmed, Bool.or_false]
      rfl

end Rejections

end Host

/-- A write that no longer applies to the stored record shows nothing of it, except for the update
of a row: its second statement is not guarded, and returns the row of the new owner to a caller
who owned it when it was fetched. -/
theorem rejected_update_shows {host : Host} {models : List Model} {m : Model} {c : CompiledModel}
    {field : RootField} {owner : String} {seen : Option Record} {now : Record}
    {store : Binding × Value → Answer} (decoded : m.IsDecoded)
    (declared : m.hasProperty host.config.identifierField = true)
    (stored : m.engine.isStored = true) (compiled : m.compile host.config models = .ok c)
    (changes : field = .update ∨ field = .delete)
    (guarded : m.guardedOwner field.operation = some owner)
    (ungranted : ¬ m.GrantsAny field.operation host.call.caller)
    (returned : host.reply .preFetch = m.engine.fetched seen)
    (keyed : now.get? host.config.identifierField = some host.key) (present : host.key ≠ .null)
    (other : host.call.caller.owns owner now = false)
    (declines : ∀ request, Store.changes request (some now) = false →
      Store.Declines now request (store request)) :
    ∃ resolver, c.resolver field = .ok resolver ∧
      let shown := Value.map (host.library.shown host.config host.call.headers
        (m.localTimeFields host.config) now)
      (host.response store resolver = some shown ↔
        m.engine = .relational ∧ field = .update ∧ host.call.caller.isIdentified = true ∧
          (∃ before, seen = some before ∧ host.call.caller.owns owner before = true) ∧
            host.KeyStands m field) ∧
      (host.response store resolver = none ∨ host.response store resolver = some .null ∨
        host.response store resolver = some shown) := by
  obtain ⟨resolver, found, resolved⟩ := Model.compile_resolver compiled field
  obtain ⟨binding, bound, _⟩ := Model.resolver_ok resolved
  have writes : m.Writes host.config (sharedCluster models host.config) field binding :=
    ⟨decoded, declared, stored, bound, changes⟩
  refine ⟨resolver, found, ?_⟩
  rw [Host.declined_response writes resolved guarded ungranted returned keyed present other
    declines, Host.keyStands_of_not_grantsAny owner ungranted, Host.declined]
  cases host.call.caller.isIdentified with
  | false => simp
  | true =>
    cases seen with
    | none => simp
    | some before =>
      by_cases owned : host.call.caller.owns owner before = true
      · by_cases relational : m.engine = .relational
        · rcases changes with rfl | rfl
          · by_cases stands : m.writeKey host.config .update (some owner)
                (subValue host.call.caller) (timeOfUpdate host.library) host.key = host.key
            · simp [owned, relational, stands]
            · simp [owned, relational, stands]
          · simp [owned, relational]
        · simp [owned, relational]
      · simp [owned]

/-- A note that only its author may change. -/
def keptNote : Value := .object [
  ("name", .text "Note"),
  ("properties", .object [
    ("id", .object [("type", .text "ID")]),
    ("author", .object [("type", .text "String"), ("isOwner", .bool true)]),
    ("text", .object [("type", .text "String")])]),
  ("dataSource", .object [("type", .text "database"), ("engine", .text "sql"),
    ("cluster", .object [("name", .text "main"), ("secretRef", .text "secret"),
      ("database", .text "notes")])]),
  ("accessControl", .object [("rules", .list [
    .object [("allow", .text "update"), ("owner", .bool true)]])])]

/-- The note after it went over to another author. -/
def noteOfBob : Record :=
  [(.text "id", .text "n1"), (.text "author", .text "bob"), (.text "text", .text "for bob")]

def annUpdates : Host where
  config := .default
  library := ⟨fun _ _ _ => .null, .text, fun _ => ""⟩
  call := ⟨⟨some "ann", none⟩, .object [("input", .object [("id", .text "n1")])], .null, .null⟩
  reply
    | .preFetch => EngineKind.relational.fetched (some annsNote)
    | _ => .null

def bobsCluster (request : Binding × Value) : Answer :=
  if request.1.kind = .documentTable then ⟨.null, .text "The conditional request failed"⟩
  else ⟨Store.selections request.2 noteOfBob, .null⟩

theorem rejected_update_shows_keptNote :
    ∃ m c resolver, Model.decode keptNote = .ok m ∧ m.compile .default [m] = .ok c ∧
      c.resolver .update = .ok resolver ∧
      annUpdates.response bobsCluster resolver = some (.map noteOfBob) := by
  obtain ⟨m, c, read, compiled, declared, relational, guarded, controlled, shown⟩ :
      ∃ m c, Model.decode keptNote = .ok m ∧ m.compile .default [m] = .ok c ∧
        m.hasProperty "id" = true ∧ m.engine = .relational ∧
        m.guardedOwner .update = some "author" ∧
        m.accessControl = some ⟨.deny, [⟨.update, [], true⟩]⟩ ∧
        annUpdates.library.shown .default .null (m.localTimeFields .default) noteOfBob =
          noteOfBob :=
    ⟨_, _, rfl, rfl, rfl, rfl, rfl, rfl, rfl⟩
  have generated : m.compile annUpdates.config [m] = .ok c := compiled
  have returned : annUpdates.reply .preFetch = m.engine.fetched (some annsNote) := by
    rw [relational]
    rfl
  have ungranted : ¬ m.GrantsAny .update annUpdates.call.caller := by
    rw [Model.grantsAny_iff, controlled]
    decide
  have declines : ∀ request, Store.changes request (some noteOfBob) = false →
      Store.Declines noteOfBob request (bobsCluster request) := by
    intro request _
    cases kind : request.1.kind <;> simp [Store.Declines, bobsCluster, kind, Value.isTrue]
  obtain ⟨resolver, found, shows, _⟩ := rejected_update_shows ⟨keptNote, read⟩ declared
    (by rw [relational]; rfl) generated (.inl rfl) guarded ungranted returned
    (rfl : Entries.get? noteOfBob "id" = some annUpdates.key) (by decide) (by decide) declines
  have stands : annUpdates.KeyStands m .update := fun _ =>
    ⟨fun clash => absurd clash (by decide), fun _ same => absurd same (by decide)⟩
  refine ⟨m, c, resolver, read, compiled, found, ?_⟩
  have disclosed := shows.mpr ⟨relational, rfl, by decide, ⟨annsNote, rfl, by decide⟩, stands⟩
  exact disclosed.trans (congrArg (fun r => some (Value.map r)) shown)

end ApiLoom
