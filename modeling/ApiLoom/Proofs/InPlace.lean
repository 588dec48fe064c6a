import ApiLoom.Proofs.Safeguards

/-!
# Changes in place

A loop runs over the values of a list themselves: what its body puts into one of them is
in the list afterwards.  A script whose loops leave their values alone runs as if each
turn had a copy; only the local times of a page make a difference.
-/

namespace ApiLoom

open Template

namespace Template

open Script

/-! ### Loops over the values themselves -/

/-- Puts a value of a list that was changed in place back into the list. -/
def State.reflect (s : State) (items : Term) (i : Nat) (before after : Value) : State :=
  if after = before then s
  else
    match items with
    | .var name => s.bind name (.list ((s.local? name).items.set i after))
    | _ => s

/-- A loop whose body works on the values of the list, which is at the `i`-th of them. -/
def loopInPlace (items : Term) (name : String) (body : State → Step) :
    Nat → List Value → State → Step
  | _, [], s => .next s
  | i, v :: rest, s =>
    match body (s.bind name v) with
    | .next t => loopInPlace items name body (i + 1) rest (t.reflect items i v (t.local? name))
    | .left t => .next (t.reflect items i v (t.local? name))
    | other => other

namespace Script

def execInPlace (w : World) : Script → State → Step
  | done, s => .next s
  | act a rest, s => (a.perform w s).andThen (rest.execInPlace w)
  | choose c yes no rest, s =>
    (if c.eval w s then yes.execInPlace w s else no.execInPlace w s).andThen (rest.execInPlace w)
  | chooseOr c yes d no rest, s =>
    (if c.eval w s then yes.execInPlace w s
      else if d.eval w s then no.execInPlace w s else .next s).andThen (rest.execInPlace w)
  | each name items body rest, s =>
    (loopInPlace items name (body.execInPlace w) 0 (items.eval w s).items s).andThen
      (rest.execInPlace w)

variable {w : World} {s : State}

theorem execInPlace_append_eq (first second : Script) :
    (first ++ second).execInPlace w =
      fun s => (first.execInPlace w s).andThen (second.execInPlace w) := by
  induction first with
  | done => rfl
  | act a rest ih => funext s; simp [execInPlace, Step.andThen_assoc, ih]
  | choose c yes no rest _ _ ih => funext s; simp [execInPlace, Step.andThen_assoc, ih]
  | chooseOr c yes d no rest _ _ ih => funext s; simp [execInPlace, Step.andThen_assoc, ih]
  | each name items body rest _ ih => funext s; simp [execInPlace, Step.andThen_assoc, ih]

theorem execInPlace_append (first second : Script) (s : State) :
    (first ++ second).execInPlace w s =
      (first.execInPlace w s).andThen (second.execInPlace w) :=
  congrFun (execInPlace_append_eq first second) s

theorem execInPlace_when (c : Cond) (body : Script) :
    (when c body).execInPlace w s = if c.eval w s then body.execInPlace w s else .next s := by
  simp only [when, execInPlace]
  split <;> exact Step.andThen_next _

theorem execInPlace_forEach (name : String) (items : Term) (body : Script) :
    (forEach name items body).execInPlace w s =
      loopInPlace items name (body.execInPlace w) 0 (items.eval w s).items s :=
  Step.andThen_next _

end Script

/-! ### Variables that a script changes -/

/-- The local variables that an action sets, or whose values it changes. -/
def Action.changed : Action → List String
  | set name _ => [name]
  | run (.call (.var name) _ _) => [name]
  | _ => []

namespace Script

/-- The local variables that a script changes, those of its loops included. -/
def changed (script : Script) : List String :=
  script.actions.flatMap Action.changed ++ script.loopVariables

/-- No loop changes the value that it is at. -/
def Steady : Script → Prop
  | done => True
  | act _ next => next.Steady
  | choose _ yes no next => yes.Steady ∧ no.Steady ∧ next.Steady
  | chooseOr _ yes _ no next => yes.Steady ∧ no.Steady ∧ next.Steady
  | each name _ body next => name ∉ body.changed ∧ body.Steady ∧ next.Steady

@[simp] theorem loopVariables_done : done.loopVariables = [] := rfl

@[simp] theorem loopVariables_append (first second : Script) :
    (first ++ second).loopVariables = first.loopVariables ++ second.loopVariables := by
  induction first <;> simp_all [loopVariables]

@[simp] theorem loopVariables_acts (actions : List Action) : (acts actions).loopVariables = [] := by
  induction actions with
  | nil => rfl
  | cons a rest ih => exact ih

@[simp] theorem loopVariables_when (c : Cond) (body : Script) :
    (when c body).loopVariables = body.loopVariables := by
  simp [when, loopVariables]

@[simp] theorem loopVariables_whenNot (t : Term) (body : Script) :
    (whenNot t body).loopVariables = body.loopVariables := loopVariables_when _ body

@[simp] theorem loopVariables_forEach (name : String) (items : Term) (body : Script) :
    (forEach name items body).loopVariables = name :: body.loopVariables := by
  simp [forEach, loopVariables]

theorem mem_changed_append {name : String} {first second : Script} :
    name ∈ (first ++ second).changed ↔ name ∈ first.changed ∨ name ∈ second.changed := by
  simp only [changed, actions_append, loopVariables_append, List.flatMap_append, List.mem_append]
  grind

@[simp] theorem steady_done : done.Steady := trivial

@[simp] theorem steady_append (first second : Script) :
    (first ++ second).Steady ↔ first.Steady ∧ second.Steady := by
  induction first <;> simp_all [Steady, and_assoc]

@[simp] theorem steady_acts (actions : List Action) : (acts actions).Steady := by
  induction actions with
  | nil => trivial
  | cons a rest ih => exact ih

@[simp] theorem steady_when (c : Cond) (body : Script) : (when c body).Steady ↔ body.Steady := by
  simp [when, Steady]

@[simp] theorem steady_whenNot (t : Term) (body : Script) :
    (whenNot t body).Steady ↔ body.Steady := steady_when _ body

@[simp] theorem steady_either (c : Cond) (yes no : Script) :
    (either c yes no).Steady ↔ yes.Steady ∧ no.Steady := by
  simp [either, Steady]

@[simp] theorem steady_forEach (name : String) (items : Term) (body : Script) :
    (forEach name items body).Steady ↔ name ∉ body.changed ∧ body.Steady := by
  simp [forEach, Steady]

theorem steady_concat {parts : List Script} (steady : ∀ s ∈ parts, s.Steady) :
    (concat parts).Steady := by
  induction parts with
  | nil => trivial
  | cons s rest ih =>
    rw [concat, steady_append]
    exact ⟨steady s List.mem_cons_self, ih fun t later => steady t (List.mem_cons_of_mem _ later)⟩

end Script

/-! ### Steady scripts -/

section Agreement

variable {w : World} {name : String}

theorem effect_local {s : State} {call : Term} (apart : name ∉ (Action.run call).changed) :
    (s.effect w call).local? name = s.local? name := by
  have changes : ∀ (f : Value → Value) of method arguments, call = .call of method arguments →
      (s.change f of).local? name = s.local? name := by
    rintro f of method arguments rfl
    unfold State.change
    split
    · rfl
    · rfl
    · next other =>
      exact State.local?_bind_of_ne fun same => apart (by simp [Action.changed, same])
    · rfl
  unfold State.effect
  split
  · exact changes _ _ _ _ rfl
  · exact changes _ _ _ _ rfl
  · rfl

theorem perform_local {s : State} {a : Action} (apart : name ∉ a.changed) :
    (a.perform w s).Ends fun t => t.local? name = s.local? name := by
  cases a with
  | set other value =>
    exact State.local?_bind_of_ne fun same => apart (by simp [Action.changed, same])
  | run call => exact effect_local apart
  | refuse => trivial
  | fail message kind => trivial
  | _ => rfl

/-- A run leaves the variables alone that its script does not change. -/
theorem exec_local {script : Script} (apart : name ∉ script.changed) (s : State) :
    (script.exec w s).Ends fun t => t.local? name = s.local? name := by
  simp only [Script.changed, List.mem_append, List.mem_flatMap, not_or, not_exists, not_and]
    at apart
  refine exec_ends (fun a member t kept => ?_) (fun other looped t v kept => ?_) rfl
  · rw [← kept]
    exact perform_local (apart.1 a member)
  · rw [← kept]
    exact State.local?_bind_of_ne fun same => apart.2 (same ▸ looped)

/-- A loop whose body leaves the variable alone does not tell values from copies. -/
theorem loopInPlace_eq {items : Term} {body : State → Step}
    (kept : ∀ s, (body s).Ends fun t => t.local? name = s.local? name) (i : Nat)
    (values : List Value) (s : State) :
    loopInPlace items name body i values s = loop name body values s := by
  induction values generalizing i s with
  | nil => rfl
  | cons v rest ih =>
    have turn := kept (s.bind name v)
    rw [loopInPlace, loop]
    cases reached : body (s.bind name v) with
    | next t =>
      rw [reached] at turn
      have same : t.local? name = v := turn.trans State.local?_bind_self
      simp only [same, State.reflect, if_pos, ih]
    | left t =>
      rw [reached] at turn
      have same : t.local? name = v := turn.trans State.local?_bind_self
      simp only [same, State.reflect, if_pos]
    | stopped t => rfl
    | refused => rfl
    | failed message kind => rfl

theorem execInPlace_of_steady {script : Script} (steady : script.Steady) :
    script.execInPlace w = script.exec w := by
  induction script with
  | done => rfl
  | act a next ih =>
    funext s
    rw [Script.execInPlace, Script.exec, ih steady]
  | choose c yes no next ihYes ihNo ihNext =>
    obtain ⟨first, second, later⟩ := steady
    funext s
    rw [Script.execInPlace, Script.exec, ihYes first, ihNo second, ihNext later]
  | chooseOr c yes d no next ihYes ihNo ihNext =>
    obtain ⟨first, second, later⟩ := steady
    funext s
    rw [Script.execInPlace, Script.exec, ihYes first, ihNo second, ihNext later]
  | each name items body next ihBody ihNext =>
    obtain ⟨apart, inner, later⟩ := steady
    funext s
    rw [Script.execInPlace, Script.exec, ihBody inner, ihNext later,
      loopInPlace_eq (exec_local apart)]

end Agreement

/-! ### Steady templates -/

section Templates

variable {config : Config}

theorem grantToGroups_steady {name : String} (own : name ≠ "group") (items : Term)
    (groups : List String) : (grantToGroups name items groups).Steady := by
  simp [grantToGroups, changed, Action.changed, own.symm]

theorem debugNote_steady (key message : String) : (debugNote config key message).Steady := by
  unfold debugNote
  split <;> simp

theorem ownerClause_steady (owner : OwnerClause) : (ownerClause owner).Steady := by
  simp [ownerClause]

theorem authorize_steady (check : AuthCheck) : (authorize config check).Steady := by
  cases check with
  | allowAll reason => exact steady_acts _
  | denyAll reason => exact steady_acts _
  | rules check =>
    have clauses : (concat (check.groupClauses.map groupClause)).Steady := by
      refine steady_concat fun s member => ?_
      obtain ⟨clause, _, rfl⟩ := List.mem_map.mp member
      simpa [groupClause] using grantToGroups_steady (by decide) _ _
    simp only [authorize, ruleCheck, steady_append, steady_acts, clauses, steady_whenNot,
      debugNote_steady]
    cases check.ownerClause <;> cases check.stamp <;> simp [ownerClause_steady, stampOwner]

theorem boundPage_steady (page : PageBounds) : (boundPage page).Steady := by
  simp [boundPage]

theorem writeCondition_steady (keyField : String) (ownerGuard : Option String) :
    (writeCondition keyField ownerGuard).Steady := by
  unfold writeCondition
  cases nonEmpty ownerGuard <;> simp

theorem perform_steady (operation : DataOperation) : (perform config operation).Steady := by
  cases operation with
  | putItem keyField timestamps inputExpression =>
    simp only [perform, putItem, steady_append, steady_acts, true_and, and_true]
    split <;> simp
  | updateItem update =>
    have fields : (concat (update.fields.map updateField)).Steady := by
      refine steady_concat fun s member => ?_
      obtain ⟨name, _, rfl⟩ := List.mem_map.mp member
      simp [updateField]
    simp [perform, updateItem, fields, writeCondition_steady]
  | sql statements =>
    simp only [perform, Template.sql, steady_append, steady_acts, true_and, and_true]
    cases statements.page <;> cases nonEmpty statements.ownerGuard <;>
      simp [boundPage_steady, boundOffset, guardRows]
  | queryIndex indexName partitionKey valueExpression page =>
    cases page <;> simp [perform, queryIndex, boundPage_steady]
  | _ => simp [perform, getItem, scanItems, deleteItem, http, enqueue, invokeHook, noOp,
      boundPage_steady, writeCondition_steady]

theorem ofRequest_steady (plan : RequestPlan) : (ofRequest config plan).Steady := by
  simp only [ofRequest, steady_append, steady_acts, perform_steady]
  cases plan.auth <;> cases nonEmpty plan.gate <;> simp [authorize_steady]

theorem bindRecord_steady (source : RecordSource) : (bindRecord source).Steady := by
  cases source <;> simp [bindRecord, Steady]

theorem bindPage_steady (source : ListSource) : (bindPage source).Steady := by
  cases source <;> simp [bindPage]

theorem verifyIfAny_steady (verification : Option OwnershipVerification) :
    (verifyIfAny verification).Steady := by
  cases verification <;> simp [verifyIfAny, verify]

theorem decideItem_steady (access : ItemAccess) (subject : Term) :
    (decideItem config access subject).Steady := by
  cases access with
  | filter f =>
    have grouped : (if f.groups.isEmpty then done
        else grantToGroups "canAccess" (callerGroups config) f.groups).Steady := by
      split
      · trivial
      · exact grantToGroups_steady (by decide) _ _
    simp only [decideItem, itemFilter, steady_append, steady_acts, grouped]
    cases nonEmpty f.gateFlag <;> cases nonEmpty f.ownerField <;> simp
  | _ => exact steady_acts _

theorem addLocalTimes_steady (fields : List String) (subject : Term) :
    (addLocalTimes fields subject).Steady := by
  refine steady_concat fun s member => ?_
  obtain ⟨name, _, rfl⟩ := List.mem_map.mp member
  simp

/-- Only the response of a list works on the values of one. -/
theorem ofResponse_steady {plan : ResponsePlan} (unlisted : ∀ r, plan.shape ≠ .list r) :
    (ofResponse config plan).Steady := by
  have shaped : (handOut config plan.shape).Steady := by
    cases shape : plan.shape with
    | single r =>
      simp only [handOut, singleRecord, steady_append, bindRecord_steady, verifyIfAny_steady]
      cases r.access <;> cases localTimeHeader config r.localTimeFields <;>
        simp [decideItem_steady, addLocalTimes_steady, emitVisible]
    | list r => exact absurd shape (unlisted r)
    | confirmOwnership source verification confirmFlag =>
      simp [handOut, bindRecord_steady, verifyIfAny_steady]
    | subscriptionAck ownerField gateFlag =>
      simp only [handOut]
      cases nonEmpty ownerField <;> simp
    | _ => simp [handOut]
  simp [ofResponse, errorGuard, shaped]

theorem ofResponse_execInPlace {w : World} {s : State} {plan : ResponsePlan}
    (succeeded : w.context.error = .null) :
    (ofResponse config plan).execInPlace w s = (handOut config plan.shape).execInPlace w s := by
  have guard : errorGuard.Steady := by simp [errorGuard]
  rw [ofResponse, execInPlace_append, execInPlace_append, execInPlace_of_steady (steady_acts _),
    execInPlace_of_steady guard, exec_acts_cons, Action.perform, Step.next_andThen, exec_acts_nil,
    Step.next_andThen, errorGuard_exec succeeded, Step.next_andThen]

end Templates

end Template

/-! ### Resolvers -/

/-- What a request comes to that ended so. -/
def Asked.ofStep (p : Progress) : Template.Step → Asked
  | .next s => .sent s.output { p with stash := s.stash, args := s.args }
  | .stopped s => .returned ⟨s.stash, s.args, .null⟩
  | _ => .aborted

/-- What a response hands on that ended so. -/
def Progress.ofStep? : Template.Step → Option Progress
  | .next s => some ⟨s.stash, s.args, s.output⟩
  | _ => none

namespace Host

def askInPlace (host : Host) (p : Progress) (plan : RequestPlan) : Asked :=
  .ofStep p ((ofRequest host.config plan).execInPlace (host.world p .null) p.state)

def respondInPlace (host : Host) (p : Progress) (result : Value) (plan : ResponsePlan) :
    Option Progress :=
  Progress.ofStep? ((ofResponse host.config plan).execInPlace (host.world p result) p.state)

/-- A stage, whose main request is answered by the store. -/
def serveStage (host : Host) (store : Value → Value) (p : Progress) (s : Stage) : Trace :=
  match host.askInPlace p s.exchange.request with
  | .aborted => ⟨[], none⟩
  | .returned q => ⟨[], some q⟩
  | .sent body q =>
    let result := if s.kind = .main then store body else host.reply s.kind
    ⟨[(s.binding, body)], host.respondInPlace q result s.exchange.response⟩

def serveStages (host : Host) (store : Value → Value) (p : Progress) : List Stage → Trace
  | [] => ⟨[], some p⟩
  | s :: rest => (host.serveStage store p s).andThen fun q => host.serveStages store q rest

/-- Runs a resolver on a store; values that a loop runs over are changed in place. -/
def serve (host : Host) (store : Value → Value) (r : RootResolver) : Trace :=
  match r.execution with
  | .unit binding => host.serveStage store host.start ⟨r.fieldName, .main, binding, r.exchange⟩
  | .pipeline stages =>
    match host.askInPlace host.start r.exchange.request with
    | .sent body p =>
      let later := host.serveStages store { p with previous := body.field "payload" } stages
      ⟨later.sent, later.progress.bind fun q =>
        host.respondInPlace q q.previous r.exchange.response⟩
    | .returned p => ⟨[], some p⟩
    | .aborted => ⟨[], none⟩

section Serving

variable {host : Host} {store : Value → Value} {p : Progress}

theorem askInPlace_eq (plan : RequestPlan) : host.askInPlace p plan = host.ask p plan := by
  rw [askInPlace, ask, execInPlace_of_steady (ofRequest_steady plan)]
  rfl

theorem respondInPlace_eq {plan : ResponsePlan} (result : Value)
    (unlisted : ∀ l, plan.shape ≠ .list l) :
    host.respondInPlace p result plan = host.respond p result plan := by
  rw [respondInPlace, respond, execInPlace_of_steady (ofResponse_steady unlisted)]
  rfl

theorem serveStage_eq {s : Stage} (answers : s.kind = .main → ∀ body, store body = host.reply .main)
    (unlisted : ∀ l, s.exchange.response.shape ≠ .list l) :
    host.serveStage store p s = host.runStage p s := by
  have result : ∀ body, (if s.kind = .main then store body else host.reply s.kind) =
      host.reply s.kind := by
    intro body
    split
    · next main => rw [answers main body, main]
    · rfl
  rw [serveStage, runStage, askInPlace_eq]
  cases host.ask p s.exchange.request with
  | aborted => rfl
  | returned q => rfl
  | sent body q => simp only [result, respondInPlace_eq _ unlisted]

theorem serveStages_append (first rest : List Stage) :
    host.serveStages store p (first ++ rest) =
      (host.serveStages store p first).andThen fun q => host.serveStages store q rest := by
  induction first generalizing p with
  | nil => simp [serveStages, Trace.andThen]
  | cons s later ih => simp only [List.cons_append, serveStages, Trace.andThen_assoc, ih]

theorem serveStages_single (s : Stage) :
    host.serveStages store p [s] = host.serveStage store p s := by
  rw [serveStages]
  obtain ⟨sent, _ | q⟩ := host.serveStage store p s <;> simp [serveStages, Trace.andThen]

end Serving

end Host

end ApiLoom
