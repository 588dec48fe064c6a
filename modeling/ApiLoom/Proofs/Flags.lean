import ApiLoom.Proofs.Decision
import ApiLoom.Proofs.WriteRequests

/-!
# Stash entries that scripts set

Which entries of the stash a script sets can be read off its actions.  An entry that
none of them sets is what it was wherever the script ends.
-/

namespace ApiLoom.Template

open Script

/-! ### Actions of a script -/

namespace Script

/-- The actions of a script with those of its choices and loops. -/
def actions : Script → List Action
  | done => []
  | act a next => a :: next.actions
  | choose _ yes no next => yes.actions ++ no.actions ++ next.actions
  | chooseOr _ yes _ no next => yes.actions ++ no.actions ++ next.actions
  | each _ _ body next => body.actions ++ next.actions

@[simp] theorem actions_done : done.actions = [] := rfl

@[simp] theorem actions_append (first second : Script) :
    (first ++ second).actions = first.actions ++ second.actions := by
  induction first <;> simp_all [actions]

@[simp] theorem actions_acts (actions : List Action) : (acts actions).actions = actions := by
  induction actions with
  | nil => rfl
  | cons a rest ih => rw [acts, Script.actions, ih]

@[simp] theorem actions_when (c : Cond) (body : Script) : (when c body).actions = body.actions := by
  simp [when, actions]

@[simp] theorem actions_whenNot (t : Term) (body : Script) :
    (whenNot t body).actions = body.actions := actions_when _ body

@[simp] theorem actions_either (c : Cond) (yes no : Script) :
    (either c yes no).actions = yes.actions ++ no.actions := by
  simp [either, actions]

@[simp] theorem actions_forEach (name : String) (items : Term) (body : Script) :
    (forEach name items body).actions = body.actions := by
  simp [forEach, actions]

@[simp] theorem actions_concat (parts : List Script) :
    (concat parts).actions = parts.flatMap actions := by
  induction parts with
  | nil => rfl
  | cons s rest ih => rw [concat, actions_append, ih, List.flatMap_cons]

/-- The variables of the loops of a script. -/
def loopVariables : Script → List String
  | done => []
  | act _ next => next.loopVariables
  | choose _ yes no next => yes.loopVariables ++ no.loopVariables ++ next.loopVariables
  | chooseOr _ yes _ no next => yes.loopVariables ++ no.loopVariables ++ next.loopVariables
  | each name _ body next => name :: body.loopVariables ++ next.loopVariables

end Script

/-! ### Keys of the stash -/

def Action.stashKey? : Action → Option Term
  | run (.call (.member (.var "ctx") "stash") _ (key :: _)) => some key
  | _ => none

namespace Script

def stashKeys (script : Script) : List Term := script.actions.filterMap Action.stashKey?

def Sets (script : Script) (key : String) : Prop := Term.plain key ∈ script.stashKeys

@[simp] theorem stashKeys_done : done.stashKeys = [] := rfl

@[simp] theorem stashKeys_append (first second : Script) :
    (first ++ second).stashKeys = first.stashKeys ++ second.stashKeys := by
  simp [stashKeys]

@[simp] theorem stashKeys_acts (actions : List Action) :
    (acts actions).stashKeys = actions.filterMap Action.stashKey? := by
  simp [stashKeys]

@[simp] theorem stashKeys_when (c : Cond) (body : Script) :
    (when c body).stashKeys = body.stashKeys := by
  simp [stashKeys]

@[simp] theorem stashKeys_whenNot (t : Term) (body : Script) :
    (whenNot t body).stashKeys = body.stashKeys := stashKeys_when _ body

@[simp] theorem stashKeys_either (c : Cond) (yes no : Script) :
    (either c yes no).stashKeys = yes.stashKeys ++ no.stashKeys := by
  simp [stashKeys]

@[simp] theorem stashKeys_forEach (name : String) (items : Term) (body : Script) :
    (forEach name items body).stashKeys = body.stashKeys := by
  simp [stashKeys]

@[simp] theorem stashKeys_concat (parts : List Script) :
    (concat parts).stashKeys = parts.flatMap stashKeys := by
  induction parts with
  | nil => rfl
  | cons s rest ih => rw [concat, stashKeys_append, ih, List.flatMap_cons]

theorem stashKeys_concat_map {α : Type} {f : α → Script} (keyless : ∀ x, (f x).stashKeys = [])
    (xs : List α) : (concat (xs.map f)).stashKeys = [] := by
  simp [List.flatMap_map, keyless]

end Script

/-! ### What holds wherever a run ends -/

/-- Wherever the step ends without refusing or failing, this holds of the state. -/
def Step.Ends (step : Step) (holds : State → Prop) : Prop :=
  match step with
  | .next t | .left t | .stopped t => holds t
  | .refused | .failed _ _ => True

section Ends

variable {w : World} {holds : State → Prop}

theorem Step.Ends.andThen {step : Step} {rest : State → Step} (first : step.Ends holds)
    (later : ∀ t, holds t → (rest t).Ends holds) : (step.andThen rest).Ends holds := by
  cases step with
  | next t => exact later t first
  | left t => exact first
  | stopped t => exact first
  | refused => trivial
  | failed message kind => trivial

theorem loop_ends {name : String} {body : State → Step}
    (bound : ∀ s v, holds s → holds (s.bind name v)) (once : ∀ s, holds s → (body s).Ends holds)
    (items : List Value) {s : State} (before : holds s) : (loop name body items s).Ends holds := by
  induction items generalizing s with
  | nil => exact before
  | cons v rest ih =>
    have turn := once (s.bind name v) (bound s v before)
    rw [loop]
    cases reached : body (s.bind name v) with
    | next t =>
      rw [reached] at turn
      exact ih turn
    | left t =>
      rw [reached] at turn
      exact turn
    | stopped t =>
      rw [reached] at turn
      exact turn
    | refused => trivial
    | failed message kind => trivial

/-- What the actions and the loop variables of a script keep holds wherever a run ends. -/
theorem exec_ends {script : Script}
    (acts : ∀ a ∈ script.actions, ∀ s, holds s → (a.perform w s).Ends holds)
    (loops : ∀ name ∈ script.loopVariables, ∀ s v, holds s → holds (s.bind name v)) {s : State}
    (before : holds s) : (script.exec w s).Ends holds := by
  induction script generalizing s with
  | done => exact before
  | act a next ih =>
    exact (acts a List.mem_cons_self s before).andThen fun t =>
      ih (fun b member => acts b (List.mem_cons_of_mem _ member)) loops
  | choose c yes no next ihYes ihNo ihNext =>
    simp only [Script.actions, Script.loopVariables, List.mem_append] at acts loops
    have chosen : (if c.eval w s then yes.exec w s else no.exec w s).Ends holds := by
      split
      · exact ihYes (fun a member => acts a (by simp [member]))
          (fun name member => loops name (by simp [member])) before
      · exact ihNo (fun a member => acts a (by simp [member]))
          (fun name member => loops name (by simp [member])) before
    exact chosen.andThen fun t => ihNext (fun a member => acts a (by simp [member]))
      fun name member => loops name (by simp [member])
  | chooseOr c yes d no next ihYes ihNo ihNext =>
    simp only [Script.actions, Script.loopVariables, List.mem_append] at acts loops
    have chosen : (if c.eval w s then yes.exec w s
        else if d.eval w s then no.exec w s else .next s).Ends holds := by
      split
      · exact ihYes (fun a member => acts a (by simp [member]))
          (fun name member => loops name (by simp [member])) before
      · split
        · exact ihNo (fun a member => acts a (by simp [member]))
            (fun name member => loops name (by simp [member])) before
        · exact before
    exact chosen.andThen fun t => ihNext (fun a member => acts a (by simp [member]))
      fun name member => loops name (by simp [member])
  | each name items body next ihBody ihNext =>
    simp only [Script.actions, Script.loopVariables, List.mem_append, List.mem_cons] at acts loops
    have looped : (loop name (body.exec w) (items.eval w s).items s).Ends holds :=
      loop_ends (loops name (by simp)) (fun t => ihBody (fun a member => acts a (by simp [member]))
        fun other member => loops other (by simp [member])) _ before
    exact looped.andThen fun t => ihNext (fun a member => acts a (by simp [member]))
      fun other member => loops other (by simp [member])

end Ends

/-! ### What a run leaves alone -/

section Runs

variable {w : World} {flag : String}

/-- Wherever the step ends without refusing or failing, the flag is as it was. -/
def Step.Leaves (step : Step) (flag : String) (set : Bool) : Prop :=
  match step with
  | .next t | .left t | .stopped t => t.flagged flag = set
  | .refused | .failed _ _ => True

theorem Step.leaves_iff {step : Step} {set : Bool} :
    step.Leaves flag set ↔ step.Ends fun t => t.flagged flag = set := by
  cases step <;> rfl

/-- No action of the script writes to the stash under the key, whatever its own keys come to. -/
def Script.Avoids (script : Script) (w : World) (flag : String) : Prop :=
  ∀ a ∈ script.actions, ∀ key, a.stashKey? = some key → ∀ s, w.printed (key.eval w s) ≠ flag

theorem put_flagged {s : State} {key : String} (apart : key ≠ flag) (v : Value) :
    ({ s with stash := ((Value.map s.stash).put key v).entries } : State).flagged flag =
      s.flagged flag := by
  rw [State.flagged, Value.put, Value.entries, Entries.get?_put_of_ne apart.symm]
  rfl

theorem effect_flagged {s : State} {call : Term}
    (avoids : ∀ key, (Action.run call).stashKey? = some key → w.printed (key.eval w s) ≠ flag) :
    (s.effect w call).flagged flag = s.flagged flag := by
  unfold State.effect
  split
  · next of key value =>
    unfold State.change
    split
    · exact put_flagged (avoids key rfl) _
    · rfl
    · rfl
    · rfl
  · next of value =>
    unfold State.change
    split <;> rfl
  · rfl

theorem perform_leaves {s : State} {a : Action}
    (avoids : ∀ key, a.stashKey? = some key → w.printed (key.eval w s) ≠ flag) :
    (a.perform w s).Leaves flag (s.flagged flag) := by
  cases a with
  | run call => exact effect_flagged avoids
  | refuse => trivial
  | fail message kind => trivial
  | _ => rfl

/-- A run leaves every flag alone that its script does not write. -/
theorem exec_leaves {script : Script} (avoids : script.Avoids w flag) {s : State} {set : Bool}
    (before : s.flagged flag = set) : (script.exec w s).Leaves flag set := by
  refine Step.leaves_iff.mpr (exec_ends (fun a member t kept => ?_) (fun _ _ _ _ => id) before)
  rw [← Step.leaves_iff, ← kept]
  exact perform_leaves fun key writes => avoids a member key writes t

/-- No action of the script sets the entry, and no run changes whether it is set. -/
structure Script.Spares (script : Script) (flag : String) : Prop where
  unset : ¬ script.Sets flag
  kept : ∀ w s, (script.exec w s).Leaves flag (s.flagged flag)

theorem Script.sets_iff {script : Script} {keys : List String}
    (written : script.stashKeys = keys.map .plain) : script.Sets flag ↔ flag ∈ keys := by
  simp [Sets, written]

theorem Script.spares_of_keys {script : Script} {keys : List String}
    (written : script.stashKeys = keys.map .plain) (plain : ∀ key ∈ keys, '$' ∉ key.toList)
    (apart : flag ∉ keys) : script.Spares flag := by
  refine ⟨fun set => apart ((sets_iff written).mp set), fun w s => exec_leaves ?_ rfl⟩
  intro a member key writes t printed
  have listed : key ∈ script.stashKeys := List.mem_filterMap.mpr ⟨a, member, writes⟩
  obtain ⟨text, known, rfl⟩ := List.mem_map.mp (written ▸ listed)
  rw [Term.eval, World.printed, expand_plain (plain text known)] at printed
  exact apart (printed ▸ known)

end Runs

/-! ### Keys that requests write -/

section Keys

variable {config : Config}

theorem grantToGroups_stashKeys (name : String) (items : Term) (groups : List String) :
    (grantToGroups name items groups).stashKeys = [] := by
  simp [grantToGroups, Action.stashKey?]

theorem groupClause_stashKeys (clause : GroupClause) : (groupClause clause).stashKeys = [] := by
  simp [groupClause, grantToGroups_stashKeys, Action.stashKey?]

theorem stashKey?_stashPut (key : String) (value : Term) :
    (Action.run (.stashPut key value)).stashKey? = some (.plain key) := rfl

theorem ownerClause_stashKeys (owner : OwnerClause) :
    (ownerClause owner).stashKeys = (OwnerMode.flag owner.mode).toList.map .plain := by
  cases mode : owner.mode <;> simp [ownerClause, OwnerMode.flag, mode, Action.stashKey?] <;> rfl

theorem stampOwner_stashKeys (ownerField : String) : (stampOwner ownerField).stashKeys = [] := rfl

def noteKeys (config : Config) : List String :=
  if config.debugInstrumentation then ["debug-auth-failed"] else []

theorem debugNote_stashKeys (message : String) :
    (debugNote config "debug-auth-failed" message).stashKeys = (noteKeys config).map .plain := by
  unfold debugNote noteKeys
  split <;> simp [stashKey?_stashPut]

/-- What the decision of a request may write: the flag of its owner clause, and a note for those
who look for the reason of a refusal. -/
def authKeys (config : Config) : AuthCheck → List String
  | .rules check =>
    (check.ownerClause.bind fun owner => OwnerMode.flag owner.mode).toList ++ noteKeys config
  | _ => []

theorem authorize_stashKeys (check : AuthCheck) :
    (authorize config check).stashKeys = (authKeys config check).map .plain := by
  cases check with
  | allowAll reason => rfl
  | denyAll reason => rfl
  | rules check =>
    have clauses : (concat (check.groupClauses.map groupClause)).stashKeys = [] :=
      stashKeys_concat_map groupClause_stashKeys _
    simp only [authorize, ruleCheck, authKeys, stashKeys_append, clauses, stashKeys_whenNot,
      debugNote_stashKeys]
    cases check.ownerClause <;> cases check.stamp <;>
      simp [List.filterMap_cons, ownerClause_stashKeys, stampOwner_stashKeys, Action.stashKey?]

theorem writeCondition_stashKeys (keyField : String) (ownerGuard : Option String) :
    (writeCondition keyField ownerGuard).stashKeys = [] := by
  unfold writeCondition
  cases nonEmpty ownerGuard <;> rfl

def operationKeys : DataOperation → List String
  | .sql statements => if statements.page.isSome then [pageLimitKey, pageOffsetKey] else []
  | .enqueue _ _ _ requestIdStashKey => [requestIdStashKey]
  | _ => []

theorem perform_stashKeys (operation : DataOperation) :
    (perform config operation).stashKeys = (operationKeys operation).map .plain := by
  cases operation with
  | putItem keyField timestamps inputExpression =>
    have stamps : (timestamps.map fun name =>
        Action.run ((Term.var "input").call "put" [.plain name, .var "now"])).filterMap
          Action.stashKey? = [] := by
      simp [List.filterMap_map, Action.stashKey?]
    simp only [perform, putItem, stashKeys_append]
    cases timestamps.isEmpty <;>
      simp [List.filterMap_cons, stamps, Action.stashKey?, operationKeys]
  | updateItem update =>
    have fields : (concat (update.fields.map updateField)).stashKeys = [] :=
      stashKeys_concat_map (fun _ => rfl) _
    simp [perform, updateItem, writeCondition_stashKeys, fields, List.filterMap_cons,
      Action.stashKey?, operationKeys]
  | deleteItem keyField keyExpression ownerGuard =>
    simp [perform, deleteItem, writeCondition_stashKeys, Action.stashKey?, operationKeys]
  | queryIndex indexName partitionKey valueExpression page => cases page <;> rfl
  | sql statements =>
    have prelude : (statements.prelude.map fun a =>
        Action.set a.name (.verbatim a.expression)).filterMap Action.stashKey? = [] := by
      simp [List.filterMap_map, Action.stashKey?]
    simp only [perform, Template.sql, operationKeys, stashKeys_append, stashKeys_acts, prelude]
    cases statements.page <;> cases nonEmpty statements.ownerGuard <;> rfl
  | _ => rfl

def requestKeys (config : Config) (plan : RequestPlan) : List String :=
  (plan.auth.map (authKeys config)).getD [] ++ operationKeys plan.operation

theorem ofRequest_stashKeys (plan : RequestPlan) :
    (ofRequest config plan).stashKeys = (requestKeys config plan).map .plain := by
  simp only [ofRequest, requestKeys, stashKeys_append, perform_stashKeys]
  cases plan.auth <;> cases nonEmpty plan.gate <;>
    simp [authorize_stashKeys, List.filterMap_cons, Action.stashKey?]

/-! ### Keys that responses write -/

theorem bindRecord_stashKeys (source : RecordSource) : (bindRecord source).stashKeys = [] := by
  cases source <;> rfl

theorem bindPage_stashKeys (source : ListSource) : (bindPage source).stashKeys = [] := by
  cases source <;> rfl

theorem verifyIfAny_stashKeys (verification : Option OwnershipVerification) :
    (verifyIfAny verification).stashKeys = [] := by
  cases verification with
  | none => rfl
  | some v => cases mode : v.onMismatch <;> simp [verifyIfAny, verify, mode, MismatchAction.action,
      Action.stashKey?]

theorem decideItem_stashKeys (access : ItemAccess) (subject : Term) :
    (decideItem config access subject).stashKeys = [] := by
  cases access with
  | filter f =>
    have grouped : (if f.groups.isEmpty then done
        else grantToGroups "canAccess" (callerGroups config) f.groups).stashKeys = [] := by
      split
      · rfl
      · exact grantToGroups_stashKeys _ _ _
    simp only [decideItem, itemFilter, stashKeys_append, grouped]
    cases nonEmpty f.gateFlag <;> cases nonEmpty f.ownerField <;> rfl
  | _ => rfl

theorem addLocalTimes_stashKeys (fields : List String) (name : String) :
    (addLocalTimes fields (.var name)).stashKeys = [] := by
  exact stashKeys_concat_map (fun _ => rfl) _

def shapeKeys : ResultShape → List String
  | .confirmOwnership _ _ confirmFlag => [confirmFlag]
  | .hookOutcome stashKey _ => [stashKey]
  | _ => []

theorem ofResponse_stashKeys (plan : ResponsePlan) :
    (ofResponse config plan).stashKeys = (shapeKeys plan.shape).map .plain := by
  have shaped : (handOut config plan.shape).stashKeys = (shapeKeys plan.shape).map .plain := by
    cases plan.shape with
    | single r =>
      simp only [handOut, singleRecord, stashKeys_append, bindRecord_stashKeys,
        verifyIfAny_stashKeys]
      cases r.access <;> cases localTimeHeader config r.localTimeFields <;>
        simp [decideItem_stashKeys, addLocalTimes_stashKeys, Term.record, emitVisible,
          bindTimezone, Action.stashKey?, shapeKeys]
    | list r =>
      simp only [handOut, recordList, stashKeys_append, bindPage_stashKeys]
      cases r.access <;> cases localTimeHeader config r.localTimeFields <;>
        simp [decideItem_stashKeys, addLocalTimes_stashKeys, Term.items, putConnection,
          Term.connection, bindTimezone, Action.stashKey?, shapeKeys, List.filterMap_cons]
    | pendingAck key => rfl
    | confirmOwnership source verification confirmFlag =>
      simp only [handOut, stashKeys_append, bindRecord_stashKeys, verifyIfAny_stashKeys]
      rfl
    | hookOutcome key phase => rfl
    | passThrough => rfl
    | subscriptionAck ownerField gateFlag =>
      simp only [handOut]
      cases nonEmpty ownerField <;> rfl
  simp only [ofResponse, stashKeys_append, shaped]
  rfl

end Keys

end ApiLoom.Template
