import ApiLoom.Proofs.Admission
import ApiLoom.Proofs.Flags

/-!
# Requests of creates

A create is decided by its rules alone: there is no stored record to look at.  Its request
refuses at one place, and only a caller that has passed it is stamped as the owner.
-/

namespace ApiLoom

namespace Template

open Script

/-! ### Kinds of actions -/

/-- The action sets something, or leaves a loop. -/
def Action.computes : Action → Bool
  | comment _ | set _ _ | run _ | leaveLoop => true
  | _ => false

/-- The action prepares a request or hands it to the store. -/
def Action.asks : Action → Bool
  | comment _ | set _ _ | run _ | send _ => true
  | _ => false

namespace Script

/-- All actions of the script, those of its choices and loops too, are of this kind. -/
def Only (kind : Action → Bool) (s : Script) : Prop := ∀ a ∈ s.actions, kind a = true

section Only

variable {kind : Action → Bool} {s t : Script}

@[simp] theorem only_done : done.Only kind := by simp [Only]

@[simp] theorem only_append : (s ++ t).Only kind ↔ s.Only kind ∧ t.Only kind := by
  simp [Only, or_imp, forall_and]

@[simp] theorem only_acts {actions : List Action} :
    (acts actions).Only kind ↔ ∀ a ∈ actions, kind a = true := by
  simp [Only]

@[simp] theorem only_when {c : Cond} : (when c s).Only kind ↔ s.Only kind := by
  simp [Only]

@[simp] theorem only_whenNot {term : Term} : (whenNot term s).Only kind ↔ s.Only kind := by
  simp [Only]

@[simp] theorem only_forEach {name : String} {items : Term} :
    (forEach name items s).Only kind ↔ s.Only kind := by
  simp [Only]

theorem only_concat_map {α : Type} {f : α → Script} (each : ∀ x, (f x).Only kind) (xs : List α) :
    (concat (xs.map f)).Only kind := by
  intro a member
  rw [actions_concat, List.flatMap_map] at member
  obtain ⟨x, _, within⟩ := List.mem_flatMap.mp member
  exact each x a within

end Only

/-- A script that only asks goes on to its end. -/
theorem Only.exec_reaches {s : Script} (asks : s.Only Action.asks) (w : World) (t : State) :
    (s.exec w t).Reaches fun _ => True := by
  induction s generalizing t with
  | done => exact .now trivial
  | act a next ih =>
    obtain ⟨first, later⟩ := List.forall_mem_cons.mp asks
    have performed : (a.perform w t).Reaches fun _ => True := by
      cases a with
      | comment | set | run | send => exact .now trivial
      | emit | emitNull | acknowledge | deliverOwn | refuse | fail | leaveLoop | stop => cases first
    exact performed.andThen fun u _ => ih later u
  | choose c yes no next first second ih =>
    simp only [Only, actions, List.forall_mem_append] at asks
    have chosen : (if c.eval w t then yes.exec w t else no.exec w t).Reaches fun _ => True := by
      split
      · exact first asks.1.1 t
      · exact second asks.1.2 t
    exact chosen.andThen fun u _ => ih asks.2 u
  | chooseOr c yes d no next first second ih =>
    simp only [Only, actions, List.forall_mem_append] at asks
    have chosen : (if c.eval w t then yes.exec w t
        else if d.eval w t then no.exec w t else .next t).Reaches fun _ => True := by
      split
      · exact first asks.1.1 t
      · split
        · exact second asks.1.2 t
        · exact .now trivial
    exact chosen.andThen fun u _ => ih asks.2 u
  | each name items body next first ih =>
    simp only [Only, actions, List.forall_mem_append] at asks
    have looped : ∀ vs u, (loop name (body.exec w) vs u).Reaches fun _ => True := by
      intro vs
      induction vs with
      | nil => exact fun u => .now trivial
      | cons v rest again =>
        intro u
        obtain ⟨x, reached, _⟩ := first asks.1 (u.bind name v)
        rw [loop, reached]
        exact again x
    exact (looped _ t).andThen fun u _ => ih asks.2 u

end Script

/-! ### What operations do -/

section Operations

variable {config : Config}

theorem boundPage_asks (page : PageBounds) : (boundPage page).Only Action.asks := by
  simp [boundPage, Action.asks]

theorem writeCondition_asks (keyField : String) (ownerGuard : Option String) :
    (writeCondition keyField ownerGuard).Only Action.asks := by
  unfold writeCondition
  cases nonEmpty ownerGuard <;> simp [Action.asks]

/-- No operation refuses the caller. -/
theorem perform_asks (config : Config) (operation : DataOperation) :
    (perform config operation).Only Action.asks := by
  cases operation with
  | getItem => simp [perform, getItem, Action.asks]
  | scanItems page => simp [perform, scanItems, boundPage_asks, Action.asks]
  | putItem keyField timestamps inputExpression =>
    cases empty : timestamps.isEmpty <;> simp [perform, putItem, empty, Action.asks]
  | updateItem update =>
    have fields : (concat (update.fields.map updateField)).Only Action.asks :=
      only_concat_map (fun name => by simp [updateField, Action.asks]) _
    simp [perform, updateItem, fields, writeCondition_asks, Action.asks]
  | deleteItem => simp [perform, deleteItem, writeCondition_asks, Action.asks]
  | queryIndex indexName partitionKey valueExpression page =>
    cases page <;> simp [perform, queryIndex, boundPage_asks, Action.asks]
  | sql statements =>
    cases paged : statements.page <;> cases guarded : nonEmpty statements.ownerGuard <;>
      simp [perform, Template.sql, paged, guarded, boundPage_asks, boundOffset, guardRows,
        Action.asks]
  | http => simp [perform, Template.http, Action.asks]
  | enqueue => simp [perform, enqueue, Action.asks]
  | invokeHook => simp [perform, invokeHook, Action.asks]
  | noOp => simp [perform, noOp, Action.asks]

end Operations

/-! ### The decision and the stamp -/

section Decisions

variable {config : Config} {check : RuleCheck} {caller : Caller} {w : World} {s : State}

theorem deliberation_computes : (deliberation config check).Only Action.computes := by
  have grant (name : String) (items : Term) (groups : List String) :
      (grantToGroups name items groups).Only Action.computes := by
    simp [grantToGroups, Action.computes]
  have clauses : (concat (check.groupClauses.map groupClause)).Only Action.computes :=
    only_concat_map (fun clause => by simp [groupClause, grant, Action.computes]) _
  cases owned : check.ownerClause with
  | none => simp [deliberation, owned, clauses, Action.computes]
  | some owner =>
    cases flagged : OwnerMode.flag owner.mode <;>
      simp [deliberation, owned, clauses, ownerClause, flagged, Action.computes]

theorem denialNote_computes : (denialNote config check).Only Action.computes := by
  unfold denialNote debugNote
  split <;> simp [Action.computes]

/-- A check stamps after all else that it does. -/
theorem ruleCheck_stamp (w : World) (s : State) (check : RuleCheck) :
    (ruleCheck config check).exec w s =
      ((ruleCheck config { check with stamp := none }).exec w s).andThen
        ((check.stamp.elim done stampOwner).exec w) := by
  rw [ruleCheck_parts, ruleCheck_parts, exec_append, exec_append _ (Option.elim _ _ _)]
  simp only [Option.elim_none, exec_done, Step.andThen_next]
  rfl

/-- A check refuses exactly the callers that it gives no flags, whether it stamps or not. -/
theorem authorize_refuses (told : w.context.identity = caller.identity config)
    (check : AuthCheck) :
    match check.flagsFor caller with
    | none => (authorize config check).exec w s = .refused
    | some _ => ((authorize config check).exec w s).Reaches fun _ => True := by
  cases check with
  | allowAll reason => exact .now trivial
  | denyAll reason => rfl
  | rules check =>
    have unstamped : { check with stamp := none : RuleCheck }.stamp = none := rfl
    have decided := ruleCheck_exec (s := s) told unstamped
    have same : (AuthCheck.rules { check with stamp := none }).flagsFor caller =
      (AuthCheck.rules check).flagsFor caller := rfl
    rw [same] at decided
    rw [authorize, ruleCheck_stamp]
    cases outcome : (AuthCheck.rules check).flagsFor caller with
    | none =>
      rw [outcome] at decided
      simp [decided]
    | some flags =>
      rw [outcome] at decided
      have stamp : (check.stamp.elim done stampOwner).Only Action.asks := by
        cases check.stamp <;> simp [stampOwner, Action.asks]
      exact decided.andThen fun t _ => stamp.exec_reaches w t

/-- The stamp puts the caller into the input. -/
theorem stampOwner_exec {owner : String} (plain : '$' ∉ owner.toList)
    (user : s.local? "userId" = subValue caller) :
    (stampOwner owner).exec w s = .next { s with
      args := s.args.put "input" ((s.args.field "input").put owner (subValue caller)) } := by
  simp only [stampOwner, exec_acts_cons, exec_acts_nil, Action.perform, Step.next_andThen,
    State.effect, Term.arguments, Term.context, State.change, Term.eval,
    lookup_local (by decide : "userId" ≠ "ctx"), user, expand_plain plain, World.printed]

/-- A caller whom the check lets in becomes the owner in the input. -/
theorem authorize_stamps {owner : String} {flags : List String}
    (told : w.context.identity = caller.identity config) (stamps : check.stamp = some owner)
    (word : Text.IsWord owner) (admitted : (AuthCheck.rules check).flagsFor caller = some flags) :
    ((authorize config (.rules check)).exec w s).Reaches fun t => t.args =
      s.args.put "input" ((s.args.field "input").put owner (subValue caller)) := by
  have unstamped : { check with stamp := none : RuleCheck }.stamp = none := rfl
  have decided := ruleCheck_exec (s := s) told unstamped
  have same : (AuthCheck.rules { check with stamp := none }).flagsFor caller = some flags :=
    admitted
  rw [same] at decided
  rw [authorize, ruleCheck_stamp, stamps]
  refine decided.andThen fun t deciding => ?_
  rw [Option.elim_some, stampOwner_exec word.plain deciding.user, deciding.same.args]
  exact .now rfl

end Decisions

end Template

/-! ### Creates -/

namespace Model

variable {m : Model} {scope : AccessScope} {caller : Caller}

/-- There is an access rule for creates. -/
def RulesCreate (m : Model) : Prop :=
  ∃ access, m.accessControl = some access ∧ access.rulesFor .create ≠ []

/-- A create lets in the callers to whom the rules grant it, an owner being any known caller. -/
theorem create_flagsFor_iff :
    ((m.authCheck .create scope).flagsFor caller).isSome = true ↔
      m.Grants .create caller fun _ => caller.isIdentified = true := by
  rw [grants_iff, grantsAny_iff]
  unfold authCheck GrantsOwner
  cases controlled : m.accessControl with
  | none => simp [AuthCheck.flagsFor]
  | some access =>
    have grouped := AccessControl.groupClausesFrom_any .create caller 0 access.rules
    simp only [reduceCtorEq, Option.some.injEq, exists_eq_left', false_or]
    by_cases unruled : access.rulesFor .create = []
    · have ownerless : access.hasOwnerRule .create = false := by
        simp [AccessControl.hasOwnerRule, unruled]
      cases policy : access.default <;> simp [unruled, ownerless, AuthCheck.flagsFor]
    · simp only [List.isEmpty_iff, unruled, if_false, false_and, false_or, AuthCheck.flagsFor]
      have granted : (∃ rule ∈ access.rulesFor .create, caller.isIn rule.groups = true) ↔ _ :=
        grouped.symm
      rw [granted]
      split
      · next member => simp [member]
      · next outside =>
        cases owned : m.ownerField <;> cases ruled : access.hasOwnerRule .create <;>
          cases known : caller.isIdentified <;> simp [outside]

theorem create_stamps {owner : String} (scope : AccessScope) (owned : m.ownerField = some owner)
    (ruled : m.RulesCreate) :
    ∃ check, m.authCheck .create scope = .rules check ∧ check.stamp = some owner := by
  obtain ⟨access, controlled, rules⟩ := ruled
  unfold authCheck
  rw [controlled]
  simp [rules, owned]

theorem create_unstamped (plain : m.ownerField = none ∨ ¬ m.RulesCreate) {check : RuleCheck}
    (rules : m.authCheck .create scope = .rules check) : check.stamp = none := by
  unfold authCheck at rules
  split at rules
  · cases rules
  · next access controlled =>
    split at rules
    · split at rules <;> cases rules
    · next ruled =>
      obtain rfl := AuthCheck.rules.inj rules
      have ruled : m.RulesCreate := ⟨access, controlled, by simpa using ruled⟩
      simpa [ruled] using plain

end Model

namespace Host

open Template

variable {m : Model} {field : RootField} {host : Host} {p : Progress}

/-- The request of an ungated resolver is refused to the callers whom its check gives no flags. -/
theorem ask_aborted_iff {plan : RequestPlan} {check : AuthCheck} (asked : plan.auth = some check)
    (ungated : plan.gate = none) :
    host.ask p plan = .aborted ↔ check.flagsFor host.call.caller = none := by
  have refuses := authorize_refuses (s := p.state) (host.told p .null) check
  have script : (ofRequest host.config plan).exec (host.world p .null) p.state =
      ((authorize host.config check).exec (host.world p .null) p.state).andThen
        ((perform host.config plan.operation).exec (host.world p .null)) := by
    simp [ofRequest, asked, ungated, nonEmpty, Script.exec_append, Action.perform]
  unfold ask
  rw [script]
  cases outcome : check.flagsFor host.call.caller with
  | none =>
    rw [outcome] at refuses
    simp [refuses]
  | some flags =>
    rw [outcome] at refuses
    have performs := perform_asks host.config plan.operation
    obtain ⟨t, ended, _⟩ :=
      refuses.andThen fun t _ => performs.exec_reaches (host.world p .null) t
    simp [ended]

end Host

end ApiLoom
