import ApiLoom.Proofs.BlindTemplates
import ApiLoom.Proofs.BrokenLines
import ApiLoom.Proofs.Courses
import ApiLoom.Proofs.DisciplinedResolvers

/-!
# Hooks

The functions around an operation are called and leave their results in the stash, where no
template of the operation looks.  A model with hooks decides, asks its store and answers as the
same model without them.
-/

namespace ApiLoom

open Template Template.Script

/-! ### Decisions leave the rest alone -/

namespace Template

namespace Script

/-- The script changes no other local variables than these. -/
def ChangesOnly (names : List String) (s : Script) : Prop := ∀ name ∈ s.changed, name ∈ names

section ChangesOnly

variable {names : List String} {s t : Script}

@[simp] theorem changesOnly_done : done.ChangesOnly names := by
  simp [ChangesOnly, changed]

@[simp] theorem changesOnly_append :
    (s ++ t).ChangesOnly names ↔ s.ChangesOnly names ∧ t.ChangesOnly names := by
  simp only [ChangesOnly, mem_changed_append, or_imp, forall_and]

@[simp] theorem changesOnly_acts {actions : List Action} :
    (acts actions).ChangesOnly names ↔ ∀ a ∈ actions, ∀ name ∈ a.changed, name ∈ names := by
  simp only [ChangesOnly, changed, actions_acts, loopVariables_acts, List.append_nil,
    List.mem_flatMap, forall_exists_index, and_imp]
  exact ⟨fun only a member name => only name a member,
    fun only name a member => only a member name⟩

@[simp] theorem changesOnly_when {c : Cond} :
    (when c s).ChangesOnly names ↔ s.ChangesOnly names := by
  simp [ChangesOnly, changed]

@[simp] theorem changesOnly_whenNot {term : Term} :
    (whenNot term s).ChangesOnly names ↔ s.ChangesOnly names := by
  simp [ChangesOnly, changed]

@[simp] theorem changesOnly_forEach {name : String} {items : Term} :
    (forEach name items s).ChangesOnly names ↔ name ∈ names ∧ s.ChangesOnly names := by
  simp only [ChangesOnly, changed, actions_forEach, loopVariables_forEach, List.mem_append,
    List.mem_cons]
  grind

theorem changesOnly_concat_map {α : Type} {f : α → Script}
    (each : ∀ x, (f x).ChangesOnly names) (xs : List α) :
    (concat (xs.map f)).ChangesOnly names := by
  induction xs with
  | nil => exact changesOnly_done
  | cons x rest ih => exact changesOnly_append.mpr ⟨each x, ih⟩

end ChangesOnly

end Script

section Decisions

variable {config : Config} {check : AuthCheck} {w : World} {s : State}

/-- The action takes part in a decision, and hands out nothing. -/
def Action.decides : Action → Bool
  | comment _ | set _ _ | run _ | leaveLoop | refuse => true
  | _ => false

theorem grantToGroups_decides (name : String) (items : Term) (groups : List String) :
    (grantToGroups name items groups).Only Action.decides := by
  simp [grantToGroups, Action.decides]

theorem debugNote_decides (key message : String) :
    (debugNote config key message).Only Action.decides := by
  unfold debugNote
  split <;> simp [Action.decides]

theorem authorize_decides (config : Config) (check : AuthCheck) :
    (authorize config check).Only Action.decides := by
  cases check with
  | allowAll reason => simp [authorize, Action.decides]
  | denyAll reason => simp [authorize, Action.decides]
  | rules check =>
    have clauses : (concat (check.groupClauses.map groupClause)).Only Action.decides :=
      only_concat_map (fun clause => by simp [groupClause, grantToGroups_decides, Action.decides]) _
    have owned (owner : OwnerClause) : (ownerClause owner).Only Action.decides := by
      cases flagged : OwnerMode.flag owner.mode <;> simp [ownerClause, flagged, Action.decides]
    simp only [authorize, ruleCheck, only_append, clauses, only_whenNot, debugNote_decides]
    cases check.ownerClause <;> cases check.stamp <;>
      simp [owned, stampOwner, Action.decides]

theorem grantToGroups_changes (items : Term) (groups : List String) :
    (grantToGroups "isAuthorized" items groups).ChangesOnly decisionLocals := by
  simp [grantToGroups, Action.changed, decisionLocals]

theorem debugNote_changes (key message : String) :
    (debugNote config key message).ChangesOnly decisionLocals := by
  unfold debugNote
  split <;> simp [Action.changed, Term.stashPut, Term.context]

theorem authorize_changes (config : Config) (check : AuthCheck) :
    (authorize config check).ChangesOnly decisionLocals := by
  cases check with
  | allowAll reason => simp [authorize, Action.changed]
  | denyAll reason => simp [authorize, Action.changed]
  | rules check =>
    have clauses : (concat (check.groupClauses.map groupClause)).ChangesOnly decisionLocals :=
      changesOnly_concat_map
        (fun clause => by simp [groupClause, grantToGroups_changes, Action.changed]) _
    have owned (owner : OwnerClause) : (ownerClause owner).ChangesOnly decisionLocals := by
      cases flagged : OwnerMode.flag owner.mode <;>
        simp [ownerClause, flagged, Action.changed, Term.stashPut, Term.context, decisionLocals]
    have begun (note : String) : (acts [.comment note, .set "isAuthorized" (.truth false),
        .set "userId" .caller, .set "userGroups" (callerGroups config)]).ChangesOnly
          decisionLocals := by
      simp [Action.changed, decisionLocals]
    simp only [authorize, ruleCheck, changesOnly_append, begun, clauses, changesOnly_whenNot,
      debugNote_changes]
    cases check.ownerClause <;> cases check.stamp <;>
      simp [owned, stampOwner, Action.changed, Term.arguments, Term.context]

theorem effect_apart (w : World) (s : State) (call : Term) :
    (s.effect w call).output = s.output ∧ (s.effect w call).filter = s.filter := by
  have changes (f : Value → Value) (of : Term) :
      (s.change f of).output = s.output ∧ (s.change f of).filter = s.filter := by
    unfold State.change
    split <;> exact ⟨rfl, rfl⟩
  unfold State.effect
  split
  · exact changes _ _
  · exact changes _ _
  · exact ⟨rfl, rfl⟩

/-- A decision leaves behind the variables that it works with, and hands out nothing. -/
theorem authorize_ends (config : Config) (check : AuthCheck) (w : World) (s : State) :
    ((authorize config check).exec w s).Ends fun t =>
      (t.output = s.output ∧ t.filter = s.filter) ∧
        ∀ name, name ∉ decisionLocals → t.local? name = s.local? name := by
  have apart : ((authorize config check).exec w s).Ends fun t =>
      t.output = s.output ∧ t.filter = s.filter := by
    refine exec_ends (fun a member t kept => ?_) (fun _ _ t v kept => kept) ⟨rfl, rfl⟩
    have decides := authorize_decides config check a member
    cases a with
    | run call =>
      obtain ⟨output, filter⟩ := effect_apart w t call
      exact ⟨output.trans kept.1, filter.trans kept.2⟩
    | comment text => exact kept
    | set name value => exact kept
    | leaveLoop => exact kept
    | refuse => trivial
    | _ => cases decides
  have locals (name : String) (outside : name ∉ decisionLocals) :=
    exec_local (w := w) (fun inside => outside (authorize_changes config check name inside)) s
  cases ended : (authorize config check).exec w s with
  | refused => trivial
  | failed message kind => trivial
  | next t | left t | stopped t =>
    rw [ended] at apart
    refine ⟨apart, fun name outside => ?_⟩
    have kept := locals name outside
    rwa [ended] at kept

end Decisions

end Template

/-! ### Stages side by side -/

/-- The stash entries that the hooks of an operation are kept in. -/
def hookKeys (operation : Operation) : List String :=
  [hookName .before operation ++ "Result", hookName .after operation ++ "Result"]

theorem hookKeys_thin (operation : Operation) :
    Veil.Thin ⟨decisionLocals, hookKeys operation⟩ ∧ Veil.Thin ⟨[], hookKeys operation⟩ := by
  have keys : ∀ key ∈ workingKeys, key ∉ hookKeys operation := by
    cases operation <;> decide
  exact ⟨⟨fun _ outside => outside, keys⟩, ⟨fun _ _ => List.not_mem_nil, keys⟩⟩

/-- No setting that templates write into a text has a reference in it. -/
structure Config.IsPlain (config : Config) : Prop where
  version : '$' ∉ config.templateVersion.toList
  identifier : '$' ∉ config.identifierField.toList
  updatedAt : '$' ∉ config.updatedAtField.toList

section Blind

variable {veil : Veil} {thin : veil.Thin} {config : Config}

theorem Config.IsPlain.obeys (plain : config.IsPlain) (thin : veil.Thin) :
    config.Obeys thin.discipline :=
  ⟨plain.identifier, plain.updatedAt, plain.version, trivial, fun _ _ => trivial⟩

/-- Where no decision about the caller is written, the templates of an exchange are as blind as its
plans. -/
theorem Exchange.Obeys.templates {e : Exchange} (obeys : e.Obeys thin.discipline)
    (settings : config.Obeys thin.discipline) (unasked : e.request.auth = none) :
    (ofRequest config e.request).Obeys thin.discipline ∧
      (ofResponse config e.response).Obeys thin.discipline := by
  have marked := obeys.request.operation.marked thin.marks
  refine ⟨ofRequest_obeys settings obeys.request marked fun check asked => ?_,
    ofResponse_obeys settings obeys.response⟩
  rw [unasked] at asked
  cases asked

end Blind

/-- No hook reports an error. -/
def Untroubled (answers : StageKind → Binding × Value → Answer) : Prop :=
  ∀ phase request, (answers (HookPhase.stageKind phase) request).error.isTrue = false

namespace Host

variable {host : Host} {answers : StageKind → Binding × Value → Answer} {p q : Progress}
  {keys locals : List String} {s : Stage}

theorem handOn_alike {veil : Veil} {w w' : World} {step step' : Template.Step}
    (met : veil.Meet w w' step step') :
    (handOn step).Alike (Progress.Matches veil.keys) (handOn step') := by
  cases met with
  | next covers => exact .handed ⟨⟨covers.args, covers.stash⟩, covers.output⟩
  | left covers => exact .handed ⟨⟨covers.args, covers.stash⟩, rfl⟩
  | stopped covers => exact .handed ⟨⟨covers.args, covers.stash⟩, rfl⟩
  | refused => exact .refused
  | failed message kind => exact .failed message kind

section Blind

variable {thin : Veil.Thin ⟨[], keys⟩}

theorem leave_alike {plan : ResponsePlan} (aligned : p.Aligned keys q)
    (blind : (ofResponse host.config plan).Obeys thin.discipline) (answer : Answer) :
    (host.leave p answer plan).Alike (Progress.Matches keys) (host.leave q answer plan) :=
  handOn_alike (Script.Obeys.meets blind (aligned.covers host [] answer))

/-- From requests that ended alike, the stage comes to the same. -/
theorem proceed_follows {w w' : World} {step step' : Template.Step} {previous previous' : Value}
    {s' : Stage} (met : Veil.Meet ⟨locals, keys⟩ w w' step step')
    (stored : s.binding.kind ≠ .function) (kind : s'.kind = s.kind)
    (bound : s'.binding = s.binding) (answered : s'.exchange.response = s.exchange.response)
    (blind : (ofResponse host.config s.exchange.response).Obeys thin.discipline) :
    (host.proceed answers previous s step).Follows (Progress.Matches keys)
      (host.proceed answers previous' s' step') := by
  cases met with
  | @next t t' covers =>
    have aligned : Progress.Aligned keys ⟨t.stash, t.args, previous⟩
        ⟨t'.stash, t'.args, previous'⟩ := ⟨covers.args, covers.stash⟩
    simp only [proceed, kind, bound, answered, covers.output]
    exact ⟨by simp [Course.atStores, stored], leave_alike aligned blind _⟩
  | left covers => exact ⟨rfl, handOn_alike (.left covers)⟩
  | stopped covers => exact ⟨rfl, handOn_alike (.stopped covers)⟩
  | refused => exact ⟨rfl, .refused⟩
  | failed message kind => exact ⟨rfl, .failed message kind⟩

/-- A stage of a store does not tell whether hooks were called before it. -/
theorem visit_follows (aligned : p.Aligned keys q) (stored : s.binding.kind ≠ .function)
    (request : (ofRequest host.config s.exchange.request).Obeys thin.discipline)
    (response : (ofResponse host.config s.exchange.response).Obeys thin.discipline) :
    (host.visit answers p s).Follows (Progress.Matches keys) (host.visit answers q s) :=
  proceed_follows (Script.Obeys.meets request (aligned.covers host [] ⟨.null, .null⟩)) stored rfl
    rfl rfl response

variable (thin) in
theorem visits_follow {stages : List Stage} (stored : ∀ s ∈ stages, s.binding.kind ≠ .function)
    (blind : ∀ s ∈ stages, (ofRequest host.config s.exchange.request).Obeys thin.discipline ∧
      (ofResponse host.config s.exchange.response).Obeys thin.discipline)
    (aligned : p.Aligned keys q) :
    (host.visits answers p stages).Follows (Progress.Aligned keys)
      (host.visits answers q stages) := by
  induction stages generalizing p q with
  | nil => exact ⟨rfl, .handed aligned⟩
  | cons s rest ih =>
    obtain ⟨request, response⟩ := blind s List.mem_cons_self
    refine (visit_follows aligned (stored s List.mem_cons_self) request response).andThen ?_
    intro u v matched
    exact ih (fun t later => stored t (List.mem_cons_of_mem _ later))
      (fun t later => blind t (List.mem_cons_of_mem _ later)) matched.toAligned

end Blind

/-! ### Calls of hooks -/

/-- A hook that reports no error is called, and leaves its result in the stash. -/
theorem functionStage_visit (host : Host) (untroubled : Untroubled answers) (p : Progress)
    {model fieldName function : String} {operation : Operation} {phase : HookPhase}
    (stage : s = functionStage model fieldName function operation phase) :
    ∃ body q, host.visit answers p s = ⟨[(Binding.forFunction function, body)], .handed q⟩ ∧
      p.Aligned (hookKeys operation) q ∧ (phase = .after → q.previous = p.previous) := by
  obtain ⟨plain, _⟩ := hookKey_apart phase operation
  obtain ⟨t, stash, args, asked⟩ : ∃ t, t.stash = p.stash ∧ t.args = p.args ∧
      host.enter p s.exchange.request = .next t := by
    rw [enter_eq_exec, ofRequest_open (by rw [stage]; rfl) (by rw [stage]; rfl), stage]
    exact ⟨_, rfl, rfl, rfl⟩
  let body := t.output
  let answer := answers s.kind (s.binding, body)
  let u : Progress := ⟨t.stash, t.args, p.previous⟩
  let kept := u.state.flag (hookName phase operation ++ "Result") answer.result
  have fine : (host.answeredWorld u answer).context.error.isTrue = false := by
    have kind : s.kind = HookPhase.stageKind phase := by rw [stage]; rfl
    exact congrArg (fun k => (answers k (s.binding, body)).error.isTrue) kind |>.trans
      (untroubled phase _)
  have answered : ∃ output, (phase = .after → output = p.previous) ∧
      host.leave u answer s.exchange.response = .handed ⟨kept.stash, u.args, output⟩ := by
    have shape : s.exchange.response.shape =
        .hookOutcome (hookName phase operation ++ "Result") phase := by rw [stage]; rfl
    have steady : (ofResponse host.config s.exchange.response).Steady :=
      ofResponse_steady (by simp [shape])
    rw [leave, execInPlace_of_steady steady, ofResponse_passes fine, shape]
    simp only [handOut, exec_acts_cons, exec_acts_nil, Action.perform, Step.next_andThen,
      effect_stashPut plain, eval_result, handOn]
    refine ⟨_, ?_, rfl⟩
    rintro rfl
    exact eval_previousResult (s := kept)
  obtain ⟨output, handed, answered⟩ := answered
  refine ⟨body, ⟨kept.stash, u.args, output⟩, ?_, ⟨args, fun key other => ?_⟩, handed⟩
  · rw [visit, asked, proceed, answered, stage]
    rfl
  · have apart : key ≠ hookName phase operation ++ "Result" := by
      rintro rfl
      cases phase <;> simp [hookKeys] at other
    exact (Entries.get?_put_of_ne apart _ _).trans (congrArg (Entries.get? · key) stash)

/-- Calls of functions alone make no difference to what follows. -/
theorem called_follows {alike : Progress → Progress → Prop} {sent : List (Binding × Value)}
    (functions : ∀ request ∈ sent, request.1.kind = .function) (same : alike p q) :
    (⟨[], .handed p⟩ : Course).Follows alike ⟨sent, .handed q⟩ :=
  ⟨List.filter_eq_nil_iff.mpr fun request member => by simp [functions request member],
    .handed same⟩

theorem hookStage_visits (host : Host) (untroubled : Untroubled answers) (p : Progress)
    (m : Model) (field : RootField) (phase : HookPhase) :
    ∃ sent q, host.visits answers p (m.hookStage field phase) = ⟨sent, .handed q⟩ ∧
      (∀ request ∈ sent, request.1.kind = .function) ∧
      p.Aligned (hookKeys field.operation) q ∧ (phase = .after → q.previous = p.previous) := by
  unfold Model.hookStage
  split
  · next function named =>
    let hook := functionStage m.name (Naming.rootField m.name field) function field.operation phase
    obtain ⟨body, q, called, aligned, kept⟩ :=
      functionStage_visit host untroubled p (Eq.refl hook)
    rw [visits_single, called]
    exact ⟨_, q, rfl, List.forall_mem_singleton.mpr rfl, aligned, kept⟩
  · exact ⟨[], p, rfl, List.forall_mem_nil _, .refl p, fun _ => rfl⟩

/-- What follows the run of the stages alone also follows it between the hooks. -/
theorem hooked_follows (untroubled : Untroubled answers) (m : Model) (field : RootField)
    {c : Course} {stages : List Stage}
    (between : ∀ q, p.Aligned (hookKeys field.operation) q →
      c.Follows (Progress.Matches (hookKeys field.operation)) (host.visits answers q stages)) :
    c.Follows (Progress.Matches (hookKeys field.operation)) (host.visits answers p
      (m.hookStage field .before ++ stages ++ m.hookStage field .after)) := by
  obtain ⟨sent, q, called, functions, aligned, _⟩ :=
    hookStage_visits host untroubled p m field .before
  have first : (⟨[], .handed p⟩ : Course).Follows
      (fun _ r => p.Aligned (hookKeys field.operation) r)
      (host.visits answers p (m.hookStage field .before)) :=
    called ▸ called_follows functions aligned
  have before : c.Follows (Progress.Matches (hookKeys field.operation))
      (host.visits answers p (m.hookStage field .before ++ stages)) := by
    rw [visits_append]
    exact first.andThen (f := fun _ => c) fun _ r => between r
  rw [visits_append, ← c.andThen_handed]
  refine before.andThen fun u v matched => ?_
  obtain ⟨later, r, called, functions, further, kept⟩ :=
    hookStage_visits host untroubled v m field .after
  rw [called]
  exact called_follows functions
    ⟨matched.toAligned.trans further, (kept rfl).trans matched.previous⟩

end Host

/-! ### Resolvers side by side -/

/-- The same model, but no functions run around its operations. -/
def Model.withoutHooks (m : Model) : Model := { m with hooks := Hooks.none }

theorem Binding.forModel_stored {m : Model} {cluster : Option Cluster} {config : Config}
    {binding : Binding} (bound : forModel m cluster config = .ok binding) :
    binding.kind ≠ .function := by
  rw [forModel_storeKind bound]
  cases m.engine <;> simp [EngineKind.storeKind]

namespace Model

variable {m : Model} {config : Config} {cluster : Option Cluster} {field : RootField}
  {binding : Binding}

theorem withoutHooks_hookStage (phase : HookPhase) : m.withoutHooks.hookStage field phase = [] := by
  unfold hookStage
  cases phase <;> cases field <;> rfl

theorem withoutHooks_isUnit : m.withoutHooks.isUnit field = !m.isGated field := by
  have gated : m.withoutHooks.isGated field = m.isGated field := rfl
  simp [isUnit, withoutHooks_hookStage, gated]

/-- Without hooks there is no pipeline but for the fetch of a record. -/
theorem withoutHooks_resolver (unlimited : m.isRateLimited = false)
    (bound : Binding.forModel m cluster config = .ok binding) {fetch : List Stage}
    (fetched : m.preFetchStage config field binding = .ok fetch) :
    m.withoutHooks.resolver config cluster field = .ok (if m.isGated field then
      m.withoutHooks.pipelineResolver config field binding fetch
    else m.unitResolver config field binding) := by
  have same : Binding.forModel m.withoutHooks cluster config = .ok binding := bound
  have free : m.withoutHooks.isRateLimited = false := unlimited
  have also : m.withoutHooks.preFetchStage config field binding = .ok fetch := fetched
  rw [resolver, same]
  simp only [resolverWith, free, withoutHooks_isUnit, also, Bool.false_and, Bool.false_eq_true,
    if_false, Bool.not_eq_true']
  cases m.isGated field <;> rfl

theorem preFetchStage_ungated (ungated : m.isGated field = false) :
    m.preFetchStage config field binding = .ok [] := by
  simp [preFetchStage, ungated]

theorem preFetchStage_binding {fetch : List Stage}
    (fetched : m.preFetchStage config field binding = .ok fetch) :
    ∀ s ∈ fetch, s.binding = binding := by
  cases gated : m.isGated field with
  | false =>
    obtain rfl := Except.ok.inj ((preFetchStage_ungated gated).symm.trans fetched)
    exact List.forall_mem_nil _
  | true =>
    obtain ⟨stage, _, _, _, rfl, _, _, bound, _⟩ := preFetchStage_gated gated fetched
    exact List.forall_mem_singleton.mpr bound

/-- A resolver beside the one without hooks: they are the same, or the hooks make a pipeline of a
unit resolver, or they come before and after the stages of a pipeline. -/
theorem resolver_withoutHooks {hooked : RootResolver} (unlimited : m.isRateLimited = false)
    (resolved : m.resolver config cluster field = .ok hooked) :
    ∃ binding bare, Binding.forModel m cluster config = .ok binding ∧
      m.withoutHooks.resolver config cluster field = .ok bare ∧
      (hooked = m.unitResolver config field binding ∧ bare = hooked ∨
        m.isGated field = false ∧ hooked = m.pipelineResolver config field binding [] ∧
          bare = m.unitResolver config field binding ∨
        ∃ fetch, m.preFetchStage config field binding = .ok fetch ∧
          hooked = m.pipelineResolver config field binding fetch ∧
          bare = m.withoutHooks.pipelineResolver config field binding fetch) := by
  obtain ⟨binding, bound, _, ⟨unit, rfl⟩ | ⟨_, fetch, fetched, rfl⟩⟩ := resolver_ok resolved
  · have ungated := isGated_of_isUnit unit
    have hookless := withoutHooks_resolver unlimited bound (preFetchStage_ungated ungated)
    rw [ungated] at hookless
    exact ⟨binding, _, bound, hookless, .inl ⟨rfl, rfl⟩⟩
  · have hookless := withoutHooks_resolver unlimited bound fetched
    cases gated : m.isGated field with
    | true =>
      rw [gated] at hookless
      exact ⟨binding, _, bound, hookless, .inr (.inr ⟨fetch, fetched, rfl, rfl⟩)⟩
    | false =>
      obtain rfl := Except.ok.inj ((preFetchStage_ungated gated).symm.trans fetched)
      rw [gated] at hookless
      exact ⟨binding, _, bound, hookless, .inr (.inl ⟨rfl, rfl, rfl⟩)⟩

end Model

namespace Host

variable {host : Host} {answers : StageKind → Binding × Value → Answer} {m : Model}
  {config : Config} {cluster : Option Cluster} {field : RootField} {binding : Binding}
  {check : AuthCheck} {p q : Progress}

/-- The caller is refused by the first request, or its decision leaves only its variables behind. -/
theorem authorize_settles (host : Host) (check : AuthCheck) (p : Progress) :
    (check.flagsFor host.call.caller = none ∧
      (authorize host.config check).exec (host.world p .null) p.state = .refused) ∨
    (check.flagsFor host.call.caller ≠ none ∧
      ((authorize host.config check).exec (host.world p .null) p.state).Reaches fun t =>
        (t.output = .null ∧ t.filter = none) ∧
          ∀ name, name ∉ decisionLocals → t.local? name = .null) := by
  have refuses := authorize_refuses (s := p.state) (host.told p .null) check
  have ends := authorize_ends host.config check (host.world p .null) p.state
  cases outcome : check.flagsFor host.call.caller with
  | none =>
    rw [outcome] at refuses
    exact .inl ⟨rfl, refuses⟩
  | some flags =>
    rw [outcome] at refuses
    obtain ⟨t, reached, -⟩ := refuses
    rw [reached] at ends
    exact .inr ⟨by simp, t, reached, ends⟩

/-- A request with a check decides about the caller, and then performs its operation. -/
theorem enter_checked {plan : RequestPlan} (asked : plan.auth = some check)
    (ungated : plan.gate = none) :
    host.enter p plan = ((authorize host.config check).exec (host.world p .null) p.state).andThen
      ((perform host.config plan.operation).exec (host.world p .null)) := by
  rw [enter_eq_exec]
  exact ofRequest_checked asked ungated

theorem enter_refused_iff {plan : RequestPlan} (asked : plan.auth = some check)
    (ungated : plan.gate = none) :
    host.enter p plan = .refused ↔ check.flagsFor host.call.caller = none := by
  rw [enter_checked asked ungated]
  rcases host.authorize_settles check p with ⟨refused, run⟩ | ⟨admitted, t, run, -⟩
  · simp [refused, run]
  · obtain ⟨u, performed, -⟩ :=
      (perform_asks host.config plan.operation).exec_reaches (host.world p .null) t
    simp [admitted, run, performed]

theorem leave_passThrough (q : Progress) {plan : ResponsePlan} (shape : plan.shape = .passThrough) :
    host.leave q ⟨q.previous, .null⟩ plan = .handed q := by
  have steady : (ofResponse host.config plan).Steady := ofResponse_steady (by simp [shape])
  rw [leave, execInPlace_of_steady steady, ofResponse_exec rfl, shape, handOut, exec_acts_cons,
    Action.perform, eval_result, Step.next_andThen, exec_acts_nil]
  rfl

/-- A pipeline hands out what its last stage handed on. -/
theorem carryOn_next (stages : List Stage) (t : State) :
    host.carryOn answers stages (m.pipelineExchange field check).response (.next t) =
      host.visits answers ⟨t.stash, t.args, t.output.field "payload"⟩ stages := by
  have passes (q : Progress) : host.leave q ⟨q.previous, .null⟩
      (m.pipelineExchange field check).response = .handed q := leave_passThrough q rfl
  simp [carryOn, passes]

/-- What follows the first request of a pipeline decides how two pipelines compare. -/
theorem carryOn_follows {keys : List String} {stages others : List Stage} {step : Template.Step}
    (next : ∀ u, (host.visits answers u stages).Follows (Progress.Matches keys)
      (host.visits answers u others)) :
    (host.carryOn answers stages (m.pipelineExchange field check).response step).Follows
      (Progress.Matches keys)
      (host.carryOn answers others (m.pipelineExchange field check).response step) := by
  cases step with
  | next t =>
    rw [carryOn_next, carryOn_next]
    exact next _
  | left t => exact ⟨rfl, .handed ⟨.refl _, rfl⟩⟩
  | stopped t => exact ⟨rfl, .handed ⟨.refl _, rfl⟩⟩
  | refused => exact ⟨rfl, .refused⟩
  | failed message kind => exact ⟨rfl, .failed message kind⟩

section Transparency

variable (untroubled : Untroubled answers) (decoded : m.IsDecoded) (plain : host.config.IsPlain)
  (unqueued : m.engine ≠ .queued) (stored : binding.kind ≠ .function)

include decoded plain unqueued stored in
/-- The stages of a store come to the same, whatever functions were called before them. -/
theorem staged_follows {fetch : List Stage}
    (fetched : m.preFetchStage host.config field binding = .ok fetch)
    (aligned : p.Aligned (hookKeys field.operation) q) :
    (host.visits answers p (fetch ++ [m.mainStage host.config field binding])).Follows
      (Progress.Matches (hookKeys field.operation))
      (host.visits answers q (fetch ++ [m.mainStage host.config field binding])) := by
  obtain ⟨_, thin⟩ := hookKeys_thin field.operation
  have settings := plain.obeys thin
  have main := decoded.mainExchange_obeys settings field fun queued => absurd queued unqueued
  obtain ⟨request, response⟩ := main.templates settings rfl
  have first : (host.visits answers p fetch).Follows
      (Progress.Aligned (hookKeys field.operation)) (host.visits answers q fetch) := by
    refine visits_follow thin (fun s member => ?_) (fun s member => ?_) aligned
    · rw [Model.preFetchStage_binding fetched s member]
      exact stored
    · obtain ⟨obeys, unasked⟩ := decoded.preFetchStage_obeys settings fetched s member
      exact obeys.templates settings unasked
  rw [visits_append, visits_append]
  refine first.andThen fun u v aligned => ?_
  rw [visits_single, visits_single]
  exact visit_follows aligned stored request response

include untroubled decoded plain unqueued stored in
/-- A pipeline with hooks follows the pipeline without them. -/
theorem attend_gated {fetch : List Stage}
    (fetched : m.preFetchStage host.config field binding = .ok fetch) :
    (host.attend answers (m.withoutHooks.pipelineResolver host.config field binding fetch)).Follows
      (Progress.Matches (hookKeys field.operation))
      (host.attend answers (m.pipelineResolver host.config field binding fetch)) := by
  simp only [attend, Model.pipelineResolver, Model.withoutHooks_hookStage, List.nil_append,
    List.append_nil]
  refine carryOn_follows fun u => ?_
  rw [List.append_assoc (m.hookStage field .before)]
  exact hooked_follows untroubled m field fun q =>
    staged_follows decoded plain unqueued stored fetched

include decoded plain unqueued stored in
/-- The main stage of a pipeline does as a unit resolver that has decided about the caller. -/
theorem mainStage_follows (ungated : m.isGated field = false) {t : State}
    (output : t.output = .null) (filter : t.filter = none)
    (locals : ∀ name, name ∉ decisionLocals → t.local? name = .null) {previous : Value}
    (aligned : (⟨t.stash, t.args, previous⟩ : Progress).Aligned (hookKeys field.operation) q) :
    (host.proceed answers host.start.previous
        ⟨Naming.rootField m.name field, .main, binding,
          (m.unitResolver host.config field binding).exchange⟩
        ((perform host.config (m.mainExchange host.config field).request.operation).exec
          (host.world host.start .null) t)).Follows
      (Progress.Matches (hookKeys field.operation))
      (host.visit answers q (m.mainStage host.config field binding)) := by
  obtain ⟨dirty, thin⟩ := hookKeys_thin field.operation
  have main := decoded.mainExchange_obeys (plain.obeys thin) field
    fun queued => absurd queued unqueued
  obtain ⟨_, response⟩ := main.templates (plain.obeys thin) rfl
  have asked := decoded.mainOperation_obeys (plain.obeys dirty) field (m.isGated field)
    fun queued => absurd queued unqueued
  have request := perform_obeys (plain.obeys dirty) asked (asked.marked dirty.marks)
  have ungate : (m.mainExchange host.config field).request.gate = none := by
    simp [Model.mainExchange, ungated]
  have covers : Veil.Covers ⟨decisionLocals, hookKeys field.operation⟩
      (host.world host.start .null) (host.world q .null) t q.state :=
    ⟨⟨q.previous, rfl⟩, aligned.args, output.symm, filter.symm, aligned.stash,
      fun name outside => (locals name outside).symm⟩
  have met := Script.Obeys.meets request covers
  simp only [execInPlace_of_steady (perform_steady _)] at met
  rw [visit, enter_eq_exec, Model.mainStage, ofRequest_open rfl ungate]
  exact proceed_follows met stored rfl rfl rfl response

include untroubled decoded plain unqueued stored in
/-- A pipeline with hooks alone follows the unit resolver without them: its first request decides
about the caller, and its main stage performs the operation. -/
theorem attend_ungated (ungated : m.isGated field = false) :
    (host.attend answers (m.unitResolver host.config field binding)).Follows
      (Progress.Matches (hookKeys field.operation))
      (host.attend answers (m.pipelineResolver host.config field binding [])) := by
  let check := m.authCheck field.operation field.scope
  let w := host.world host.start .null
  have ungate : (m.mainExchange host.config field).request.gate = none := by
    simp [Model.mainExchange, ungated]
  have alone : host.enter host.start (m.unitResolver host.config field binding).exchange.request =
      ((authorize host.config check).exec w host.start.state).andThen
        ((perform host.config (m.mainExchange host.config field).request.operation).exec w) :=
    enter_checked rfl ungate
  have ahead : host.enter host.start (m.pipelineExchange field check).request =
      ((authorize host.config check).exec w host.start.state).andThen
        ((perform host.config (.noOp none)).exec w) :=
    enter_checked rfl rfl
  have unit : host.attend answers (m.unitResolver host.config field binding) =
      host.proceed answers host.start.previous
        ⟨Naming.rootField m.name field, .main, binding,
          (m.unitResolver host.config field binding).exchange⟩
        (host.enter host.start (m.unitResolver host.config field binding).exchange.request) := rfl
  have staged : host.attend answers (m.pipelineResolver host.config field binding []) =
      host.carryOn answers (m.hookStage field .before ++ [m.mainStage host.config field binding] ++
          m.hookStage field .after) (m.pipelineExchange field check).response
        (host.enter host.start (m.pipelineExchange field check).request) := by
    simp only [attend, Model.pipelineResolver, List.append_nil]
    rfl
  rw [unit, staged, alone, ahead]
  rcases host.authorize_settles check host.start with
    ⟨-, refused⟩ | ⟨-, t, decided, ⟨output, filter⟩, locals⟩
  · rw [refused]
    exact ⟨rfl, .refused⟩
  · obtain ⟨payload, begun⟩ : ∃ payload, (perform host.config (.noOp none)).exec w t =
        .next (t.handOut payload) := ⟨_, rfl⟩
    rw [decided, Step.next_andThen, Step.next_andThen, begun, carryOn_next]
    refine hooked_follows untroubled m field fun q aligned => ?_
    rw [visits_single]
    exact mainStage_follows decoded plain unqueued stored ungated output filter locals aligned

end Transparency

/-- A unit resolver asks no function. -/
theorem attend_unit (host : Host) (answers : StageKind → Binding × Value → Answer) (m : Model)
    (field : RootField) (stored : binding.kind ≠ .function) :
    (host.attend answers (m.unitResolver config field binding)).atStores =
      (host.attend answers (m.unitResolver config field binding)).sent := by
  have asks (s : Stage) (previous : Value) (step : Template.Step) (bound : s.binding = binding) :
      (host.proceed answers previous s step).atStores =
        (host.proceed answers previous s step).sent := by
    cases step <;> simp [proceed, Course.atStores, bound, stored]
  exact asks _ _ _ rfl

end Host

/-- Hooks that report no error make no difference: with them and without them, the same callers are
refused, the stores are asked for the same, and the same is handed out. -/
theorem hooks_transparent {config : Config} {m : Model} {cluster : Option Cluster}
    {field : RootField} {hooked : RootResolver} (decoded : m.IsDecoded) (plain : config.IsPlain)
    (unlimited : m.isRateLimited = false)
    (resolved : m.resolver config cluster field = .ok hooked) :
    ∃ bare, m.withoutHooks.resolver config cluster field = .ok bare ∧
      ∀ (host : Host) (answers : StageKind → Binding × Value → Answer), host.config = config →
        Untroubled answers →
          (host.enter host.start hooked.exchange.request = .refused ↔
            host.enter host.start bare.exchange.request = .refused) ∧
          (host.attend answers hooked).atStores = (host.attend answers bare).sent ∧
          (host.attend answers hooked).returned = (host.attend answers bare).returned := by
  have unqueued : m.engine ≠ .queued := fun queued => by
    simp [Model.isRateLimited, queued] at unlimited
  obtain ⟨binding, bare, bound, hookless, sides⟩ := Model.resolver_withoutHooks unlimited resolved
  obtain ⟨asked, ungated⟩ := Model.resolver_request resolved
  obtain ⟨asks, unstopped⟩ := Model.resolver_request hookless
  have stored := Binding.forModel_stored bound
  refine ⟨bare, hookless, fun host answers configured untroubled => ⟨?_, ?_⟩⟩
  · rw [Host.enter_refused_iff asked ungated, Host.enter_refused_iff asks unstopped]
    rfl
  · subst configured
    rcases sides with ⟨rfl, rfl⟩ | ⟨free, rfl, rfl⟩ | ⟨fetch, fetched, rfl, rfl⟩
    · exact ⟨host.attend_unit answers m field stored, rfl⟩
    · have follows := Host.attend_ungated untroubled decoded plain unqueued stored free
      exact ⟨follows.sent, follows.returned⟩
    · have follows := Host.attend_gated untroubled decoded plain unqueued stored fetched
      exact ⟨follows.sent, follows.returned⟩

/-- A draft that its author may write, with functions around each write. -/
def hookedDraft (function : String) : Value := .object [
  ("name", .text "Draft"),
  ("properties", .object [
    ("id", .object [("type", .text "ID")]),
    ("author", .object [("type", .text "String"), ("isOwner", .bool true)]),
    ("title", .object [("type", .text "String")])]),
  ("dataSource", .object [("type", .text "database"), ("engine", .text "nosql")]),
  ("accessControl", .object [("rules", .list [
    .object [("allow", .text "create"), ("owner", .bool true)],
    .object [("allow", .text "update"), ("owner", .bool true)]])]),
  ("hooks", .object [("beforeCreate", .text function), ("beforeUpdate", .text function),
    ("afterUpdate", .text "notify")])]

/-- Ann writes a draft of hers. -/
def annDrafts (config : Config) : Host where
  config := config
  library := ⟨fun _ _ _ => .null, .text, fun _ => ""⟩
  call := ⟨⟨some "ann", none⟩, .object [("input", .object [("id", .text "d1")])], .null, .null⟩
  reply := fun _ => .null

/-- The stored draft is Ann's, and the functions return a text. -/
def draftAnswers : StageKind → Binding × Value → Answer
  | .preFetch, _ => ⟨.object [("id", .text "d1"), ("author", .text "ann")], .null⟩
  | _, _ => ⟨.text "seen", .null⟩

theorem draftAnswers_untroubled : Untroubled draftAnswers := by
  intro phase request
  cases phase <;> rfl

theorem hooks_transparent_hookedDraft :
    ∃ m hooked bare, Model.decode (hookedDraft "audit") = .ok m ∧
      m.resolver .default none .update = .ok hooked ∧
      m.withoutHooks.resolver .default none .update = .ok bare ∧
      hooked.stages.map (·.kind) = [.beforeHook, .preFetch, .main, .afterHook] ∧
      bare.stages.map (·.kind) = [.preFetch, .main] ∧
      ((annDrafts .default).attend draftAnswers hooked).atStores =
        ((annDrafts .default).attend draftAnswers bare).sent ∧
      ((annDrafts .default).attend draftAnswers bare).sent.length = 2 ∧
      ((annDrafts .default).attend draftAnswers hooked).returned = .handed (.text "seen") := by
  obtain ⟨m, hooked, bare, read, unlimited, resolved, hookless, stages, fewer, asks, hands⟩ :
      ∃ m hooked bare, Model.decode (hookedDraft "audit") = .ok m ∧ m.isRateLimited = false ∧
        m.resolver .default none .update = .ok hooked ∧
        m.withoutHooks.resolver .default none .update = .ok bare ∧
        hooked.stages.map (·.kind) = [.beforeHook, .preFetch, .main, .afterHook] ∧
        bare.stages.map (·.kind) = [.preFetch, .main] ∧
        ((annDrafts .default).attend draftAnswers bare).sent.length = 2 ∧
        ((annDrafts .default).attend draftAnswers bare).returned = .handed (.text "seen") :=
    ⟨_, _, _, rfl, rfl, rfl, rfl, rfl, rfl, by decide +kernel, by decide +kernel⟩
  have plain : Config.default.IsPlain := ⟨by decide, by decide, by decide⟩
  obtain ⟨also, made, same⟩ := hooks_transparent ⟨_, read⟩ plain unlimited resolved
  obtain rfl := Except.ok.inj (made.symm.trans hookless)
  obtain ⟨_, sent, returned⟩ := same (annDrafts .default) draftAnswers rfl draftAnswers_untroubled
  exact ⟨m, hooked, also, read, resolved, hookless, stages, fewer, sent, asks,
    returned.trans hands⟩

/-- Ann's write asks the store for something else when the functions of the model are called. -/
def HooksShow (config : Config) (field : RootField) : Prop :=
  ∃ m hooked bare, Model.decode (hookedDraft "audit") = .ok m ∧ m.isRateLimited = false ∧
    m.resolver config none field = .ok hooked ∧
    m.withoutHooks.resolver config none field = .ok bare ∧ Untroubled draftAnswers ∧
    ((annDrafts config).attend draftAnswers hooked).atStores ≠
      ((annDrafts config).attend draftAnswers bare).sent

/-- The template that calls a function of the model has this line, or has it within a line, and Ann
is not refused when no function is called. -/
def HookWrites (function line : String) : Prop :=
  ∃ m hooked bare s, Model.decode (hookedDraft function) = .ok m ∧
    m.resolver .default none .create = .ok hooked ∧ s ∈ hooked.stages ∧
    (∃ l ∈ (ofRequest .default s.exchange.request).lines, l = line ∨ Text.HasLine line l) ∧
    m.withoutHooks.resolver .default none .create = .ok bare ∧
    ∃ t, (annDrafts .default).enter (annDrafts .default).start bare.exchange.request = .next t

/-- A setting in a text of the operation can refer to what a hook returned, and the name of a
function can bring a line or a call into the template that calls it. -/
theorem hooks_show :
    HooksShow { Config.default with templateVersion := "$ctx.stash.beforeCreateResult" } .create ∧
      HooksShow { Config.default with identifierField := "$ctx.stash.beforeCreateResult" }
        .create ∧
      HooksShow { Config.default with updatedAtField := "$ctx.stash.beforeUpdateResult" }
        .update ∧
      HookWrites "a\n$util.unauthorized()\nb" "$util.unauthorized()" ∧
      HookWrites "$util.unauthorized()" "    \"function\": \"$util.unauthorized()\"," := by
  have untroubled := draftAnswers_untroubled
  refine ⟨⟨_, _, _, rfl, rfl, rfl, rfl, untroubled, by decide +kernel⟩,
    ⟨_, _, _, rfl, rfl, rfl, rfl, untroubled, by decide +kernel⟩,
    ⟨_, _, _, rfl, rfl, rfl, rfl, untroubled, by decide +kernel⟩, ?_, ?_⟩
  · have held : Text.HasLine "$util.unauthorized()" "a\n$util.unauthorized()\nb" :=
      ⟨['a'], ['b'], by decide⟩
    let plan := (functionStage "Draft" "createDraft" "a\n$util.unauthorized()\nb" .create
      .before).exchange.request
    have described : "## " ++ plan.description ∈ (ofRequest .default plan).lines :=
      description_mem plan
    exact ⟨_, _, _, _, rfl, rfl, List.mem_cons_self,
      ⟨_, described, .inr (((held.before _).behind _).before _)⟩, rfl, _, rfl⟩
  · exact ⟨_, _, _, _, rfl, rfl, List.mem_cons_self, ⟨_, by decide +kernel, .inl rfl⟩, rfl, _, rfl⟩

end ApiLoom
