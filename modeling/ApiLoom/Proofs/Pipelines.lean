import ApiLoom.Proofs.CreateRequests
import ApiLoom.Proofs.Provisional
import ApiLoom.Proofs.Sent

/-!
# The shape of resolvers

The operation of a root field runs alone, unless a function runs around it or the
owner of the stored record decides about it.  Then it is one of several stages,
which all come after one decision about the caller.
-/

namespace ApiLoom

open Template Script

/-! ### What calls for stages -/

namespace Model

variable {m : Model} {field : RootField}

/-- The function that runs in a phase of the field. -/
def hook? (m : Model) (field : RootField) (phase : HookPhase) : Option String :=
  nonEmpty (m.hooks.hookFor phase field.operation)

/-- The owner of the stored record decides who may change it. -/
def IsOwned (m : Model) (field : RootField) : Prop :=
  (field = .update ∨ field = .delete) ∧ m.ownerField.isSome = true ∧
    ∃ access, m.accessControl = some access ∧ access.hasOwnerRule field.operation = true

/-- Nothing runs before or after the operation of the field. -/
def IsDirect (m : Model) (field : RootField) : Prop :=
  m.hook? field .before = none ∧ m.hook? field .after = none ∧ ¬ m.IsOwned field

theorem isGated_iff : m.isGated field = true ↔ m.IsOwned field := by
  have guarded (operation : Operation) (fetched : operation ∈ Review.fetchedOperations) :
      (m.guardedOwner operation).isSome = true ↔ m.ownerField.isSome = true ∧
        ∃ access, m.accessControl = some access ∧ access.hasOwnerRule operation = true := by
    simp only [Option.isSome_iff_exists, guardedOwner_eq_some_iff, fetched, true_and]
    exact exists_and_right
  cases field with
  | update => exact (guarded .update (by decide)).trans (by simp [IsOwned, RootField.operation])
  | delete => exact (guarded .delete (by decide)).trans (by simp [IsOwned, RootField.operation])
  | get | list | create => simp [IsOwned, isGated, RootField.operation]

instance : Decidable (m.IsOwned field) := decidable_of_iff _ isGated_iff

theorem isGated_eq : m.isGated field = decide (m.IsOwned field) := by
  rw [Bool.eq_iff_iff, decide_eq_true_iff, isGated_iff]

theorem isUnit_iff : m.isUnit field = true ↔ m.IsDirect field := by
  have idle (phase : HookPhase) :
      (m.hookStage field phase).isEmpty = true ↔ m.hook? field phase = none := by
    unfold hookStage hook?
    split <;> simp [*]
  simp only [isUnit, Bool.and_eq_true, idle, isGated_eq, Bool.not_eq_true', decide_eq_false_iff_not,
    IsDirect, and_assoc]

end Model

/-! ### Guards of writes -/

/-- The owner property that a write compares with the caller. -/
def DataOperation.ownerGuard? : DataOperation → Option String
  | updateItem u => u.ownerGuard
  | deleteItem _ _ owner => owner
  | sql s => s.ownerGuard
  | _ => none

/-- The statement changes rows. -/
def SqlStatement.isWrite : SqlStatement → Bool
  | select .. => false
  | insert .. | update .. | delete .. => true

/-- Of the statements, those that change rows take another condition exactly where there is
an owner to ask for. -/
def SqlStatements.GuardsWrites (s : SqlStatements) : Prop :=
  ∃ statements : List SqlStatement, s.statements = statements.map SqlStatement.text ∧
    ∀ st ∈ statements, st.isWrite = true → st.isGuarded = s.ownerGuard.isSome

namespace Model

variable {m : Model} {config : Config} {cluster : Option Cluster} {field : RootField}
  {binding : Binding}

theorem mainOperation_ownerGuard (config : Config) (stored : m.engine.isStored = true) :
    (m.mainOperation config field (m.isGated field)).1.ownerGuard? =
      if m.IsOwned field then m.ownerField else none := by
  have unowned (idle : field ≠ .update ∧ field ≠ .delete) : ¬ m.IsOwned field :=
    fun owned => owned.1.elim idle.1 idle.2
  unfold mainOperation
  cases engine : m.engine with
  | document =>
    cases field with
    | get | list | create => rw [if_neg (unowned (by decide))]; rfl
    | update | delete =>
      simp [documentMain, DataOperation.ownerGuard?, ownerGuard, isGated_eq]
  | relational =>
    cases field with
    | get | list | create => rw [if_neg (unowned (by decide))]; rfl
    | update | delete =>
      simp [relationalMain, sqlUpdate, sqlDelete, DataOperation.ownerGuard?, ownerGuard, isGated_eq]
  | http | queued => simp [engine, EngineKind.isStored] at stored

theorem mainOperation_guardsWrites {s : SqlStatements} {gated : Bool}
    (queries : (m.mainOperation config field gated).1 = .sql s) : s.GuardsWrites := by
  unfold mainOperation at queries
  cases engine : m.engine with
  | document => cases field <;> simp [engine, documentMain] at queries
  | http => cases field <;> simp [engine, httpMain] at queries
  | queued => simp [engine, queuedMain] at queries
  | relational =>
    simp only [engine] at queries
    cases field with
    | get =>
      obtain rfl := DataOperation.sql.inj queries
      exact ⟨[m.selectByKey config], rfl, by simp [selectByKey, SqlStatement.isWrite]⟩
    | list =>
      obtain rfl := DataOperation.sql.inj queries
      exact ⟨[.select (Naming.tableName m.name) none false .page], rfl,
        by simp [SqlStatement.isWrite]⟩
    | create =>
      obtain rfl := DataOperation.sql.inj queries
      exact ⟨[.insert (Naming.tableName m.name) (m.insertColumns config), m.selectByKey config],
        rfl, by
          simp [SqlStatement.isGuarded, selectByKey, SqlStatement.isWrite, sqlInsert, statements]⟩
    | update =>
      obtain rfl := DataOperation.sql.inj queries
      exact ⟨[.update (Naming.tableName m.name) (m.updateAssignments config) config.identifierField
          (m.ownerGuard gated).isSome, m.selectByKey config], rfl,
        by simp [SqlStatement.isGuarded, selectByKey, SqlStatement.isWrite, sqlUpdate]⟩
    | delete =>
      obtain rfl := DataOperation.sql.inj queries
      exact ⟨[.select (Naming.tableName m.name) (some config.identifierField)
          (m.ownerGuard gated).isSome .all,
          .delete (Naming.tableName m.name) config.identifierField (m.ownerGuard gated).isSome],
        rfl, by simp [SqlStatement.isGuarded, SqlStatement.isWrite, sqlDelete]⟩

end Model

/-! ### What resolvers consist of -/

/-- The request begins with the check of the caller, and goes on to its operation. -/
def RequestPlan.OpensWith (config : Config) (check : AuthCheck) (plan : RequestPlan) : Prop :=
  (ofRequest config plan).lines = ("## " ++ plan.description) ::
    ((authorize config check).lines ++ (perform config plan.operation).lines)

/-- Nothing in the request refuses the caller or lets it in provisionally. -/
def RequestPlan.Undecided (config : Config) (plan : RequestPlan) : Prop :=
  plan.auth = none ∧ Action.refuse ∉ (ofRequest config plan).actions ∧
    ∀ flag ∈ decisionFlags, (ofRequest config plan).Spares flag

namespace Model

/-- The operation waits for the confirmation of the owner, and its write asks for the owner once
more, exactly where the owner decides. -/
structure Performs (m : Model) (config : Config) (field : RootField) (plan : RequestPlan) :
    Prop where
  asks : plan.operation = (m.mainOperation config field (m.isGated field)).1
  waits : plan.gate = if m.IsOwned field then some ownershipConfirmed else none
  guards : m.engine.isStored = true →
    plan.operation.ownerGuard? = if m.IsOwned field then m.ownerField else none
  statements : ∀ s, plan.operation = .sql s → s.GuardsWrites

/-- The request of the resolver performs the operation itself, right after the check. -/
structure RunsAlone (m : Model) (config : Config) (field : RootField) (binding : Binding)
    (r : RootResolver) : Prop where
  unstaged : r.stages = []
  bound : r.execution.binding = some binding
  checks : r.exchange.request.OpensWith config (m.authCheck field.operation field.scope)
  performs : m.Performs config field r.exchange.request

/-- The stages of a field, each where something calls for it. -/
def pipelineKinds (m : Model) (field : RootField) : List StageKind :=
  (if (m.hook? field .before).isSome then [.beforeHook] else []) ++
    (if m.IsOwned field then [.preFetch] else []) ++ [.main] ++
    (if (m.hook? field .after).isSome then [.afterHook] else [])

/-- The request of the resolver checks the caller and asks no store; its stages then run the
functions, fetch the stored record, and perform the operation. -/
structure RunsStages (m : Model) (config : Config) (field : RootField) (binding : Binding)
    (r : RootResolver) : Prop where
  unbound : r.execution.binding = none
  kinds : r.stages.map (·.kind) = m.pipelineKinds field
  checks : r.exchange.request.OpensWith config (m.authCheck field.operation field.scope)
  idle : r.exchange.request.operation = .noOp none
  undecided : ∀ s ∈ r.stages, s.exchange.request.Undecided config
  hooks : ∀ s ∈ r.stages, ∀ phase : HookPhase, s.kind = phase.stageKind →
    ∃ function, m.hook? field phase = some function ∧ s.binding = .forFunction function ∧
      s.exchange.request.operation =
        .invokeHook (hookName phase field.operation) function m.name phase
  fetches : ∀ s ∈ r.stages, s.kind = .preFetch → s.binding = binding ∧
    ∃ key source, m.fetchByKey config key = .ok (s.exchange.request.operation, source)
  performs : ∀ s ∈ r.stages, s.kind = .main → s.binding = binding ∧
    m.Performs config field s.exchange.request

end Model

/-! ### Requests -/

section Requests

variable {config : Config} {plan : RequestPlan} {check : AuthCheck}

theorem RequestPlan.opensWith (asked : plan.auth = some check) (ungated : plan.gate = none) :
    plan.OpensWith config check := by
  have spelled : ofRequest config plan = acts [.comment plan.description] ++
      authorize config check ++ done ++ perform config plan.operation := by
    simp only [ofRequest, asked, ungated, nonEmpty, Option.filter_none]
  rw [OpensWith, spelled, lines_append, lines_append, lines_append]
  simp [Script.acts, Script.lines, Action.lines]

theorem RequestPlan.undecided (unasked : plan.auth = none)
    (keeps : ∀ key ∈ operationKeys plan.operation, key ∈ otherKeys) : plan.Undecided config := by
  refine ⟨unasked, fun refuses => ?_, fun flag decides => unasked_spares unasked keeps decides⟩
  simp only [ofRequest, unasked, actions_append, actions_acts, List.mem_append,
    List.mem_singleton, reduceCtorEq, false_or, actions_done, List.append_nil] at refuses
  rcases refuses with gate | performed
  · cases gated : nonEmpty plan.gate <;> simp [gated] at gate
  · cases perform_asks config plan.operation _ performed

end Requests

/-! ### Stages -/

namespace Model

variable {m : Model} {config : Config} {cluster : Option Cluster} {field : RootField}
  {binding : Binding} {s : Stage}

theorem hookStage_kinds (phase : HookPhase) : (m.hookStage field phase).map (·.kind) =
    if (m.hook? field phase).isSome then [phase.stageKind] else [] := by
  unfold hookStage hook?
  split <;> simp [*, functionStage]

theorem preFetchStage_kinds {fetch : List Stage}
    (fetched : m.preFetchStage config field binding = .ok fetch) :
    fetch.map (·.kind) = if m.IsOwned field then [.preFetch] else [] := by
  cases gated : m.isGated field with
  | false =>
    obtain rfl : [] = fetch := by simpa [preFetchStage, gated] using fetched
    rw [if_neg fun owned => by simp [isGated_iff.mpr owned] at gated]
    rfl
  | true =>
    obtain ⟨stage, _, _, _, rfl, _, kind, _⟩ := preFetchStage_gated gated fetched
    rw [if_pos (isGated_iff.mp gated), List.map_singleton, kind]

theorem mainExchange_performs (m : Model) (config : Config) (field : RootField) :
    m.Performs config field (m.mainExchange config field).request where
  asks := rfl
  waits := by simp [mainExchange, isGated_eq]
  guards := mainOperation_ownerGuard config
  statements := fun _ => mainOperation_guardsWrites

/-- What a stage is that runs before or after the operation, or performs it. -/
inductive IsStage (m : Model) (config : Config) (field : RootField) (binding : Binding) :
    Stage → Prop where
  | hook {phase : HookPhase} {function : String} (named : m.hook? field phase = some function) :
    IsStage m config field binding
      (functionStage m.name (Naming.rootField m.name field) function field.operation phase)
  | fetch {s : Stage} {key : String} {source : RecordSource} (kind : s.kind = .preFetch)
    (bound : s.binding = binding) (unasked : s.exchange.request.auth = none)
    (found : m.fetchByKey config key = .ok (s.exchange.request.operation, source)) :
    IsStage m config field binding s
  | main : IsStage m config field binding (m.mainStage config field binding)

theorem hookStage_isStage {phase : HookPhase} (member : s ∈ m.hookStage field phase) :
    m.IsStage config field binding s := by
  obtain ⟨function, filled, named, rfl⟩ := mem_hookStage member
  exact .hook (nonEmpty_eq_some_iff.mpr ⟨named, filled⟩)

theorem preFetchStage_isStage {fetch : List Stage}
    (fetched : m.preFetchStage config field binding = .ok fetch) (member : s ∈ fetch) :
    m.IsStage config field binding s := by
  cases gated : m.isGated field with
  | false =>
    obtain rfl : [] = fetch := by simpa [preFetchStage, gated] using fetched
    cases member
  | true =>
    obtain ⟨stage, key, operation, source, rfl, found, kind, bound, asks, unasked, _⟩ :=
      preFetchStage_gated gated fetched
    obtain rfl := List.mem_singleton.mp member
    exact .fetch kind bound unasked (asks ▸ found)

theorem pipelineResolver_isStage {fetch : List Stage}
    (fetched : m.preFetchStage config field binding = .ok fetch)
    (staged : s ∈ (m.pipelineResolver config field binding fetch).stages) :
    m.IsStage config field binding s := by
  simp only [pipelineResolver, RootResolver.stages, Execution.stages, List.mem_append,
    List.mem_singleton] at staged
  rcases staged with ((before | fetching) | rfl) | after
  · exact hookStage_isStage before
  · exact preFetchStage_isStage fetched fetching
  · exact .main
  · exact hookStage_isStage after

namespace IsStage

theorem undecided (stage : m.IsStage config field binding s) :
    s.exchange.request.Undecided config := by
  cases stage with
  | hook named => exact RequestPlan.undecided rfl (by intro key none; cases none)
  | fetch kind bound unasked found =>
    refine RequestPlan.undecided unasked fun key kept => ?_
    rw [fetchByKey_keeps found] at kept
    cases kept
  | main => exact RequestPlan.undecided rfl (mainOperation_keeps config _)

theorem runs (stage : m.IsStage config field binding s) {phase : HookPhase}
    (kind : s.kind = phase.stageKind) :
    ∃ function, m.hook? field phase = some function ∧ s.binding = .forFunction function ∧
      s.exchange.request.operation =
        .invokeHook (hookName phase field.operation) function m.name phase := by
  cases stage with
  | @hook own function named =>
    obtain rfl : own = phase := by cases own <;> cases phase <;> first | rfl | cases kind
    exact ⟨function, named, rfl, rfl⟩
  | fetch fetches => rw [fetches] at kind; cases phase <;> cases kind
  | main => cases phase <;> cases kind

theorem fetches (stage : m.IsStage config field binding s) (kind : s.kind = .preFetch) :
    s.binding = binding ∧
      ∃ key source, m.fetchByKey config key = .ok (s.exchange.request.operation, source) := by
  cases stage with
  | @hook phase => cases phase <;> cases kind
  | fetch _ bound _ found => exact ⟨bound, _, _, found⟩
  | main => cases kind

theorem eq_main (stage : m.IsStage config field binding s) (kind : s.kind = .main) :
    s = m.mainStage config field binding := by
  cases stage with
  | @hook phase => cases phase <;> cases kind
  | fetch fetches => rw [fetches] at kind; cases kind
  | main => rfl

theorem performs (stage : m.IsStage config field binding s) (kind : s.kind = .main) :
    s.binding = binding ∧ m.Performs config field s.exchange.request := by
  obtain rfl := stage.eq_main kind
  exact ⟨rfl, mainExchange_performs m config field⟩

end IsStage

/-! ### Resolvers -/

theorem unitResolver_runsAlone (unit : m.isUnit field = true) :
    m.RunsAlone config field binding (m.unitResolver config field binding) where
  unstaged := rfl
  bound := rfl
  checks := RequestPlan.opensWith rfl (unitResolver_gate unit)
  performs :=
    have main := mainExchange_performs m config field
    ⟨main.asks, main.waits, main.guards, main.statements⟩

theorem pipelineResolver_runsStages {fetch : List Stage}
    (fetched : m.preFetchStage config field binding = .ok fetch) :
    m.RunsStages config field binding (m.pipelineResolver config field binding fetch) where
  unbound := rfl
  kinds := by
    simp only [pipelineResolver, RootResolver.stages, Execution.stages, List.map_append,
      hookStage_kinds, preFetchStage_kinds fetched]
    rfl
  checks := RequestPlan.opensWith rfl rfl
  idle := rfl
  undecided := fun _ staged => (pipelineResolver_isStage fetched staged).undecided
  hooks := fun _ staged _ => (pipelineResolver_isStage fetched staged).runs
  fetches := fun _ staged => (pipelineResolver_isStage fetched staged).fetches
  performs := fun _ staged => (pipelineResolver_isStage fetched staged).performs

/-- A resolver of a root field is a unit exactly where no function runs around its operation and
no owner decides; any other resolver is a pipeline.  `RunsAlone` and `RunsStages` say what the
plans and the scripts of its stages decide and perform.  Lines that a raw text with a line break
adds to a template are not among their actions. -/
theorem resolver_shape {r : RootResolver} (resolved : m.resolver config cluster field = .ok r) :
    ∃ binding, Binding.forModel m cluster config = .ok binding ∧
      (r.stages = [] ↔ m.IsDirect field) ∧
      (m.IsDirect field → m.RunsAlone config field binding r) ∧
      (¬ m.IsDirect field → m.RunsStages config field binding r) := by
  obtain ⟨binding, bound, _, ⟨unit, rfl⟩ | ⟨staged, fetch, fetched, rfl⟩⟩ := resolver_ok resolved
  · have direct := isUnit_iff.mp unit
    exact ⟨binding, bound, iff_of_true rfl direct, fun _ => unitResolver_runsAlone unit,
      fun staged => absurd direct staged⟩
  · have indirect : ¬ m.IsDirect field := fun direct => by simp [isUnit_iff.mpr direct] at staged
    refine ⟨binding, bound, iff_of_false ?_ indirect, fun direct => absurd direct indirect,
      fun _ => pipelineResolver_runsStages fetched⟩
    simp [pipelineResolver, RootResolver.stages, Execution.stages]

/-- A note with a function on each side of its updates, which only its author may make. -/
def watchedNote : Value := .object [
  ("name", .text "Note"),
  ("properties", .object [
    ("id", .object [("type", .text "ID")]),
    ("author", .object [("type", .text "String"), ("isOwner", .bool true)])]),
  ("dataSource", .object [("type", .text "database"), ("engine", .text "nosql")]),
  ("accessControl", .object [("rules", .list [
    .object [("allow", .text "update"), ("owner", .bool true)]])]),
  ("hooks", .object [("beforeUpdate", .text "audit"), ("afterUpdate", .text "notify")])]

theorem resolver_shape_watchedNote :
    ∃ m get update binding, Model.decode watchedNote = .ok m ∧
      m.resolver .default none .get = .ok get ∧ m.RunsAlone .default .get binding get ∧
      m.resolver .default none .update = .ok update ∧
      m.RunsStages .default .update binding update ∧
      update.stages.map (·.kind) = [.beforeHook, .preFetch, .main, .afterHook] := by
  obtain ⟨m, get, update, binding, read, first, second, bound, before, direct⟩ :
      ∃ m get update binding, Model.decode watchedNote = .ok m ∧
        m.resolver .default none .get = .ok get ∧ m.resolver .default none .update = .ok update ∧
        Binding.forModel m none .default = .ok binding ∧
        m.hook? .update .before = some "audit" ∧ m.isUnit .get = true :=
    ⟨_, _, _, _, rfl, rfl, rfl, rfl, rfl, rfl⟩
  obtain ⟨_, same, _, alone, _⟩ := resolver_shape first
  obtain ⟨_, also, unstaged, _, stages⟩ := resolver_shape second
  obtain rfl := Except.ok.inj (bound.symm.trans same)
  obtain rfl := Except.ok.inj (bound.symm.trans also)
  have runs := stages fun direct => Option.some_ne_none _ (before.symm.trans direct.1)
  refine ⟨m, get, update, binding, read, first, alone (isUnit_iff.mp direct), second, runs, ?_⟩
  cases read
  exact runs.kinds

end Model

end ApiLoom
