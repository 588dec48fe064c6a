import ApiLoom.Resolver.Engine

/-!
# Root fields

A root field without hooks and without an ownership check has a unit resolver.
Any other has a pipeline: the hook before, the fetch of the stored record, the
operation itself, the hook after.  A pipeline authorizes the caller once, before
its first stage.
-/

namespace ApiLoom

def functionStage (model fieldName function : String) (operation : Operation)
    (phase : HookPhase) : Stage where
  name := s!"{fieldName}{phase.capitalized}Hook"
  kind := phase.stageKind
  binding := Binding.forFunction function
  exchange := {
    request := {
      description := s!"{fieldName}: {hookName phase operation} hook ({function})"
      operation := .invokeHook (hookName phase operation) function model phase
      auth := none
      gate := none }
    response := {
      description := s!"{fieldName}: {hookName phase operation} hook result"
      shape := .hookOutcome (hookName phase operation ++ "Result") phase } }

namespace Model

/-- The stage of the function that runs at a phase, if the model names one. -/
def hookStage (m : Model) (field : RootField) (phase : HookPhase) : List Stage :=
  match nonEmpty (m.hooks.hookFor phase field.operation) with
  | some function =>
    [functionStage m.name (Naming.rootField m.name field) function field.operation phase]
  | none => []

/-- Whether the stored record decides about an update or a delete. -/
def isGated (m : Model) (field : RootField) : Bool :=
  match field.operation with
  | .update | .delete => (m.guardedOwner field.operation).isSome
  | .create | .read => false

/-- Fetches the stored record and confirms that the caller may change it. -/
def preFetchStage (m : Model) (config : Config) (field : RootField) (binding : Binding) :
    Except GenerationFailure (List Stage) :=
  let fieldName := Naming.rootField m.name field
  match m.isGated field, m.preFetch config field.operation with
  | true, some preFetch =>
    match m.fetchByKey config preFetch.keyExpression with
    | .error e => .error e
    | .ok (fetch, source) =>
      .ok [{
        name := fieldName ++ "PreFetch"
        kind := .preFetch
        binding := binding
        exchange := {
          request := {
            description :=
              s!"{fieldName}: fetch the stored record to check its {preFetch.ownerField}"
            operation := fetch
            auth := none
            gate := none }
          response := {
            description := s!"{fieldName}: confirm ownership of the stored record"
            shape := .confirmOwnership source (m.verification field.operation)
              ownershipConfirmed } } }]
  | _, _ => .ok []

/-- The exchange of the operation itself, which a gate keeps from running unconfirmed. -/
def mainExchange (m : Model) (config : Config) (field : RootField) : Exchange :=
  let fieldName := Naming.rootField m.name field
  let main := m.mainOperation config field (m.isGated field)
  { request := {
      description := s!"{fieldName}: {field.word} {m.name} ({m.engine.word})"
      operation := main.1
      auth := none
      gate := if m.isGated field then some ownershipConfirmed else none }
    response := {
      description := s!"{fieldName}: {field.word} result"
      shape := main.2 } }

def mainStage (m : Model) (config : Config) (field : RootField) (binding : Binding) : Stage where
  name := Naming.rootField m.name field ++ "Main"
  kind := .main
  binding := binding
  exchange := m.mainExchange config field

/-- Authorizes the caller before the first stage, and hands out what the last one returns. -/
def pipelineExchange (m : Model) (field : RootField) (check : AuthCheck) : Exchange :=
  let fieldName := Naming.rootField m.name field
  { request := {
      description := s!"{fieldName}: authorize once for the whole pipeline"
      operation := .noOp none
      auth := some check
      gate := none }
    response := {
      description := s!"{fieldName}: pipeline result"
      shape := .passThrough } }

def isUnit (m : Model) (field : RootField) : Bool :=
  (m.hookStage field .before).isEmpty && (m.hookStage field .after).isEmpty && !m.isGated field

/-- The resolver of a root field, if its model is bound to `binding`. -/
def resolverWith (m : Model) (config : Config) (field : RootField) (binding : Binding) :
    Except GenerationFailure RootResolver :=
  let fieldName := Naming.rootField m.name field
  let check := m.authCheck field.operation field.scope
  if m.isRateLimited && (m.guardedOwner field.operation).isSome then
    .error (.refused (.ownershipOnQueue fieldName))
  else if m.isUnit field then
    let main := m.mainExchange config field
    .ok ⟨field, fieldName, .unit binding,
      { main with request := { main.request with auth := some check } }⟩
  else
    match m.preFetchStage config field binding with
    | .error e => .error e
    | .ok preFetch =>
      .ok ⟨field, fieldName,
        .pipeline (m.hookStage field .before ++ preFetch ++ [m.mainStage config field binding] ++
          m.hookStage field .after),
        m.pipelineExchange field check⟩

def resolver (m : Model) (config : Config) (cluster : Option Cluster) (field : RootField) :
    Except GenerationFailure RootResolver :=
  match Binding.forModel m cluster config with
  | .error e => .error e
  | .ok binding => m.resolverWith config field binding

end Model

end ApiLoom
