import ApiLoom.Plan.Response
import ApiLoom.Relationship.ForeignKey
import ApiLoom.Store.Binding
import ApiLoom.Template.Request
import ApiLoom.Template.Response

/-!
# Resolvers

What is attached to the fields of the schema: an exchange of templates and the
store it runs against.
-/

namespace ApiLoom

namespace Exchange

def requestText (e : Exchange) (config : Config) : String :=
  (Template.ofRequest config e.request).text

def responseText (e : Exchange) (config : Config) : String :=
  (Template.ofResponse config e.response).text

end Exchange

inductive StageKind where
  | beforeHook
  | preFetch
  | main
  | afterHook
deriving DecidableEq, Repr, Inhabited

def StageKind.word : StageKind → String
  | beforeHook => "before_hook"
  | preFetch => "pre_fetch"
  | main => "main"
  | afterHook => "after_hook"

def HookPhase.stageKind : HookPhase → StageKind
  | before => .beforeHook
  | after => .afterHook

/-- One function of a pipeline. -/
structure Stage where
  name : String
  kind : StageKind
  binding : Binding
  exchange : Exchange
deriving DecidableEq, Repr, Inhabited

/-- A unit resolver runs against a store itself; a pipeline runs its stages, between its own
request and response. -/
inductive Execution where
  | unit (binding : Binding)
  | pipeline (stages : List Stage)
deriving DecidableEq, Repr, Inhabited

namespace Execution

def stages : Execution → List Stage
  | unit _ => []
  | pipeline stages => stages

def binding : Execution → Option Binding
  | unit b => some b
  | pipeline _ => none

end Execution

/-- The resolver of a root field. -/
structure RootResolver where
  field : RootField
  fieldName : String
  execution : Execution
  exchange : Exchange
deriving DecidableEq, Repr, Inhabited

namespace RootResolver

def typeName (r : RootResolver) : String := r.field.parentType

def stages (r : RootResolver) : List Stage := r.execution.stages

def isPipeline (r : RootResolver) : Bool := !r.stages.isEmpty

def label (r : RootResolver) : String :=
  let shape := if r.isPipeline then s!"pipeline[{r.stages.length}]" else "unit"
  s!"<OperationResolver {r.typeName}.{r.fieldName} {shape}>"

end RootResolver

/-- The resolver of a relationship, run against the store of the target. -/
structure TraversalResolver where
  typeName : String
  fieldName : String
  relationship : Relationship
  target : String
  foreignKey : String
  binding : Binding
  exchange : Exchange
deriving DecidableEq, Repr, Inhabited

/-- A resolver beside the root fields: a subscription, or one that serves results of queued
requests. -/
structure SideResolver where
  typeName : String
  fieldName : String
  binding : Binding
  mutations : List String
  exchange : Exchange
deriving DecidableEq, Repr, Inhabited

/-- All that is generated for one model. -/
structure CompiledModel where
  name : String
  resolvers : List RootResolver
  traversals : List TraversalResolver
  subscriptions : List SideResolver
  jobResultLookup : Option SideResolver
  indexes : List SecondaryIndex
deriving DecidableEq, Repr, Inhabited

def CompiledModel.label (m : CompiledModel) : String :=
  s!"<CompiledModel {m.name} {m.resolvers.length} resolvers, " ++
    s!"{m.traversals.length} relationship resolvers>"

end ApiLoom
