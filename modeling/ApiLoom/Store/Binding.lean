import ApiLoom.Config
import ApiLoom.Generation.Error
import ApiLoom.Naming

/-!
# Bindings

Which store or function a pair of templates runs against.  All relational models
of a set share one cluster.
-/

namespace ApiLoom

inductive BindingKind where
  | documentTable
  | relationalCluster
  | httpEndpoint
  | requestQueue
  | function
  | none
deriving DecidableEq, Repr, Inhabited

def BindingKind.word : BindingKind → String
  | documentTable => "document_table"
  | relationalCluster => "relational_cluster"
  | httpEndpoint => "http_endpoint"
  | requestQueue => "request_queue"
  | function => "function"
  | none => "none"

structure Binding where
  kind : BindingKind
  name : String
  details : List (String × String)
deriving DecidableEq, Repr, Inhabited

/-- The first cluster that a model declares, else the one of the configuration. -/
def sharedCluster (models : List Model) (config : Config) : Option Cluster :=
  match models.findSome? fun m => m.dataSource.cluster? with
  | some cluster => some cluster
  | none => config.relationalCluster

/-- Both numbers can be written. -/
def RateLimit.isWritable (limits : RateLimit) : Bool :=
  (Scalar.int limits.limit).isWritable && (Scalar.int limits.frequencyInSeconds).isWritable

namespace Binding

def noStore : Binding := ⟨.none, "None", []⟩

def forTable (model : String) : Binding :=
  ⟨.documentTable, model ++ "Table", [("tableName", model)]⟩

def forCluster (model : String) (cluster : Cluster) : Binding :=
  ⟨.relationalCluster, cluster.name,
    [("database", cluster.database), ("secretRef", cluster.secretRef),
      ("table", Naming.tableName model)]⟩

def forEndpoint (model endpoint : String) : Binding :=
  ⟨.httpEndpoint, model ++ "Api", [("endpoint", endpoint)]⟩

def queue (model endpoint : String) (limits : RateLimit) (stashKey : String) : Binding :=
  ⟨.requestQueue, model ++ "Queue",
    [("endpoint", endpoint), ("limit", toString limits.limit),
      ("frequencyInSeconds", toString limits.frequencyInSeconds),
      ("queueUrlStashKey", stashKey)]⟩

/-- There is no binding whose limits cannot be written. -/
def forQueue (model endpoint : String) (limits : RateLimit) (stashKey : String) :
    Except MessageFault Binding :=
  if limits.isWritable then .ok (queue model endpoint limits stashKey) else .error .longNumber

def forFunction (name : String) : Binding := ⟨.function, name, []⟩

def forJobResults (config : Config) : Binding :=
  ⟨.documentTable, "JobResultsTable", [("tableName", config.jobResultsTable)]⟩

def forModel (model : Model) (cluster : Option Cluster) (config : Config) :
    Except GenerationFailure Binding :=
  match model.dataSource with
  | .database .nosql _ => .ok (forTable model.name)
  | .database .sql _ =>
    match cluster with
    | some c => .ok (forCluster model.name c)
    | none => .error (.refused (.noCluster model.name))
  | .thirdPartyApi endpoint none => .ok (forEndpoint model.name endpoint)
  | .thirdPartyApi endpoint (some limits) =>
    (forQueue model.name endpoint limits config.queueUrlStashKey).mapError .broken

def checked (b : Binding) : Checked Binding :=
  if b.name.isEmpty then (Checked.fail .emptyText).below (.key "name") else .ok b

end Binding

end ApiLoom
