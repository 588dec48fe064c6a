import ApiLoom.Resolver.Root
import ApiLoom.Resolver.Side
import ApiLoom.Resolver.Traversal
import ApiLoom.Review.Checks
import ApiLoom.Schema.Assembly

/-!
# Compilation

From a set of models to everything that is generated for it.  A set without errors
compiles, unless one of its limits is too long to be written.
-/

namespace ApiLoom

namespace Model

def compileWith (m : Model) (config : Config) (cluster : Option Cluster)
    (lookup : String → Option Model) (indexes : List SecondaryIndex) :
    Except GenerationFailure CompiledModel := do
  let resolvers ← RootField.all.mapM fun field => m.resolver config cluster field
  let traversals ← m.traversals config cluster lookup
  pure {
    name := m.name
    resolvers := resolvers
    traversals := traversals
    subscriptions := m.subscriptions
    jobResultLookup := m.jobResultLookup config
    indexes := indexes }

/-- All that is generated for the model, as one of a set. -/
def compile (m : Model) (config : Config) (models : List Model) :
    Except GenerationFailure CompiledModel :=
  m.compileWith config (sharedCluster models config) (modelNamed models)
    (planIndexes models m.name)

end Model

structure Compilation where
  config : Config
  schema : Schema.Document
  models : List CompiledModel
  shared : List SideResolver
  indexPlan : List (String × List SecondaryIndex)
deriving Repr

inductive CompilationError where
  | invalid (report : Report)
  | generation (error : GenerationError)
deriving Repr

namespace CompilationError

def message : CompilationError → String
  | invalid report => s!"Model set failed validation with {report.errors.length} error(s)."
  | generation error => error.message

end CompilationError

namespace Compilation

def build (config : Config) (models : List Model) : Except GenerationFailure Compilation := do
  let compiled ← models.mapM fun m => m.compile config models
  pure {
    config := config
    schema := Schema.document config models
    models := compiled
    shared := sharedResolvers models
    indexPlan := ApiLoom.indexPlan models }

/-- Compiles a set that the review accepts.  There is no outcome at all where the review cannot
be told, or where generation breaks off. -/
def attempt (config : Config) (models : List Model) (seeds : Review.SeedData) :
    Except MessageFault (Except CompilationError Compilation) := do
  let report ← Review.report config models seeds
  if report.isValid then
    match build config models with
    | .ok c => .ok (.ok c)
    | .error (.refused e) => .ok (.error (.generation e))
    | .error (.broken fault) => .error fault
  else .ok (.error (.invalid report))

def label (c : Compilation) : String :=
  s!"<CompilationResult {c.models.length} models>"

/-- The resolvers of one model, with their places under the artifacts. -/
def modelExchanges (m : CompiledModel) : List (String × Exchange) :=
  (m.resolvers.flatMap fun r =>
    (s!"resolvers/{r.typeName}.{r.fieldName}", r.exchange) ::
      r.stages.map fun s => (s!"functions/{s.name}", s.exchange)) ++
  (m.traversals.map fun r => (s!"resolvers/{r.typeName}.{r.fieldName}", r.exchange)) ++
  ((m.subscriptions ++ m.jobResultLookup.toList).map fun r =>
    (s!"resolvers/{r.typeName}.{r.fieldName}", r.exchange))

def exchanges (c : Compilation) : List (String × Exchange) :=
  c.models.flatMap modelExchanges ++
    c.shared.map fun r => (s!"resolvers/{r.typeName}.{r.fieldName}", r.exchange)

def countTemplates (c : Compilation) : Nat := 2 * c.exchanges.length

def countResolvers (c : Compilation) : Nat :=
  (c.models.map fun m => m.resolvers.length + m.traversals.length).foldr (· + ·) 0

end Compilation

/-! ### Look-ups -/

inductive LookupError where
  | noModel (name : String)
  | noField (model : String) (field : RootField)
deriving DecidableEq, Repr

def LookupError.message : LookupError → String
  | noModel name => s!"Model '{name}' was not compiled"
  | noField model field => s!"No resolver for {field.word} on {model}"

namespace Compilation

def model (c : Compilation) (name : String) : Except LookupError CompiledModel :=
  match c.models.find? fun m => m.name = name with
  | some m => .ok m
  | none => .error (.noModel name)

end Compilation

def CompiledModel.resolver (m : CompiledModel) (field : RootField) :
    Except LookupError RootResolver :=
  match m.resolvers.find? fun r => r.field = field with
  | some r => .ok r
  | none => .error (.noField m.name field)

end ApiLoom
