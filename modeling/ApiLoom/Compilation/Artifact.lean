import ApiLoom.Compilation.Basic
import ApiLoom.Document.Json.Printer

/-!
# Artifacts

The files that a compilation amounts to: the schema, two templates for each
exchange, and descriptors that tell how to wire them.  Files are in the order of
their paths, and a later file takes the place of an earlier one of the same path.
-/

namespace ApiLoom

structure Artifact where
  path : String
  content : String
deriving DecidableEq, Repr, Inhabited

/-! ### Descriptors -/

structure Descriptor where
  typeName : String
  fieldName : String
  binding : Option Binding
  stages : List Stage
deriving DecidableEq, Repr, Inhabited

namespace Descriptor

def ofRoot (r : RootResolver) : Descriptor :=
  ⟨r.typeName, r.fieldName, r.execution.binding, r.stages⟩

def ofTraversal (r : TraversalResolver) : Descriptor :=
  ⟨r.typeName, r.fieldName, some r.binding, []⟩

def ofSide (r : SideResolver) : Descriptor :=
  ⟨r.typeName, r.fieldName, some r.binding, []⟩

def ofModel (m : CompiledModel) : List Descriptor :=
  m.resolvers.map ofRoot ++ m.traversals.map ofTraversal ++
    (m.subscriptions ++ m.jobResultLookup.toList).map ofSide

def before (a b : Descriptor) : Bool :=
  decide (a.typeName < b.typeName) || a.typeName = b.typeName && decide (a.fieldName ≤ b.fieldName)

def bindingValue (b : Binding) : Value :=
  .object [("kind", .text b.kind.word), ("name", .text b.name),
    ("details", .object (b.details.map fun d => (d.1, .text d.2)))]

def stageValue (s : Stage) : Value :=
  .object [("name", .text s.name), ("kind", .text s.kind.word),
    ("dataSource", bindingValue s.binding)]

def value (d : Descriptor) : Value :=
  .object ([("typeName", .text d.typeName), ("fieldName", .text d.fieldName),
    ("kind", .text (if d.stages.isEmpty then "UNIT" else "PIPELINE")),
    ("dataSource", (d.binding.map bindingValue).getD .null)] ++
    if d.stages.isEmpty then [] else [("functions", .list (d.stages.map stageValue))])

end Descriptor

def SecondaryIndex.value (i : SecondaryIndex) : Value :=
  .object [("indexName", .text i.indexName), ("partitionKey", .text i.partitionKey)]

namespace Compilation

def descriptors (c : Compilation) : List Descriptor :=
  (c.models.flatMap Descriptor.ofModel ++ c.shared.map Descriptor.ofSide).mergeSort
    Descriptor.before

/-! ### Files -/

def schemaPath : String := "schema.graphql"

def resolversPath : String := "resolvers.json"

def indexesPath : String := "indexes.json"

def resolversArtifact (c : Compilation) : Artifact :=
  ⟨resolversPath, Json.printSorted (.list (c.descriptors.map Descriptor.value)) ++ "\n"⟩

def indexesArtifact (c : Compilation) : Artifact :=
  ⟨indexesPath, Json.printSorted
    (.object (c.indexPlan.map fun p => (p.1, .list (p.2.map SecondaryIndex.value)))) ++ "\n"⟩

def templateArtifacts (c : Compilation) : List Artifact :=
  c.exchanges.flatMap fun e =>
    [⟨e.1 ++ ".request.vtl", e.2.requestText c.config⟩,
      ⟨e.1 ++ ".response.vtl", e.2.responseText c.config⟩]

def lastOfEach : List Artifact → List Artifact
  | [] => []
  | a :: rest => if rest.any fun b => b.path = a.path then lastOfEach rest else a :: lastOfEach rest

def artifacts (c : Compilation) : List Artifact :=
  (lastOfEach (⟨schemaPath, c.schema.text⟩ :: c.templateArtifacts ++
    [c.resolversArtifact, c.indexesArtifact])).mergeSort fun a b => decide (a.path ≤ b.path)

end Compilation

end ApiLoom
