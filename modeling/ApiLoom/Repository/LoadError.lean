import ApiLoom.Document.Parsers
import ApiLoom.Model.Decode
import ApiLoom.Text.Utf8

/-!
# Loading one source

A source that cannot be loaded is refused, with the reason.  Where a parser breaks off,
this is not a reason to refuse the source but breaks off the whole loading.
`Model.load` turns one document into a model.
-/

namespace ApiLoom

inductive LoadCause where
  | notMapping (typeWord : String)
  | faults (className : String) (faults : List Fault)
  | notUtf8 (fault : Text.ByteFault)
  | badJson (detail : String)
  | badYaml (detail : String)
  | modelsNotList
  | notRecords
  | noConfigFile
deriving DecidableEq, Repr

def LoadCause.message : LoadCause → String
  | notMapping typeWord => s!"expected a mapping, got {typeWord}"
  | faults className fs => faultReport className fs
  | notUtf8 fault => s!"not valid UTF-8: {fault.message}"
  | badJson detail => s!"invalid JSON: {detail}"
  | badYaml detail => s!"invalid YAML: {detail}"
  | modelsNotList => "'models' must be a list"
  | notRecords => "seed data must be a list of records"
  | noConfigFile => "config file not found"

structure LoadError where
  source : String
  cause : LoadCause
deriving DecidableEq, Repr

def LoadError.message (e : LoadError) : String :=
  s!"Failed to load '{e.source}': {e.cause.message}"

inductive LoadFailure where
  | refused (error : LoadError)
  | broken (fault : ParserFault)
deriving DecidableEq, Repr

/-- The model of a document, which remembers the source it came from. -/
def Model.load (raw : Value) (source : String) : Except LoadError Model :=
  match raw with
  | .map entries =>
    match Model.decode (.map (Entries.put entries (.text "source") (.text source))) with
    | .ok m => .ok m
    | .error fs => .error ⟨source, .faults "ModelDefinition" fs⟩
  | other => .error ⟨source, .notMapping other.typeWord⟩

end ApiLoom
