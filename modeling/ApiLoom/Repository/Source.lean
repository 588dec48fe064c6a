import ApiLoom.Files.Tree
import ApiLoom.Repository.LoadError
import ApiLoom.Review.Checks
import ApiLoom.Text.LetterCase

/-!
# Sources

A source is a file with one document in it: JSON if its name ends so, YAML
otherwise.  A model source holds one model or a list of them, a seed source the
records of one model; a configuration may also stand in an empty file.  The parsers are
a parameter.
-/

namespace ApiLoom

structure Source where
  path : Path
  bytes : ByteArray

namespace Source

/-- Only a document that the parser refuses has a cause, not one at which it breaks off. -/
inductive ReadFailure where
  | refused (cause : LoadCause)
  | broken (fault : ParserFault)

def isJson (p : Path) : Bool :=
  Text.lower p.suffix = ".json"

variable (parsers : Parsers)

/-- The parser for a source, which its name tells. -/
def parse (s : Source) (text : String) : Except ParserFailure Value :=
  if isJson s.path then parsers.json text else parsers.yaml text

def badSyntax (s : Source) (detail : String) : LoadCause :=
  if isJson s.path then .badJson detail else .badYaml detail

def read (s : Source) : Except ReadFailure Value :=
  match Text.decode s.bytes with
  | .error fault => .error (.refused (.notUtf8 fault))
  | .ok text =>
    match s.parse parsers (Text.unifyFeeds text) with
    | .ok document => .ok document
    | .error (.refused detail) => .error (.refused (s.badSyntax detail))
    | .error (.broken fault) => .error (.broken fault)

/-- A failure to read a source becomes one of the source of that name. -/
def ReadFailure.of (source : String) : ReadFailure → LoadFailure
  | refused cause => .refused ⟨source, cause⟩
  | broken fault => .broken fault

/-! ### Models -/

def modelsKey : String := "models"

/-- The models of a list, which are told apart by their positions. -/
def modelsFrom (source : String) (position : Nat) : List Value → Except LoadError (List Model)
  | [] => .ok []
  | v :: rest => do
    let m ← Model.load v s!"{source}#{position}"
    pure (m :: (← modelsFrom source (position + 1) rest))

/-- One model, or all under the key for several; none in an empty document. -/
def modelsOf (source : String) (document : Value) : Except LoadError (List Model) :=
  let single : Except LoadError (List Model) := (Model.load document source).map fun m => [m]
  match document with
  | .scalar .null => .ok []
  | .map entries =>
    match Entries.get? entries modelsKey with
    | some (.list items) => modelsFrom source 0 items
    | some _ => .error ⟨source, .modelsNotList⟩
    | none => single
  | _ => single

/-- The models of a source that is called `name`; all of them or none. -/
def models (s : Source) (name : String) : Except LoadFailure (List Model) :=
  match s.read parsers with
  | .error failure => .error (failure.of name)
  | .ok document => (modelsOf name document).mapError .refused

/-! ### Seed records -/

def recordsKey : String := "records"

def recordOf : Value → Option Entries
  | .map entries => some entries
  | _ => none

def recordsIn : Value → Except LoadCause (List Entries)
  | .scalar .null => .ok []
  | .list items =>
    match items.mapM recordOf with
    | some records => .ok records
    | none => .error .notRecords
  | _ => .error .notRecords

/-- A list of records, which may stand under a key of its own. -/
def recordsOf (document : Value) : Except LoadCause (List Entries) :=
  match document with
  | .map entries => recordsIn ((Entries.get? entries recordsKey).getD document)
  | _ => recordsIn document

def records (s : Source) (name : String) : Except LoadFailure (List Entries) :=
  match s.read parsers with
  | .error failure => .error (failure.of name)
  | .ok document => (recordsOf document).mapError fun cause => .refused ⟨name, cause⟩

/-! ### Configuration -/

def configOf (source : String) (document : Value) : Except LoadError Config :=
  let decoded (v : Value) : Except LoadError Config :=
    match Config.decode v with
    | .ok c => .ok c
    | .error fs => .error ⟨source, .faults "CompilationConfig" fs⟩
  match document with
  | .scalar .null => decoded (.map [])
  | .map entries => decoded (.map entries)
  | other => .error ⟨source, .notMapping other.typeWord⟩

def config (s : Source) (name : String) : Except LoadFailure Config :=
  match s.read parsers with
  | .error failure => .error (failure.of name)
  | .ok document => (configOf name document).mapError .refused

end Source

def Config.load (parsers : Parsers) (files : Files) (p : Path) : Except LoadFailure Config :=
  match files.bytes? p with
  | none => .error (.refused ⟨files.text p, .noConfigFile⟩)
  | some bytes => Source.config parsers ⟨p, bytes⟩ (files.text p)

end ApiLoom
