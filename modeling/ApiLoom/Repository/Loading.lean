import ApiLoom.Repository.Source

/-!
# Loading a directory

The sources of a directory are loaded in the order of their names.  A source that
is refused is skipped, all its models with it; strict loading stops there instead.
Seed sources are always skipped when they are refused.
-/

namespace ApiLoom

structure Repository where
  directory : Path
  strict : Bool
deriving DecidableEq, Repr

namespace Repository

def label (r : Repository) (files : Files) : String :=
  s!"<ModelRepository {files.text r.directory} strict={(Value.bool r.strict).literal}>"

/-! ### Sources -/

def suffixes : List String := [".json", ".yaml", ".yml"]

def seedMark : String := ".seed"

/-- The name of the model whose records a source holds. -/
def seedModel? (p : Path) : Option String :=
  let stem := p.stem.toList
  let mark := seedMark.toList
  if mark.isSuffixOf stem then some (String.ofList (stem.take (stem.length - mark.length)))
  else none

def isSource (p : Path) : Bool :=
  suffixes.contains (Text.lower p.suffix)

/-- The files of the directory that are sources, in the order of their names. -/
def sources (r : Repository) (files : Files) : List Source :=
  if files.isDirectory r.directory then
    (files.list r.directory).filterMap fun p =>
      if isSource p then (files.bytes? p).map fun bytes => ⟨p, bytes⟩ else none
  else []

def modelSources (r : Repository) (files : Files) : List Source :=
  (r.sources files).filter fun s => (seedModel? s.path).isNone

/-! ### Models -/

/-- How the loading ended, and the sources skipped until then. -/
structure Loading (ε α : Type) where
  outcome : Except ε α
  skipped : List LoadError

/-- The models of all sources that are not refused. -/
def gather (strict : Bool) :
    List (Except LoadFailure (List Model)) → Loading LoadFailure (List Model)
  | [] => ⟨.ok [], []⟩
  | .ok models :: rest =>
    let more := gather strict rest
    ⟨more.outcome.map (models ++ ·), more.skipped⟩
  | .error (.broken fault) :: _ => ⟨.error (.broken fault), []⟩
  | .error (.refused e) :: rest =>
    if strict then ⟨.error (.refused e), []⟩
    else
      let more := gather strict rest
      ⟨more.outcome, e :: more.skipped⟩

def loadModels (parsers : Parsers) (r : Repository) (files : Files) :
    Loading LoadFailure (List Model) :=
  gather r.strict ((r.modelSources files).map fun s => s.models parsers (files.text s.path))

/-! ### Seed records -/

def addSeeds (seeds : Review.SeedData) (model : String) (records : List Entries) :
    Review.SeedData :=
  if seeds.any fun s => s.1 = model then
    seeds.map fun s => if s.1 = model then (s.1, s.2 ++ records) else s
  else seeds ++ [(model, records)]

def seedSources (r : Repository) (files : Files) : List (String × Source) :=
  (r.sources files).filterMap fun s => (seedModel? s.path).map fun model => (model, s)

def gatherSeeds (seeds : Review.SeedData) :
    List (String × Except LoadFailure (List Entries)) → Loading ParserFault Review.SeedData
  | [] => ⟨.ok seeds, []⟩
  | (model, .ok records) :: rest => gatherSeeds (addSeeds seeds model records) rest
  | (_, .error (.broken fault)) :: _ => ⟨.error fault, []⟩
  | (_, .error (.refused e)) :: rest =>
    let more := gatherSeeds seeds rest
    ⟨more.outcome, e :: more.skipped⟩

def loadSeeds (parsers : Parsers) (r : Repository) (files : Files) :
    Loading ParserFault Review.SeedData :=
  gatherSeeds []
    ((r.seedSources files).map fun s => (s.1, s.2.records parsers (files.text s.2.path)))

end Repository

end ApiLoom
