import ApiLoom.Export.Basic
import ApiLoom.Repository.Loading

/-!
# Builds

A build loads the models of a directory, reviews them, compiles them and writes
what comes of it.  Each stage is reached only if the ones before it let it be, and
only the last one changes any file.  The first three can break off; then there is no
report of the build.
-/

namespace ApiLoom

/-- What a build refuses, and whether it empties its output directory first. -/
structure BuildOptions where
  strict : Bool
  failOnWarnings : Bool
  cleanOutput : Bool
deriving DecidableEq, Repr

/-- What a build breaks off at: a source that its parser breaks off at, a finding that has no
message, or a limit that cannot be written. -/
inductive BuildFault where
  | source (fault : ParserFault)
  | finding (fault : MessageFault)
  | limit (fault : MessageFault)
deriving DecidableEq, Repr

def BuildFault.message : BuildFault → String
  | source fault => fault.message
  | finding fault | limit fault => fault.message

/-- What was loaded, and the sources that were not. -/
structure Loaded where
  models : List Model
  seeds : Review.SeedData
  errors : List LoadError
  seedErrors : List LoadError
deriving Repr

/-- What a build came to; a stage that was not reached has left nothing. -/
structure BuildReport where
  options : BuildOptions
  modelsDirectory : String
  outputDirectory : Option String
  loaded : Loaded
  review : Option Report
  compilation : Option (Except GenerationError Compilation)
  exported : Option ExportResult

namespace BuildReport

/-- Strict builds stop at a source that cannot be loaded. -/
def loadFailed (r : BuildReport) : Bool :=
  r.options.strict && !r.loaded.errors.isEmpty

def warningsRefused (r : BuildReport) (review : Report) : Bool :=
  review.isValid && r.options.failOnWarnings && !review.warnings.isEmpty

def accepts (r : BuildReport) (review : Report) : Bool :=
  review.isValid && !r.warningsRefused review

end BuildReport

namespace Build

/-! ### Stages -/

/-- Seed records are loaded even where the models were refused. -/
def load (parsers : Parsers) (strict : Bool) (models : Path) (files : Files) :
    Except ParserFault Loaded := do
  let repository : Repository := ⟨models, strict⟩
  let loading := repository.loadModels parsers files
  let seeding := repository.loadSeeds parsers files
  match loading.outcome with
  | .error (.broken fault) => .error fault
  | .error (.refused e) => do
    let seeds ← seeding.outcome
    pure ⟨[], seeds, e :: loading.skipped, seeding.skipped⟩
  | .ok found => do
    let seeds ← seeding.outcome
    pure ⟨found, seeds, loading.skipped, seeding.skipped⟩

def loadedReport (options : BuildOptions) (models : Path) (files : Files) (loaded : Loaded) :
    BuildReport where
  options := options
  modelsDirectory := files.text (files.resolve models)
  outputDirectory := none
  loaded := loaded
  review := none
  compilation := none
  exported := none

/-- Reviews the models, if they were loaded. -/
def addReview (config : Config) (r : BuildReport) : Except MessageFault BuildReport :=
  if r.loadFailed then .ok r
  else do
    let report ← Review.report config r.loaded.models r.loaded.seeds
    pure { r with review := some report }

/-- The stages before the models are compiled. -/
def validate (parsers : Parsers) (options : BuildOptions) (models : Path) (config : Config)
    (files : Files) : Except BuildFault BuildReport := do
  let loaded ← (load parsers options.strict models files).mapError .source
  (addReview config (loadedReport options models files loaded)).mapError .finding

/-- Compiles the models, if they were reviewed and accepted. -/
def compile (config : Config) (r : BuildReport) : Except MessageFault BuildReport :=
  match r.review with
  | some review =>
    if r.accepts review then
      match Compilation.build config r.loaded.models with
      | .ok c => .ok { r with compilation := some (.ok c) }
      | .error (.refused e) => .ok { r with compilation := some (.error e) }
      | .error (.broken fault) => .error fault
    else .ok r
  | none => .ok r

def exportSettings (options : BuildOptions) (config : Config) (output : Path) : ExportSettings where
  directory := output
  stage := config.stage
  templateVersion := config.templateVersion
  clean := options.cleanOutput
  atomic := true
  withManifest := true

/-- Writes what was compiled, if there is a directory for it. -/
def write (config : Config) (output : Option Path) (time : String) (files : Files)
    (r : BuildReport) : Files × BuildReport :=
  match r.compilation, output with
  | some (.ok c), some directory =>
    let after := c.exportTo (exportSettings r.options config directory) time files
    (after.1, { r with exported := some after.2 })
  | _, _ => (files, r)

/-- All stages; without an output directory the last one is left out. -/
def run (parsers : Parsers) (options : BuildOptions) (models : Path) (output : Option Path)
    (config : Config) (time : String) (files : Files) : Files × Except BuildFault BuildReport :=
  match validate parsers options models config files with
  | .error fault => (files, .error fault)
  | .ok reviewed =>
    let report := { reviewed with
      outputDirectory := output.map fun directory => files.text (files.resolve directory) }
    match compile config report with
    | .error fault => (files, .error (.limit fault))
    | .ok compiled =>
      let after := write config output time files compiled
      (after.1, .ok after.2)

end Build

end ApiLoom
