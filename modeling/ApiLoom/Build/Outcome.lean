import ApiLoom.Build.Basic
import ApiLoom.Text.Column

/-!
# Outcomes

What a build report says of each stage: the errors that it met, whether it
succeeded, and the exit code for the whole build.
-/

namespace ApiLoom

inductive BuildStage where
  | load
  | validate
  | compile
  | write
deriving DecidableEq, Repr

def BuildStage.title : BuildStage → String
  | load => "Load Models"
  | validate => "Validate Models"
  | compile => "Compile Templates"
  | write => "Export Artifacts"

inductive ExitCode where
  | success
  | invalidModels
  | failedGeneration
  | failedExport
  | refusedInput
deriving DecidableEq, Repr

def ExitCode.number : ExitCode → Nat
  | success => 0
  | invalidModels => 1
  | failedGeneration => 2
  | failedExport => 3
  | refusedInput => 4

namespace BuildReport

/-! ### Errors -/

def loadErrors (r : BuildReport) : List String :=
  r.loaded.errors.map LoadError.message

/-- Errors of the review, or that there are warnings where none are allowed. -/
def validationErrors (r : BuildReport) : List String :=
  match r.review with
  | none => []
  | some review =>
    review.errors.map Issue.text ++
      if r.warningsRefused review then
        [s!"{review.warnings.length} warning(s) treated as errors"]
      else []

def validationWarnings (r : BuildReport) : List String :=
  match r.review with
  | none => []
  | some review => review.warnings.map Issue.text

def generationErrors (r : BuildReport) : List String :=
  match r.compilation with
  | some (.error e) => [e.message]
  | _ => []

def exportErrors (r : BuildReport) : List String :=
  match r.exported with
  | some result => result.faults.map ExportFault.message
  | none => []

/-- Sources that were skipped do not make a build fail. -/
def success (r : BuildReport) : Bool :=
  !r.loadFailed && r.validationErrors.isEmpty && r.generationErrors.isEmpty &&
    r.exportErrors.isEmpty

/-- For a build that failed, by the first kind of error there is. -/
def exitCode (r : BuildReport) : ExitCode :=
  if r.success then .success
  else if !r.loadErrors.isEmpty && r.validationErrors.isEmpty then .refusedInput
  else if !r.validationErrors.isEmpty then .invalidModels
  else if !r.generationErrors.isEmpty then .failedGeneration
  else if !r.exportErrors.isEmpty then .failedExport
  else .failedGeneration

/-! ### Numbers -/

def result (r : BuildReport) : Option Compilation :=
  match r.compilation with
  | some (.ok c) => some c
  | _ => none

def manifest (r : BuildReport) : Option Manifest :=
  r.exported.map (·.manifest)

def totalModels (r : BuildReport) : Nat := r.loaded.models.length

def totalResolvers (r : BuildReport) : Nat := (r.result.map (·.countResolvers)).getD 0

def totalTemplates (r : BuildReport) : Nat := (r.result.map (·.countTemplates)).getD 0

def totalFiles (r : BuildReport) : Nat := (r.manifest.map (·.totalFiles)).getD 0

def totalBytes (r : BuildReport) : Nat := (r.manifest.map (·.totalBytes)).getD 0

/-! ### Stages -/

structure StageOutcome where
  stage : BuildStage
  success : Bool
  detail : String
deriving DecidableEq, Repr

def loadOutcome (r : BuildReport) : StageOutcome where
  stage := .load
  success := r.loaded.errors.isEmpty
  detail :=
    s!"{r.totalModels} model(s), {r.loaded.seeds.length} seed set(s), " ++
      s!"{r.loaded.errors.length} skipped"

def reviewDetail (review : Report) : String :=
  if !review.isValid then s!"{review.errors.length} error(s)"
  else if !review.warnings.isEmpty then s!"{review.warnings.length} warning(s)"
  else "all checks passed"

def reviewOutcome (r : BuildReport) (review : Report) : StageOutcome :=
  ⟨.validate, r.accepts review, reviewDetail review⟩

def compileOutcome : Except GenerationError Compilation → StageOutcome
  | .ok c => ⟨.compile, true, s!"{c.countResolvers} resolver(s), {c.countTemplates} template(s)"⟩
  | .error _ => ⟨.compile, false, "failed"⟩

def writeOutcome (result : ExportResult) : StageOutcome where
  stage := .write
  success := result.success
  detail :=
    s!"{result.manifest.totalFiles} files, {Text.thousands result.manifest.totalBytes} bytes"

def stages (r : BuildReport) : List StageOutcome :=
  r.loadOutcome :: (r.review.map r.reviewOutcome).toList ++
    (r.compilation.map compileOutcome).toList ++ (r.exported.map writeOutcome).toList

end BuildReport

end ApiLoom
