import ApiLoom.Build.Summary

/-!
# Logs

What a build has to say while it runs, as records in the order of its stages.
-/

namespace ApiLoom

structure LogRecord where
  level : Level
  source : String
  message : String
deriving DecidableEq, Repr

namespace LogRecord

/-- A record of a part of the program; the program itself has no part. -/
def of (level : Level) (part message : String) : LogRecord :=
  ⟨level, if part.isEmpty then programName else s!"{programName}.{part}", message⟩

def line (r : LogRecord) : String :=
  s!"{r.level.capitals} {r.source}: {r.message}\n"

end LogRecord

namespace BuildReport

/-- Sources skipped; a strict build does not skip but stops. -/
def loadLog (r : BuildReport) : List LogRecord :=
  let skipped := if r.options.strict then [] else
    r.loaded.errors.map fun e => LogRecord.of .warning "repository" s!"Skipping source: {e.message}"
  let seeds := r.loaded.seedErrors.map fun e =>
    LogRecord.of .warning "repository" s!"Skipping seed file: {e.message}"
  let stop := if r.options.strict then
      r.loaded.errors.head?.toList.map fun e =>
        LogRecord.of .error "compiler" s!"Load failed in strict mode: {e.message}"
    else []
  skipped ++ seeds ++ stop

def issueLog (level : Level) (issues : List Issue) : List LogRecord :=
  issues.map fun i => LogRecord.of level "compiler" s!"  {level.sign} {i.text}"

def reviewLog (times : BuildTimes) (review : Report) : List LogRecord :=
  let time := Text.seconds (times.ofStage .validate)
  let count (issues : List Issue) : Nat := issues.length
  if !review.isValid then
    [LogRecord.of .error "validators"
        s!"Validation FAILED with {count review.errors} error(s). {review.summary}",
      LogRecord.of .error "compiler"
        s!"Validation failed with {count review.errors} error(s) in {time}."] ++
      issueLog .error review.errors
  else if !review.warnings.isEmpty then
    LogRecord.of .warning "compiler"
        s!"Validation passed with {count review.warnings} warning(s) in {time}." ::
      issueLog .warning review.warnings
  else []

def compileLog : Except GenerationError Compilation → List LogRecord
  | .ok _ => []
  | .error e => [LogRecord.of .error "compiler" s!"Compilation failed: {e.message}"]

def exportLog (times : BuildTimes) (result : ExportResult) : List LogRecord :=
  let time := Text.seconds (times.ofStage .write)
  (result.faults.map fun fault => LogRecord.of .error "exporters" fault.message) ++
    (result.manifestError.toList.map fun e =>
      LogRecord.of .warning "exporters" s!"Failed to write manifest: {e.message}") ++
    if result.success then []
    else
      [LogRecord.of .error "exporters"
        s!"Export completed with {result.faults.length} error(s) in {time}."]

def log (r : BuildReport) (times : BuildTimes) : List LogRecord :=
  r.loadLog ++ (r.review.map (reviewLog times)).getD [] ++ (r.compilation.map compileLog).getD [] ++
    (r.exported.map (exportLog times)).getD []

end BuildReport

end ApiLoom
