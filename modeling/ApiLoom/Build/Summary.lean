import ApiLoom.Build.Outcome

/-!
# Summaries

The text of a build report, after a build and after a validation alone.
-/

namespace ApiLoom

/-- How long the stages of a build took and the build as a whole, in milliseconds. -/
structure BuildTimes where
  ofStage : BuildStage → Nat
  total : Nat

namespace BuildReport

/-- A heading with the number of its entries, and the entries with a sign each. -/
def entryLines (title sign : String) (entries : List String) : List String :=
  s!"  {title} ({entries.length}):" :: entries.map fun entry => s!"    {sign} {entry}"

/-! ### After a build -/

def summaryWidth : Nat := 60

def doubleRule : String := Text.rule summaryWidth '='

def singleRule : String := Text.rule summaryWidth '─'

def stageLine (times : BuildTimes) (s : StageOutcome) : String :=
  let sign := if s.success then "✓" else "✗"
  let time := Text.seconds (times.ofStage s.stage)
  s!"    {sign} {Text.padRight 28 s.stage.title} {Text.padLeft 8 time}  {s.detail}"

def status (r : BuildReport) : String :=
  if r.success then "✅ SUCCESS" else "❌ FAILED"

def output (r : BuildReport) : String :=
  r.outputDirectory.getD "(not exported)"

def headLines (r : BuildReport) (times : BuildTimes) : List String :=
  [s!"  Status:           {r.status}",
    s!"  Models:           {r.modelsDirectory}",
    s!"  Output:           {r.output}",
    s!"  Models compiled:  {r.totalModels}",
    s!"  Resolvers:        {r.totalResolvers}",
    s!"  Templates:        {r.totalTemplates}",
    s!"  Files written:    {r.totalFiles}",
    s!"  Total bytes:      {Text.thousands r.totalBytes}",
    s!"  Total time:       {Text.seconds times.total}"] ++
  r.manifest.toList.map fun m => s!"  Aggregate hash:   {m.aggregateHash}"

/-- Entries below a rule, or nothing if there are none. -/
def sectionLines (title sign : String) (entries : List String) : List String :=
  if entries.isEmpty then [] else singleRule :: entryLines title sign entries

def summary (r : BuildReport) (times : BuildTimes) : String :=
  Text.joinLines ([doubleRule, "  NexaFlow ResolverGen — Compilation Report", doubleRule] ++
    r.headLines times ++ [singleRule, "  Pipeline Steps:"] ++ r.stages.map (stageLine times) ++
    sectionLines "Load Errors" "✗" r.loadErrors ++
    sectionLines "Validation Errors" "✗" r.validationErrors ++
    sectionLines "Validation Warnings" "⚠" r.validationWarnings ++
    sectionLines "Generation Errors" "✗" r.generationErrors ++
    sectionLines "Export Errors" "✗" r.exportErrors ++ [doubleRule])

/-! ### After a validation -/

def shortRule : String := Text.rule 50 '='

/-- Entries after an empty line, or nothing if there are none. -/
def blockLines (title sign : String) (entries : List String) : List String :=
  if entries.isEmpty then [] else "" :: entryLines title sign entries

def verdict (r : BuildReport) : String :=
  if r.success then "Yes" else "No"

def validationSummary (r : BuildReport) (times : BuildTimes) : String :=
  Text.joinLines (["", shortRule, "  Model Validation Report", shortRule,
    s!"  Directory: {r.modelsDirectory}",
    s!"  Models:    {r.totalModels}",
    s!"  Time:      {Text.seconds times.total}",
    s!"  Valid:     {r.verdict}"] ++
    blockLines "Load errors" "✗" r.loadErrors ++
    blockLines "Errors" "✗" r.validationErrors ++
    blockLines "Warnings" "⚠" r.validationWarnings ++
    (if r.success && r.validationWarnings.isEmpty then ["", "  ✅ All validations passed!"]
      else []) ++ [shortRule, ""])

end BuildReport

end ApiLoom
