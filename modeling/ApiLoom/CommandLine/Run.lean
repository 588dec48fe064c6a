import ApiLoom.Build.Log
import ApiLoom.CommandLine.Arguments
import ApiLoom.CommandLine.Help

/-!
# Running the command line

From the words of a command line and the files it finds to what it prints, its
exit code, and the files it leaves.  The parsers of its documents are a parameter.
-/

namespace ApiLoom

namespace Arguments

def overrides (a : Arguments) : List (String × Value) :=
  (a.stage.map fun s => ("stage", Value.text s)).toList ++
    (a.pageSize.map fun n => ("default_page_size", Value.int n)).toList ++
    if a.debugTemplates then [("debug_instrumentation", .bool true)] else []

def options (a : Arguments) : BuildOptions where
  strict := a.strict
  failOnWarnings := a.failOnWarnings
  cleanOutput := a.clean

/-- The path of a configuration file, unless it is empty. -/
def configPath (a : Arguments) : Option Path :=
  a.config.bind fun text => if text.isEmpty then Option.none else some (Path.ofText text)

end Arguments

/-! ### Configuration -/

inductive ConfigFailure where
  | refused (error : LoadError)
  | invalidOverride (faults : List Fault)
  | broken (fault : ParserFault)

/-- Settings from a file, if there is one, changed by the flags. -/
def Config.ofArguments (parsers : Parsers) (a : Arguments) (files : Files) :
    Except ConfigFailure Config := do
  let config ← match a.configPath with
    | none => pure Config.default
    | some path =>
      match Config.load parsers files path with
      | .ok config => pure config
      | .error (.refused e) => .error (.refused e)
      | .error (.broken fault) => .error (.broken fault)
  if a.overrides.isEmpty then pure config
  else
    match config.override a.overrides with
    | .ok changed => pure changed
    | .error faults => .error (.invalidOverride faults)

/-! ### Results -/

/-- What a run of the command line came to. -/
inductive CommandResult where
  | stopped (stop : ArgumentStop)
  | noModels (directory : String)
  | noConfig (error : LoadError)
  | invalidOverride (faults : List Fault)
  | noOutput
  | validated (report : BuildReport)
  | built (report : BuildReport)

namespace CommandResult

def exitCode : CommandResult → Nat
  | stopped .help | stopped .version => 0
  | stopped (.fault _) => 2
  | noModels _ | noConfig _ | invalidOverride _ | noOutput => ExitCode.refusedInput.number
  | validated report | built report => report.exitCode.number

def out (times : BuildTimes) : CommandResult → String
  | stopped .help => Help.text
  | stopped .version => Help.versionText
  | validated report => report.validationSummary times ++ "\n"
  | built report => report.summary times ++ "\n"
  | _ => ""

/-- The message with which a run ends that has failed. -/
def lastWord : CommandResult → List LogRecord
  | noModels directory => [.of .error "" s!"Models directory not found: {directory}"]
  | noConfig e => [.of .error "" e.message]
  | invalidOverride faults =>
    [.of .error "" ("Invalid configuration override: " ++ faultReport "CompilationConfig" faults)]
  | noOutput =>
    [.of .error "" ("Output directory is required for compilation. " ++
      "Use -o/--output or --validate-only.")]
  | built report =>
    if report.exitCode = .success then []
    else [.of .error "" s!"Compilation failed with exit code {report.exitCode.number}."]
  | _ => []

def log (times : BuildTimes) (r : CommandResult) : List LogRecord :=
  match r with
  | validated report => report.log times
  | built report => report.log times ++ r.lastWord
  | other => other.lastWord

def err (times : BuildTimes) (quiet : Bool) (r : CommandResult) : String :=
  let records := (r.log times).filter fun record => !(quiet && record.level = .warning)
  let lines := String.join (records.map LogRecord.line)
  match r with
  | stopped (.fault fault) => Help.usage ++ s!"{programName}: error: {fault.message}\n"
  | noOutput => lines ++ Help.usage
  | _ => lines

end CommandResult

/-- A result, and whether warnings are left out when it is told. -/
structure CommandOutcome where
  quiet : Bool
  result : CommandResult

namespace CommandOutcome

def exitCode (o : CommandOutcome) : Nat := o.result.exitCode

def out (o : CommandOutcome) (times : BuildTimes) : String := o.result.out times

def err (o : CommandOutcome) (times : BuildTimes) : String := o.result.err times o.quiet

end CommandOutcome

/-! ### Running -/

namespace Arguments

def follow (parsers : Parsers) (a : Arguments) (time : String) (files : Files) :
    Files × Except BuildFault CommandResult :=
  let models := files.resolve (Path.ofText (a.models.getD ""))
  if !files.isDirectory models then (files, .ok (.noModels (files.text models)))
  else
    match Config.ofArguments parsers a files with
    | .error (.refused e) => (files, .ok (.noConfig e))
    | .error (.invalidOverride faults) => (files, .ok (.invalidOverride faults))
    | .error (.broken fault) => (files, .error (.source fault))
    | .ok config =>
      if a.validateOnly then
        (files, (Build.validate parsers a.options models config files).map .validated)
      else
        match a.output with
        | .none => (files, .ok .noOutput)
        | some output =>
          let after := Build.run parsers a.options models (some (Path.ofText output)) config time
            files
          (after.1, after.2.map .built)

end Arguments

/-- Reads the words of a command line and does what they ask for. -/
def runCommand (parsers : Parsers) (words : List String) (time : String) (files : Files) :
    Files × Except BuildFault CommandOutcome :=
  match Arguments.read words with
  | .error stop => (files, .ok ⟨false, .stopped stop⟩)
  | .ok a =>
    let after := a.follow parsers time files
    (after.1, after.2.map fun result => ⟨a.quiet, result⟩)

end ApiLoom
