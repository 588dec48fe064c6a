import ApiLoom.Proofs.Builds
import ApiLoom.Proofs.Reviewed

/-!
# Exit codes

Each stage of a build has a code of its own for the case that it fails, and at most one stage
fails.  The exit code is the one of that stage, with one exception: a build that has left out
sources and then cannot write ends as if it had refused them.
-/

namespace ApiLoom

/-- The code that stands for a failure of the stage. -/
def BuildStage.exitCode : BuildStage → ExitCode
  | load => .refusedInput
  | validate => .invalidModels
  | compile => .failedGeneration
  | write => .failedExport

theorem BuildStage.exitCode_inj {s t : BuildStage} : s.exitCode = t.exitCode ↔ s = t := by
  cases s <;> cases t <;> decide

theorem BuildStage.exitCode_ne_success (s : BuildStage) : s.exitCode ≠ .success := by
  cases s <;> decide

namespace Build

/-- A review of the models alone, or a build, which writes if it is given a directory. -/
inductive Task where
  | review
  | build (output : Option Path) (time : String)

def Task.report (task : Task) (parsers : Parsers) (options : BuildOptions) (models : Path)
    (config : Config) (files : Files) : Except BuildFault BuildReport :=
  match task with
  | review => validate parsers options models config files
  | build output time => (run parsers options models output config time files).2

/-- The stage at which a task fails, by what is asked for and what was loaded. -/
inductive FailsAt (task : Task) (options : BuildOptions) (config : Config) (files : Files)
    (loaded : Loaded) : BuildStage → Prop where
  | load (strict : options.strict = true) (errors : loaded.errors ≠ []) :
      FailsAt task options config files loaded .load
  | validate (unrefused : ¬ (options.strict = true ∧ loaded.errors ≠ []))
      (rejects : (review config loaded).errors ≠ [] ∨
        (options.failOnWarnings = true ∧ (review config loaded).warnings ≠ [])) :
      FailsAt task options config files loaded .validate
  | compile {output : Option Path} {time : String} {e : GenerationError}
      (asked : task = .build output time) (accepted : Accepted options config loaded)
      (failed : Compilation.build config loaded.models = .error (.refused e)) :
      FailsAt task options config files loaded .compile
  | write {directory : Path} {time : String} {c : Compilation}
      (asked : task = .build (some directory) time) (accepted : Accepted options config loaded)
      (built : Compilation.build config loaded.models = .ok c)
      (faults : (c.exportTo (exportSettings options config directory) time files).2.faults ≠ []) :
      FailsAt task options config files loaded .write

/-- A failure to write that the sources which were left out hide. -/
structure Masked (task : Task) (options : BuildOptions) (config : Config) (files : Files)
    (loaded : Loaded) : Prop where
  lenient : options.strict = false
  skipped : loaded.errors ≠ []
  unwritten : FailsAt task options config files loaded .write

section Codes

variable {task : Task} {parsers : Parsers} {options : BuildOptions} {models : Path}
  {config : Config} {files : Files} {loaded : Loaded} {r t : BuildReport} {s u : BuildStage}

/-! ### Stages -/

/-- Nothing is refused for models that were accepted. -/
theorem Accepted.generates (accepted : Accepted options config loaded) (e : GenerationError) :
    Compilation.build config loaded.models ≠ .error (.refused e) := by
  have passes : Review.Passes config loaded.models loaded.seeds := by
    show (review config loaded).isValid = true
    simp [Report.isValid, accepted.valid]
  rcases passes.builds with breaksOff | ⟨c, built⟩
  · simp [breaksOff.broken]
  · simp [built]

/-- Once the models are accepted, only writing them can fail. -/
theorem FailsAt.eq_write (fails : FailsAt task options config files loaded s)
    (accepted : Accepted options config loaded) : s = .write := by
  cases fails with
  | load strict errors => exact absurd ⟨strict, errors⟩ accepted.unrefused
  | validate _ rejects =>
    rcases rejects with errors | warned
    · exact absurd accepted.valid errors
    · exact absurd warned accepted.unwarned
  | compile _ accepted failed => exact absurd failed (accepted.generates _)
  | write => rfl

theorem FailsAt.unique (first : FailsAt task options config files loaded s)
    (second : FailsAt task options config files loaded u) : s = u := by
  cases first with
  | load strict errors =>
    cases second with
    | load => rfl
    | validate unrefused _ => exact absurd ⟨strict, errors⟩ unrefused
    | compile _ accepted failed => exact absurd failed (accepted.generates _)
    | write _ accepted _ _ => exact absurd ⟨strict, errors⟩ accepted.unrefused
  | validate unrefused rejects =>
    cases second with
    | load strict errors => exact absurd ⟨strict, errors⟩ unrefused
    | validate => rfl
    | compile _ accepted failed => exact absurd failed (accepted.generates _)
    | write _ accepted _ _ =>
      rcases rejects with errors | warned
      · exact absurd accepted.valid errors
      · exact absurd warned accepted.unwarned
  | compile _ accepted failed => exact absurd failed (accepted.generates _)
  | write _ accepted _ _ => exact (second.eq_write accepted).symm

/-! ### Codes -/

theorem exitCode_refused (failed : r.loadFailed = true) (quiet : r.validationErrors = []) :
    r.exitCode = .refusedInput := by
  have skipped : r.loadErrors ≠ [] := by
    simp only [BuildReport.loadFailed, Bool.and_eq_true] at failed
    simpa [BuildReport.loadErrors] using failed.2
  simp [BuildReport.exitCode, BuildReport.success, failed, quiet, skipped]

theorem exitCode_invalid (told : r.validationErrors ≠ []) : r.exitCode = .invalidModels := by
  simp [BuildReport.exitCode, BuildReport.success, told]

/-- A build that failed only in its last stage, or not at all. -/
theorem exitCode_passed (passed : r.loadFailed = false) (valid : r.validationErrors = [])
    (generated : r.generationErrors = []) :
    r.exitCode = if r.exportErrors.isEmpty then .success
      else if r.loaded.errors.isEmpty then .failedExport else .refusedInput := by
  simp only [BuildReport.exitCode, BuildReport.success, passed, valid, generated,
    BuildReport.loadErrors]
  cases r.exportErrors <;> cases r.loaded.errors <;> simp

/-! ### Reports -/

/-- How a task ends that does not break off: with the report of the review, or with what the
later stages make of it. -/
inductive Ended (task : Task) (config : Config) (files : Files) (r : BuildReport) :
    BuildReport → Prop where
  | reviewed (asked : task = .review) : Ended task config files r r
  | built {output : Option Path} {time : String} {t : BuildReport}
      (asked : task = .build output time) (compiled : compile config r = .ok t) :
      Ended task config files r (write config output time files t).2

theorem Task.report_ok (told : task.report parsers options models config files = .ok r) :
    ∃ t, load parsers options.strict models files = .ok t.loaded ∧ Reviewed options config t ∧
      Ended task config files t r := by
  cases task with
  | review =>
    have validates := validate_validates parsers options models config files
    rw [report] at told
    rw [told] at validates
    cases validates with
    | reviewed loading reviewed => exact ⟨r, loading, reviewed, .reviewed rfl⟩
  | build output time =>
    have runs := run_runs parsers options models output config time files
    rw [report] at told
    generalize run parsers options models output config time files = outcome at runs told
    cases runs with
    | broken _ => cases told
    | ended loading reviewed compiled =>
      obtain rfl := Except.ok.inj told
      exact ⟨_, loading, reviewed, .built rfl compiled⟩

theorem write_loaded {output : Option Path} {time : String} :
    (write config output time files t).2.loaded = t.loaded := by
  unfold write
  split <;> rfl

theorem Ended.keeps_loaded (reviewed : Reviewed options config t)
    (ended : Ended task config files t r) : r.loaded = t.loaded := by
  cases ended with
  | reviewed => rfl
  | built _ compiled =>
    have compiles := compile_compiles reviewed
    rw [compiled] at compiles
    rw [write_loaded, compiles.keeps_loaded]

theorem compile_stopped (reviewed : Reviewed options config t)
    (stopped : ¬ Accepted options config t.loaded) : compile config t = .ok t := by
  rw [accepted_iff reviewed] at stopped
  have compiles := compile_compiles reviewed
  generalize compile config t = outcome at compiles
  cases compiles with
  | refused | rejected => rfl
  | ungenerated passed _ accepts _ | broken passed accepts _ | compiled passed _ accepts _ =>
    exact absurd ⟨passed, accepts⟩ stopped

theorem compile_accepted (reviewed : Reviewed options config t)
    (accepted : Accepted options config t.loaded) (compiled : compile config t = .ok r) :
    ∃ c, Compilation.build config t.loaded.models = .ok c ∧
      r = { t with compilation := some (.ok c) } := by
  obtain ⟨passed, accepts⟩ := (accepted_iff reviewed).mp accepted
  have compiles := compile_compiles reviewed
  rw [compiled] at compiles
  cases compiles with
  | refused failed _ => exact absurd (passed.symm.trans failed) (by decide)
  | rejected _ _ rejects => exact absurd (accepts.symm.trans rejects) (by decide)
  | ungenerated _ _ _ failed => exact absurd failed (accepted.generates _)
  | compiled _ _ _ built => exact ⟨_, built, rfl⟩

/-- What stops before the compiling stage ends with the report of the review. -/
theorem Ended.eq_of_stopped (ended : Ended task config files t r)
    (reviewed : Reviewed options config t) (stopped : ¬ Accepted options config t.loaded) :
    r = t := by
  cases ended with
  | reviewed => rfl
  | built _ compiled =>
    obtain rfl := Except.ok.inj ((compile_stopped reviewed stopped).symm.trans compiled)
    rw [write_none (by simp [BuildReport.result, reviewed.compilation])]

/-- Which exit code there is for what happened. -/
inductive Ends (task : Task) (options : BuildOptions) (config : Config) (files : Files)
    (loaded : Loaded) : ExitCode → Prop where
  | succeeds (clean : ∀ stage, ¬ FailsAt task options config files loaded stage) :
      Ends task options config files loaded .success
  | fails {stage : BuildStage} (fails : FailsAt task options config files loaded stage)
      (shown : ¬ Masked task options config files loaded) :
      Ends task options config files loaded stage.exitCode
  | masked (masked : Masked task options config files loaded) :
      Ends task options config files loaded .refusedInput

/-- What goes wrong when a task writes what was compiled. -/
def Task.faults (task : Task) (options : BuildOptions) (config : Config) (files : Files)
    (c : Compilation) : List ExportFault :=
  match task with
  | .build (some directory) time =>
    (c.exportTo (exportSettings options config directory) time files).2.faults
  | _ => []

theorem failsAt_write_iff {c : Compilation} (accepted : Accepted options config loaded)
    (built : Compilation.build config loaded.models = .ok c) :
    FailsAt task options config files loaded .write ↔ task.faults options config files c ≠ [] := by
  constructor
  · intro fails
    cases fails with
    | write asked _ compiled faults =>
      rw [built] at compiled
      obtain rfl := Except.ok.inj compiled
      rw [asked]
      exact faults
  · intro faults
    match task, faults with
    | .build (some directory) time, faults => exact .write rfl accepted built faults
    | .build none _, faults | .review, faults => exact absurd rfl faults

theorem Reviewed.validationErrors_eq_nil (reviewed : Reviewed options config t)
    (accepted : Accepted options config t.loaded) : t.validationErrors = [] := by
  obtain ⟨passed, accepts⟩ := (accepted_iff reviewed).mp accepted
  exact (validationErrors_eq_nil_iff (by simpa [passed] using reviewed.review)).mpr accepts

theorem Reviewed.ends_stopped (reviewed : Reviewed options config t)
    (stopped : ¬ Accepted options config t.loaded) :
    Ends task options config files t.loaded t.exitCode := by
  by_cases refused : options.strict = true ∧ t.loaded.errors ≠ []
  · have failed := reviewed.loadFailed_iff.mpr refused
    have unreviewed : t.review = none := by simpa [failed] using reviewed.review
    rw [exitCode_refused failed (by simp [BuildReport.validationErrors, unreviewed])]
    refine .fails (.load refused.1 refused.2) fun masked => ?_
    exact absurd (refused.1.symm.trans masked.lenient) (by decide)
  · have passed : t.loadFailed = false := by
      rwa [← Bool.not_eq_true, reviewed.loadFailed_iff]
    have read : t.review = some (Build.review config t.loaded) := by
      simpa [passed] using reviewed.review
    have fails : FailsAt task options config files t.loaded .validate := by
      refine .validate refused (Classical.byContradiction fun unrejected => stopped ?_)
      obtain ⟨valid, unwarned⟩ := not_or.mp unrejected
      exact ⟨refused, Classical.not_not.mp valid, unwarned⟩
    have told : t.validationErrors ≠ [] := by
      rw [Ne, validationErrors_eq_nil_iff read]
      exact fun accepts => stopped ((accepted_iff reviewed).mpr ⟨passed, accepts⟩)
    rw [exitCode_invalid told]
    exact .fails fails fun masked => absurd (fails.unique masked.unwritten) (by decide)

/-- A review of models that are accepted has no stage to fail at. -/
theorem Reviewed.ends_review (reviewed : Reviewed options config t)
    (accepted : Accepted options config t.loaded) :
    Ends .review options config files t.loaded t.exitCode := by
  rw [exitCode_passed ((accepted_iff reviewed).mp accepted).1
    (reviewed.validationErrors_eq_nil accepted)
    (by simp [BuildReport.generationErrors, reviewed.compilation]),
    if_pos (by simp [BuildReport.exportErrors, reviewed.exported])]
  refine .succeeds fun stage fails => ?_
  obtain rfl := fails.eq_write accepted
  cases fails with
  | write asked => cases asked

/-- Once the models are compiled, a report fails by what goes wrong in writing them. -/
theorem write_exitCode {c : Compilation} {output : Option Path} {time : String}
    (reviewed : Reviewed options config t) (accepted : Accepted options config t.loaded) :
    (write config output time files { t with compilation := some (.ok c) }).2.exitCode =
      if ((Task.build output time).faults options config files c).isEmpty then .success
      else if t.loaded.errors.isEmpty then .failedExport else .refusedInput := by
  have passed := ((accepted_iff reviewed).mp accepted).1
  have valid := reviewed.validationErrors_eq_nil accepted
  cases output with
  | none =>
    have code := exitCode_passed (r := { t with compilation := some (.ok c) }) passed valid rfl
    simpa [write, Task.faults, BuildReport.exportErrors, reviewed.exported] using code
  | some directory =>
    let result := (c.exportTo (exportSettings t.options config directory) time files).2
    have code := exitCode_passed
      (r := { t with compilation := some (.ok c), exported := some result }) passed valid rfl
    simpa [write, Task.faults, BuildReport.exportErrors, result, reviewed.options] using code

theorem Ended.ends (ended : Ended task config files t r) (reviewed : Reviewed options config t) :
    Ends task options config files t.loaded r.exitCode := by
  by_cases accepted : Accepted options config t.loaded
  · cases ended with
    | reviewed asked => exact asked ▸ reviewed.ends_review accepted
    | @built output time _ asked compiled =>
      obtain ⟨c, built, rfl⟩ := compile_accepted reviewed accepted compiled
      have unwritten : FailsAt task options config files t.loaded .write ↔
          task.faults options config files c ≠ [] := failsAt_write_iff accepted built
      rw [write_exitCode reviewed accepted, ← asked]
      split
      · next clean =>
        refine .succeeds fun stage fails => ?_
        obtain rfl := fails.eq_write accepted
        exact unwritten.mp fails (List.isEmpty_iff.mp clean)
      · next faults =>
        have fails := unwritten.mpr (mt List.isEmpty_iff.mpr faults)
        split
        · next whole => exact .fails fails fun masked => masked.skipped (List.isEmpty_iff.mp whole)
        · next skipped =>
          have skipped : t.loaded.errors ≠ [] := mt List.isEmpty_iff.mpr skipped
          refine .masked ⟨?_, skipped, fails⟩
          rw [Bool.eq_false_iff]
          exact fun strict => accepted.unrefused ⟨strict, skipped⟩
  · rw [ended.eq_of_stopped reviewed accepted]
    exact reviewed.ends_stopped accepted

/-- A task succeeds just when no stage fails, and its exit code else tells which one did, except
that a build with sources left out ends with the code for refused input if it cannot write. -/
theorem exitCode_names_stage
    (told : task.report parsers options models config files = .ok r) :
    load parsers options.strict models files = .ok r.loaded ∧
    (r.exitCode = .success ↔ ∀ stage, ¬ FailsAt task options config files r.loaded stage) ∧
    ∀ stage, (¬ Masked task options config files r.loaded →
        (r.exitCode = stage.exitCode ↔ FailsAt task options config files r.loaded stage)) ∧
      (Masked task options config files r.loaded →
        (r.exitCode = stage.exitCode ↔ stage = .load)) := by
  obtain ⟨t, loading, reviewed, ended⟩ := Task.report_ok told
  rw [ended.keeps_loaded reviewed]
  have ends : Ends task options config files t.loaded r.exitCode := ended.ends reviewed
  generalize r.exitCode = code at ends
  refine ⟨loading, ?_⟩
  cases ends with
  | succeeds clean =>
    refine ⟨iff_of_true rfl clean, fun stage => ⟨fun _ => ?_, fun masked => ?_⟩⟩
    · exact iff_of_false stage.exitCode_ne_success.symm (clean stage)
    · exact absurd masked.unwritten (clean .write)
  | @fails failed fails shown =>
    refine ⟨iff_of_false failed.exitCode_ne_success fun clean => clean failed fails,
      fun stage => ⟨fun _ => ?_, fun masked => absurd masked shown⟩⟩
    rw [BuildStage.exitCode_inj]
    exact ⟨fun same => same ▸ fails, fun other => fails.unique other⟩
  | masked masked =>
    refine ⟨iff_of_false (by decide) fun clean => clean .write masked.unwritten,
      fun stage => ⟨fun shown => absurd masked shown, fun _ => ?_⟩⟩
    show BuildStage.load.exitCode = stage.exitCode ↔ stage = .load
    rw [BuildStage.exitCode_inj, eq_comm]

end Codes

/-- A directory with a source that is refused, and a file in the place of the output. -/
def occupied : Files where
  home := ""
  here := []
  entries := [(["models"], .directory), (["models", "Post.json"], .file "oops".toUTF8),
    (["build"], .file "old".toUTF8)]

/-- A lenient build into the place that is occupied. -/
def overwriting : Task := .build (some ⟨.here, ["build"]⟩) ""

theorem exitCode_names_stage_occupied :
    ∃ r, overwriting.report .standard ⟨false, false, false⟩ ⟨.here, ["models"]⟩ .default occupied =
        .ok r ∧
      Masked overwriting ⟨false, false, false⟩ .default occupied r.loaded ∧
      r.exitCode = BuildStage.load.exitCode ∧ r.exitCode ≠ BuildStage.write.exitCode := by
  have ended : (match overwriting.report .standard ⟨false, false, false⟩ ⟨.here, ["models"]⟩
        .default occupied with
      | .ok report => report.exitCode
      | .error _ => .success) = .refusedInput := by decide +kernel
  cases told : overwriting.report .standard ⟨false, false, false⟩ ⟨.here, ["models"]⟩ .default
      occupied with
  | error fault => simp [told] at ended
  | ok r =>
    simp only [told] at ended
    obtain ⟨_, _, named⟩ := exitCode_names_stage told
    have masked : Masked overwriting ⟨false, false, false⟩ .default occupied r.loaded := by
      refine Classical.byContradiction fun shown => ?_
      cases ((named .load).1 shown).mp ended with
      | load strict _ => cases strict
    refine ⟨r, rfl, masked, ended, fun written => ?_⟩
    exact absurd (((named .write).2 masked).mp written) (by decide)

end Build

end ApiLoom
