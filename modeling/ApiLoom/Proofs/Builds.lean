import ApiLoom.Build.Outcome
import ApiLoom.Proofs.Generation
import ApiLoom.Proofs.Loading

/-!
# Builds

How far a build gets.  It breaks off at a source, at a finding or at a limit, stops for a reason
that its report tells, or compiles all models and writes what comes of them.  Only in the last
case are there other files than before.
-/

namespace ApiLoom

/-- The report tells of a failure before anything is written. -/
def BuildReport.TellsFailure (r : BuildReport) : Prop :=
  r.loadFailed = true ∨ r.validationErrors ≠ [] ∨ r.generationErrors ≠ []

namespace Build

/-- The report of a review all of whose findings have a message. -/
def review (config : Config) (loaded : Loaded) : Report :=
  Report.ofFindings (Review.all config loaded.models loaded.seeds)

/-- The reasons for which a build stops before it writes. -/
inductive Stops (options : BuildOptions) (config : Config) (loaded : Loaded) : Prop where
  | refused (strict : options.strict = true) (errors : loaded.errors ≠ [])
  | invalid (errors : (review config loaded).errors ≠ [])
  | warned (refuses : options.failOnWarnings = true)
      (warnings : (review config loaded).warnings ≠ [])
  | ungenerated (error : GenerationError)
      (failed : Compilation.build config loaded.models = .error (.refused error))

/-- What was loaded is let through to the compiling stage. -/
structure Accepted (options : BuildOptions) (config : Config) (loaded : Loaded) : Prop where
  unrefused : ¬ (options.strict = true ∧ loaded.errors ≠ [])
  valid : (review config loaded).errors = []
  unwarned : ¬ (options.failOnWarnings = true ∧ (review config loaded).warnings ≠ [])

/-- What a build breaks off at: a parser at one of the sources, the review at a finding that has
no message, the compiling stage at a limit. -/
inductive BreaksAt (parsers : Parsers) (options : BuildOptions) (models : Path) (config : Config)
    (files : Files) : BuildFault → Prop where
  | source {fault : ParserFault} {s : Source}
      (member : s ∈ (Repository.mk models options.strict).sources files)
      (breaks : s.Breaks parsers)
      (unread : load parsers options.strict models files = .error fault) :
      BreaksAt parsers options models config files (.source fault)
  | finding {loaded : Loaded} {f : Finding}
      (loading : load parsers options.strict models files = .ok loaded)
      (unrefused : ¬ (options.strict = true ∧ loaded.errors ≠ []))
      (found : f ∈ Review.all config loaded.models loaded.seeds) (long : f.isWritable = false) :
      BreaksAt parsers options models config files (.finding .longNumber)
  | limit {loaded : Loaded} (loading : load parsers options.strict models files = .ok loaded)
      (told : Review.report config loaded.models loaded.seeds = .ok (review config loaded))
      (accepted : Accepted options config loaded)
      (breaksOff : Compilation.BreaksOff config loaded.models) :
      BreaksAt parsers options models config files (.limit .longNumber)

/-- What a build takes from a directory, or what it breaks off at. -/
inductive Loads (parsers : Parsers) (r : Repository) (files : Files) :
    Except ParserFault Loaded → Prop where
  | modelsBroken {fault : ParserFault}
      (broken : (r.loadModels parsers files).outcome = .error (.broken fault)) :
      Loads parsers r files (.error fault)
  | seedsBroken {fault : ParserFault}
      (broken : (r.loadSeeds parsers files).outcome = .error fault) :
      Loads parsers r files (.error fault)
  | refused {e : LoadError} {seeds : Review.SeedData} (strict : r.strict = true)
      (refusal : (r.loadModels parsers files).outcome = .error (.refused e))
      (seeding : (r.loadSeeds parsers files).outcome = .ok seeds) :
      Loads parsers r files (.ok ⟨[], seeds, e :: (r.loadModels parsers files).skipped,
        (r.loadSeeds parsers files).skipped⟩)
  | found {models : List Model} {seeds : Review.SeedData}
      (loading : (r.loadModels parsers files).outcome = .ok models)
      (seeding : (r.loadSeeds parsers files).outcome = .ok seeds) :
      Loads parsers r files (.ok ⟨models, seeds, (r.loadModels parsers files).skipped,
        (r.loadSeeds parsers files).skipped⟩)

section Stages

variable {parsers : Parsers} {options : BuildOptions} {models : Path} {output : Option Path}
  {config : Config} {time : String} {files after : Files} {loaded : Loaded}
  {r t : BuildReport} {outcome : Except BuildFault BuildReport}

/-! ### Loading -/

theorem load_loads (parsers : Parsers) (r : Repository) (files : Files) :
    Loads parsers r files (load parsers r.strict r.directory files) := by
  unfold load
  cases loading : (r.loadModels parsers files).outcome with
  | error failure =>
    cases failure with
    | broken fault =>
      simp only [loading]
      exact .modelsBroken loading
    | refused e =>
      have strict : r.strict = true := by
        cases lenient : r.strict with
        | true => rfl
        | false => exact absurd loading ((Repository.loadsLeniently lenient).unrefused e)
      cases seeding : (r.loadSeeds parsers files).outcome with
      | error fault =>
        simp only [loading, seeding]
        exact .seedsBroken seeding
      | ok seeds =>
        simp only [loading, seeding]
        exact .refused strict loading seeding
  | ok found =>
    cases seeding : (r.loadSeeds parsers files).outcome with
    | error fault =>
      simp only [loading, seeding]
      exact .seedsBroken seeding
    | ok seeds =>
      simp only [loading, seeding]
      exact .found loading seeding

theorem breaks_of_load_error {strict : Bool} {fault : ParserFault}
    (failed : load parsers strict models files = .error fault) :
    ∃ s ∈ (Repository.mk models strict).sources files, s.Breaks parsers := by
  have loads := load_loads parsers ⟨models, strict⟩ files
  rw [failed] at loads
  cases loads with
  | modelsBroken broken =>
    obtain ⟨s, member, breaks⟩ := Repository.breaks_of_loadModels broken
    exact ⟨s, (List.mem_filter.mp member).1, breaks⟩
  | seedsBroken broken =>
    obtain ⟨seed, member, breaks⟩ := Repository.breaks_of_loadSeeds broken
    obtain ⟨s, listed, named⟩ := List.mem_filterMap.mp member
    obtain ⟨name, _, rfl⟩ := Option.map_eq_some_iff.mp named
    exact ⟨s, listed, breaks⟩

theorem models_of_load_ok (returned : load parsers options.strict models files = .ok loaded)
    (unrefused : ¬ (options.strict = true ∧ loaded.errors ≠ [])) :
    ((Repository.mk models options.strict).loadModels parsers files).outcome =
      .ok loaded.models := by
  have loads := load_loads parsers ⟨models, options.strict⟩ files
  rw [returned] at loads
  cases loads with
  | refused strict _ _ => exact absurd ⟨strict, by simp⟩ unrefused
  | found loading _ => exact loading

/-! ### Reviewing -/

/-- A report to which nothing was added since the review. -/
structure Reviewed (options : BuildOptions) (config : Config) (r : BuildReport) : Prop where
  options : r.options = options
  review : r.review = if r.loadFailed then none else some (review config r.loaded)
  told : r.loadFailed = false →
    Review.report config r.loaded.models r.loaded.seeds = .ok (Build.review config r.loaded)
  compilation : r.compilation = none
  exported : r.exported = none

theorem Reviewed.loadFailed_iff (reviewed : Reviewed options config r) :
    r.loadFailed = true ↔ options.strict = true ∧ r.loaded.errors ≠ [] := by
  simp [BuildReport.loadFailed, reviewed.options]

theorem loadedReport_loadFailed :
    (loadedReport options models files loaded).loadFailed = false ↔
      ¬ (options.strict = true ∧ loaded.errors ≠ []) := by
  simp [BuildReport.loadFailed, loadedReport]

theorem addReview_passed (passed : r.loadFailed = false) :
    addReview config r = (Review.report config r.loaded.models r.loaded.seeds).map
      fun report => { r with review := some report } := by
  rw [addReview, passed]
  cases Review.report config r.loaded.models r.loaded.seeds <;> rfl

theorem validate_unread {fault : ParserFault}
    (unread : load parsers options.strict models files = .error fault) :
    validate parsers options models config files = .error (.source fault) := by
  rw [validate, unread]
  rfl

theorem validate_loaded (loading : load parsers options.strict models files = .ok loaded) :
    validate parsers options models config files =
      (addReview config (loadedReport options models files loaded)).mapError .finding := by
  rw [validate, loading]
  rfl

theorem Reviewed.of_told (models : Path) (files : Files) (directory : Option String)
    (unrefused : ¬ (options.strict = true ∧ loaded.errors ≠ []))
    (told : Review.report config loaded.models loaded.seeds = .ok (Build.review config loaded)) :
    Reviewed options config { loadedReport options models files loaded with
      outputDirectory := directory
      review := some (Build.review config loaded) } where
  options := rfl
  review := (if_neg (by simpa [BuildReport.loadFailed, loadedReport] using unrefused)).symm
  told _ := told
  compilation := rfl
  exported := rfl

/-- What comes of the stages before the models are compiled. -/
inductive Validates (parsers : Parsers) (options : BuildOptions) (models : Path)
    (config : Config) (files : Files) : Except BuildFault BuildReport → Prop where
  | broken {fault : BuildFault} (breaks : BreaksAt parsers options models config files fault) :
      Validates parsers options models config files (.error fault)
  | reviewed {r : BuildReport} (loading : load parsers options.strict models files = .ok r.loaded)
      (reviewed : Reviewed options config r) :
      Validates parsers options models config files (.ok r)

theorem validate_validates (parsers : Parsers) (options : BuildOptions) (models : Path)
    (config : Config) (files : Files) : Validates parsers options models config files
      (validate parsers options models config files) := by
  cases loading : load parsers options.strict models files with
  | error fault =>
    obtain ⟨s, member, breaks⟩ := breaks_of_load_error loading
    rw [validate_unread loading]
    exact .broken (.source member breaks loading)
  | ok loaded =>
    rw [validate_loaded loading]
    cases failed : (loadedReport options models files loaded).loadFailed with
    | true =>
      rw [addReview, if_pos failed]
      exact .reviewed loading ⟨rfl, (if_pos failed).symm, by simp [failed], rfl, rfl⟩
    | false =>
      have unrefused := loadedReport_loadFailed.mp failed
      rw [addReview_passed failed]
      show Validates parsers options models config files
        (((Review.report config loaded.models loaded.seeds).map _).mapError BuildFault.finding)
      cases told : Review.report config loaded.models loaded.seeds with
      | error fault =>
        obtain ⟨f, found, long⟩ := Report.written_eq_error_iff.mp told
        cases fault
        exact .broken (.finding loading unrefused found long)
      | ok report =>
        obtain rfl := (Report.written_eq_ok_iff.mp told).2
        exact .reviewed loading (.of_told models files none unrefused told)

/-! ### Compiling -/

/-- What the compiling stage makes of a reviewed report. -/
inductive Compiles (config : Config) (r : BuildReport) :
    Except MessageFault BuildReport → Prop where
  | refused (failed : r.loadFailed = true) (unreviewed : r.review = none) :
      Compiles config r (.ok r)
  | rejected (passed : r.loadFailed = false) (reviewed : r.review = some (review config r.loaded))
      (rejects : r.accepts (review config r.loaded) = false) : Compiles config r (.ok r)
  | ungenerated {e : GenerationError} (passed : r.loadFailed = false)
      (reviewed : r.review = some (review config r.loaded))
      (accepts : r.accepts (review config r.loaded) = true)
      (failed : Compilation.build config r.loaded.models = .error (.refused e)) :
      Compiles config r (.ok { r with compilation := some (.error e) })
  | broken {fault : MessageFault} (passed : r.loadFailed = false)
      (accepts : r.accepts (review config r.loaded) = true)
      (failed : Compilation.build config r.loaded.models = .error (.broken fault)) :
      Compiles config r (.error fault)
  | compiled {c : Compilation} (passed : r.loadFailed = false)
      (reviewed : r.review = some (review config r.loaded))
      (accepts : r.accepts (review config r.loaded) = true)
      (built : Compilation.build config r.loaded.models = .ok c) :
      Compiles config r (.ok { r with compilation := some (.ok c) })

theorem compile_compiles (reviewed : Reviewed options config r) :
    Compiles config r (compile config r) := by
  cases failed : r.loadFailed with
  | true =>
    have read : r.review = none := by simpa [failed] using reviewed.review
    have same : compile config r = .ok r := by simp [compile, read]
    rw [same]
    exact .refused failed read
  | false =>
    have read : r.review = some (review config r.loaded) := by simpa [failed] using reviewed.review
    cases accepts : r.accepts (review config r.loaded) with
    | false =>
      have same : compile config r = .ok r := by simp [compile, read, accepts]
      rw [same]
      exact .rejected failed read accepts
    | true =>
      cases built : Compilation.build config r.loaded.models with
      | ok c =>
        have added : compile config r = .ok { r with compilation := some (.ok c) } := by
          simp [compile, read, accepts, built]
        rw [added]
        exact .compiled failed read accepts built
      | error failure =>
        cases failure with
        | refused e =>
          have added : compile config r = .ok { r with compilation := some (.error e) } := by
            simp [compile, read, accepts, built]
          rw [added]
          exact .ungenerated failed read accepts built
        | broken fault =>
          have broken : compile config r = .error fault := by
            simp [compile, read, accepts, built]
          rw [broken]
          exact .broken failed accepts built

theorem accepts_iff (reviewed : Reviewed options config r) (report : Report) :
    r.accepts report = true ↔ report.errors = [] ∧
      ¬ (options.failOnWarnings = true ∧ report.warnings ≠ []) := by
  simp only [BuildReport.accepts, BuildReport.warningsRefused, reviewed.options, Report.isValid]
  cases report.errors <;> cases options.failOnWarnings <;> simp

theorem accepted_iff (reviewed : Reviewed options config r) :
    Accepted options config r.loaded ↔
      r.loadFailed = false ∧ r.accepts (review config r.loaded) = true := by
  rw [accepts_iff reviewed, ← Bool.not_eq_true, reviewed.loadFailed_iff]
  exact ⟨fun ⟨unrefused, valid, unwarned⟩ => ⟨unrefused, valid, unwarned⟩,
    fun ⟨unrefused, valid, unwarned⟩ => ⟨unrefused, valid, unwarned⟩⟩

theorem validationErrors_eq_nil_iff {report : Report} (read : r.review = some report) :
    r.validationErrors = [] ↔ r.accepts report = true := by
  simp only [BuildReport.validationErrors, read, BuildReport.accepts, Report.isValid,
    List.append_eq_nil_iff, List.map_eq_nil_iff]
  cases r.warningsRefused report <;> simp

theorem Compiles.keeps_loaded (compiles : Compiles config r (.ok t)) : t.loaded = r.loaded := by
  cases compiles <;> rfl

/-- The compiling stage ends a build for one of the reasons that there are, and tells of it; or
there are none of them, and there is a compilation of all models. -/
theorem Compiles.ends (reviewed : Reviewed options config r)
    (compiles : Compiles config r (.ok t)) :
    (Stops options config r.loaded ∧ t.TellsFailure ∧ t.result = none ∧ t.exported = none) ∨
      (¬ Stops options config r.loaded ∧ ¬ t.TellsFailure ∧
        ∃ c, Compilation.build config r.loaded.models = .ok c ∧
          t = { r with compilation := some (.ok c) }) := by
  have nothing : r.result = none := by simp [BuildReport.result, reviewed.compilation]
  cases compiles with
  | refused failed _ =>
    obtain ⟨strict, errors⟩ := reviewed.loadFailed_iff.mp failed
    exact .inl ⟨.refused strict errors, .inl failed, nothing, reviewed.exported⟩
  | rejected _ read rejects =>
    have told : r.validationErrors ≠ [] := by
      simp [validationErrors_eq_nil_iff read, rejects]
    refine .inl ⟨?_, .inr (.inl told), nothing, reviewed.exported⟩
    by_cases valid : (review config r.loaded).errors = []
    · have warned : options.failOnWarnings = true ∧ (review config r.loaded).warnings ≠ [] := by
        refine Classical.not_not.mp fun unwarned => ?_
        have accepts := (accepts_iff reviewed _).mpr ⟨valid, unwarned⟩
        exact absurd (accepts.symm.trans rejects) (by decide)
      exact .warned warned.1 warned.2
    · exact .invalid valid
  | ungenerated _ _ _ failed =>
    exact .inl ⟨.ungenerated _ failed, .inr (.inr (by simp [BuildReport.generationErrors])), rfl,
      reviewed.exported⟩
  | @compiled c passed read accepts built =>
    have accepted := (accepted_iff reviewed).mpr ⟨passed, accepts⟩
    refine .inr ⟨?_, ?_, c, built, rfl⟩
    · rintro (⟨strict, errors⟩ | ⟨errors⟩ | ⟨refuses, warnings⟩ | ⟨e, failed⟩)
      · exact accepted.unrefused ⟨strict, errors⟩
      · exact errors accepted.valid
      · exact accepted.unwarned ⟨refuses, warnings⟩
      · rw [built] at failed
        cases failed
    · rintro (failed | told | told)
      · exact absurd (failed.symm.trans passed) (by decide)
      · exact told ((validationErrors_eq_nil_iff read).mpr accepts)
      · exact told rfl

/-! ### Whole builds -/

/-- Neither the files nor the report have anything that was compiled. -/
structure Untouched (files after : Files) (report : BuildReport) : Prop where
  files : after = files
  result : report.result = none
  manifest : report.manifest = none

/-- All models of the directory were compiled, and that was written where there is a place. -/
structure Finished (parsers : Parsers) (options : BuildOptions) (models : Path)
    (output : Option Path) (config : Config) (time : String) (files after : Files)
    (report : BuildReport) (c : Compilation) : Prop where
  models : ((Repository.mk models options.strict).loadModels parsers files).outcome =
    .ok report.loaded.models
  built : Compilation.build config report.loaded.models = .ok c
  result : report.result = some c
  unwritten : output = none → after = files ∧ report.exported = none
  written : ∀ directory, output = some directory →
    after = (c.exportTo (exportSettings options config directory) time files).1 ∧
      report.exported = some (c.exportTo (exportSettings options config directory) time files).2

/-- What comes of all stages. -/
inductive Runs (parsers : Parsers) (options : BuildOptions) (models : Path)
    (output : Option Path) (config : Config) (time : String) (files : Files) :
    Files × Except BuildFault BuildReport → Prop where
  | broken {fault : BuildFault} (breaks : BreaksAt parsers options models config files fault) :
      Runs parsers options models output config time files (files, .error fault)
  | ended {r t : BuildReport} (loading : load parsers options.strict models files = .ok r.loaded)
      (reviewed : Reviewed options config r) (compiled : compile config r = .ok t) :
      Runs parsers options models output config time files
        ((write config output time files t).1, .ok (write config output time files t).2)

theorem run_runs (parsers : Parsers) (options : BuildOptions) (models : Path)
    (output : Option Path) (config : Config) (time : String) (files : Files) :
    Runs parsers options models output config time files
      (run parsers options models output config time files) := by
  unfold run
  have validates := validate_validates parsers options models config files
  cases validating : validate parsers options models config files with
  | error fault =>
    rw [validating] at validates
    cases validates with
    | broken breaks => exact .broken breaks
  | ok r =>
    rw [validating] at validates
    cases validates with
    | reviewed loading reviewed =>
      obtain ⟨placed, located⟩ : ∃ placed : BuildReport, placed = { r with
          outputDirectory := output.map fun directory => files.text (files.resolve directory) } :=
        ⟨_, rfl⟩
      have kept : Reviewed options config placed := by
        rw [located]
        exact ⟨reviewed.options, reviewed.review, reviewed.told, reviewed.compilation,
          reviewed.exported⟩
      have same : placed.loaded = r.loaded := by rw [located]
      rw [← same] at loading
      have compiles := compile_compiles kept
      dsimp only
      rw [← located]
      cases compiled : compile config placed with
      | ok t => exact .ended loading kept compiled
      | error fault =>
        rw [compiled] at compiles
        cases compiles with
        | broken passed accepts failed =>
          cases fault
          exact .broken (.limit loading (kept.told passed)
            ((accepted_iff kept).mpr ⟨passed, accepts⟩)
            ⟨Compilation.build_reason failed, failed⟩)

theorem write_none (nothing : r.result = none) :
    write config output time files r = (files, r) := by
  unfold write
  split
  · next c directory compiled => simp [BuildReport.result, compiled] at nothing
  · rfl

theorem Finished.of_write {c : Compilation} (reviewed : Reviewed options config r)
    (loading : ((Repository.mk models options.strict).loadModels parsers files).outcome =
      .ok r.loaded.models)
    (built : Compilation.build config r.loaded.models = .ok c)
    (compiled : t = { r with compilation := some (.ok c) }) :
    Finished parsers options models output config time files
      (write config output time files t).1 (write config output time files t).2 c := by
  subst compiled
  cases output with
  | none => exact ⟨loading, built, rfl, fun _ => ⟨rfl, reviewed.exported⟩, by simp⟩
  | some directory =>
    refine ⟨loading, built, rfl, by simp, ?_⟩
    rintro _ ⟨⟩
    simp [write, reviewed.options]

/-- A build does break off there. -/
theorem BreaksAt.run {fault : BuildFault}
    (breaks : BreaksAt parsers options models config files fault) :
    run parsers options models output config time files = (files, .error fault) := by
  cases breaks with
  | source _ _ unread => rw [Build.run, validate_unread unread]
  | @finding loaded f loading unrefused found long =>
    have untold : Review.report config loaded.models loaded.seeds = .error .longNumber :=
      Report.written_eq_error_iff.mpr ⟨f, found, long⟩
    rw [Build.run, validate_loaded loading,
      addReview_passed (loadedReport_loadFailed.mpr unrefused), loadedReport, untold]
    rfl
  | @limit loaded loading told accepted breaksOff =>
    let checked : BuildReport := { loadedReport options models files loaded with
      review := some (review config loaded) }
    have validated : validate parsers options models config files = .ok checked := by
      rw [validate_loaded loading,
        addReview_passed (loadedReport_loadFailed.mpr accepted.unrefused), loadedReport, told]
      rfl
    let report : BuildReport := { checked with
      outputDirectory := output.map fun directory => files.text (files.resolve directory) }
    have reviewed : Reviewed options config report :=
      .of_told models files _ accepted.unrefused told
    have broken : compile config report = .error .longNumber := by
      have accepts := ((accepted_iff reviewed).mp accepted).2
      simp only [compile, report, checked, loadedReport] at accepts ⊢
      simp only [accepts, breaksOff.broken, if_true]
    simp only [Build.run, validated]
    rw [broken]

/-- A build breaks off, and then nothing is written and nothing told, or it writes only after it
has compiled all models; and these it compiles unless its report tells of one of the reasons to
stop. -/
theorem unfinished_writes_nothing
    (ran : run parsers options models output config time files = (after, outcome)) :
    (∀ fault, outcome = .error fault ↔ BreaksAt parsers options models config files fault) ∧
    (∀ fault, outcome = .error fault → after = files) ∧
    ∀ report, outcome = .ok report →
      load parsers options.strict models files = .ok report.loaded ∧
      (report.TellsFailure ↔ Stops options config report.loaded) ∧
      (Stops options config report.loaded → Untouched files after report) ∧
      (¬ Stops options config report.loaded →
        ∃ c, Finished parsers options models output config time files after report c) := by
  have runs := run_runs parsers options models output config time files
  rw [ran] at runs
  refine ⟨fun fault => ⟨?_, fun breaks => ?_⟩, ?_, ?_⟩
  · rintro rfl
    cases runs with
    | broken breaks => exact breaks
  · exact congrArg Prod.snd (ran.symm.trans breaks.run)
  · rintro fault rfl
    cases runs with
    | broken _ => rfl
  · rintro report rfl
    cases runs with
    | @ended r t loading reviewed compiled =>
      have compiles := compile_compiles reviewed
      rw [compiled] at compiles
      rcases compiles.ends reviewed with
        ⟨stops, tells, nothing, unwritten⟩ | ⟨goes, quiet, c, built, rfl⟩
      · rw [write_none nothing]
        have same := compiles.keeps_loaded
        simp only [same]
        exact ⟨loading, iff_of_true tells stops,
          fun _ => ⟨rfl, nothing, by simp [BuildReport.manifest, unwritten]⟩,
          fun goes => absurd stops goes⟩
      · have whole := models_of_load_ok loading fun refused => goes (.refused refused.1 refused.2)
        have finished : Finished parsers options models output config time files _ _ c :=
          .of_write reviewed whole built rfl
        cases output <;>
          exact ⟨loading, iff_of_false quiet goes, fun stops => absurd stops goes,
            fun _ => ⟨c, finished⟩⟩

end Stages

/-- A directory with a source that is refused, and what an earlier build has left. -/
def builtBefore : Files where
  home := ""
  here := []
  entries := [(["models"], .directory), (["models", "Post.json"], .file "oops".toUTF8),
    (["build"], .directory), (["build", "old.txt"], .file "old".toUTF8)]

/-- A build that empties its output directory before it writes. -/
def rebuild (strict : Bool) : Files × Except BuildFault BuildReport :=
  run .standard ⟨strict, false, true⟩ ⟨.here, ["models"]⟩ (some ⟨.here, ["build"]⟩) Config.default
    "" builtBefore

/-- A build of a directory whose one source has a number without digits. -/
def hollowBuild : Files × Except BuildFault BuildReport :=
  run .standard ⟨false, false, true⟩ ⟨.here, ["models"]⟩ (some ⟨.here, ["build"]⟩) Config.default
    "" hollowNumber

theorem unfinished_writes_nothing_builtBefore :
    (∃ report, (rebuild true).2 = .ok report ∧ Untouched builtBefore (rebuild true).1 report) ∧
      (∃ report c, (rebuild false).2 = .ok report ∧
        Finished .standard ⟨false, false, true⟩ ⟨.here, ["models"]⟩
          (some ⟨.here, ["build"]⟩) Config.default "" builtBefore (rebuild false).1 report c) ∧
      ∃ fault, hollowBuild = (hollowNumber, .error fault) ∧ BreaksAt .standard
        ⟨false, false, true⟩ ⟨.here, ["models"]⟩ Config.default hollowNumber fault := by
  have refused : (match (rebuild true).2 with
      | .ok report => report.loadFailed
      | .error _ => false) = true := by decide +kernel
  have accepted : (match (rebuild false).2 with
      | .ok report => report.loadFailed || !report.validationErrors.isEmpty ||
          !report.generationErrors.isEmpty
      | .error _ => true) = false := by decide +kernel
  have broken : (match hollowBuild.2 with
      | .ok _ => false
      | .error _ => true) = true := by decide +kernel
  refine ⟨?_, ?_, ?_⟩
  · cases returned : (rebuild true).2 with
    | error fault => simp [returned] at refused
    | ok report =>
      simp only [returned] at refused
      have ran : rebuild true = ((rebuild true).1, .ok report) := Prod.ext rfl returned
      obtain ⟨_, tells, untouched, _⟩ := (unfinished_writes_nothing ran).2.2 report rfl
      exact ⟨report, rfl, untouched (tells.mp (.inl refused))⟩
  · cases returned : (rebuild false).2 with
    | error fault => simp [returned] at accepted
    | ok report =>
      have quiet : ¬ report.TellsFailure := by
        simpa [returned, BuildReport.TellsFailure, and_assoc] using accepted
      have ran : rebuild false = ((rebuild false).1, .ok report) := Prod.ext rfl returned
      obtain ⟨_, tells, _, finished⟩ := (unfinished_writes_nothing ran).2.2 report rfl
      obtain ⟨c, whole⟩ := finished (mt tells.mpr quiet)
      exact ⟨report, c, rfl, whole⟩
  · cases returned : hollowBuild.2 with
    | ok report => simp [returned] at broken
    | error fault =>
      have ran : hollowBuild = (hollowBuild.1, .error fault) := Prod.ext rfl returned
      obtain ⟨breaks, same, _⟩ := unfinished_writes_nothing ran
      exact ⟨fault, Prod.ext (same fault rfl) returned, (breaks fault).mp rfl⟩

end Build

end ApiLoom
