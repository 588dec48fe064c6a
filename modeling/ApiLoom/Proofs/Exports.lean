import ApiLoom.Export.Basic
import ApiLoom.Proofs.ModelOrder
import ApiLoom.Proofs.WrittenFiles

/-!
# Exports

An export tries every artifact in the order of the paths, whatever comes of the others.  Its
manifest lists those that were written, and its faults are those of the rest.
-/

namespace ApiLoom

/-! ### Artifacts in order -/

theorem Compilation.artifacts_paths_nodup (c : Compilation) :
    (c.artifacts.map (·.path)).Nodup := by
  rw [(c.artifacts_perm.map _).nodup_iff, lastOfEach_paths]
  exact List.nodup_dedup _

theorem Compilation.artifacts_paths_increase (c : Compilation) :
    (c.artifacts.map (·.path)).Pairwise (· < ·) := by
  refine c.artifacts_paths_sorted.imp₂ (fun a b le different => ?_) c.artifacts_paths_nodup
  exact Decidable.byContradiction fun not_lt =>
    different (String.le_antisymm le (String.not_lt.mp not_lt))

theorem Compilation.artifacts_of_no_exchanges {c : Compilation} (none : c.exchanges = []) :
    c.artifacts = [c.indexesArtifact, c.resolversArtifact, ⟨schemaPath, c.schema.text⟩] := by
  have candidates : c.candidates =
      [⟨schemaPath, c.schema.text⟩, c.resolversArtifact, c.indexesArtifact] := by
    rw [Compilation.candidates, templateArtifacts, none]
    rfl
  have apart : (c.candidates.map (·.path)).Nodup := by
    rw [candidates]
    change [schemaPath, resolversPath, indexesPath].Nodup
    decide
  have order : c.candidates.Perm
      [c.indexesArtifact, c.resolversArtifact, ⟨schemaPath, c.schema.text⟩] := by
    rw [candidates]
    exact (List.reverse_perm _).symm
  have sorted : ([c.indexesArtifact, c.resolversArtifact,
      (⟨schemaPath, c.schema.text⟩ : Artifact)].map (·.path)).Pairwise (· ≤ ·) := by
    change [indexesPath, resolversPath, schemaPath].Pairwise (· ≤ ·)
    decide
  calc c.artifacts = (lastOfEach c.candidates).mergeSort fun a b => decide (a.path ≤ b.path) := rfl
    _ = c.candidates.mergeSort fun a b => decide (a.path ≤ b.path) := by
      rw [lastOfEach_of_nodup apart]
    _ = List.mergeSort [c.indexesArtifact, c.resolversArtifact, ⟨schemaPath, c.schema.text⟩]
        fun a b => decide (a.path ≤ b.path) := mergeSort_key_eq_of_perm Artifact.path order apart
    _ = _ := List.mergeSort_of_pairwise
      ((List.pairwise_map.mp sorted).imp fun le => decide_eq_true le)

/-! ### Writers -/

namespace FileWriter

/-- What a writer tells of a text it wrote is the number of its bytes. -/
def Counts (write : FileWriter) : Prop :=
  ∀ files p content after count,
    write files p content = (after, .ok count) → count = content.toUTF8.size

/-- A writer that does not get to some of the texts. -/
def refusing (write : FileWriter) (refuses : Path → Option FileError) : FileWriter :=
  fun files p content =>
    match refuses p with
    | some error => (files, .error error)
    | none => write files p content

theorem ofSettings_counts (s : ExportSettings) : (FileWriter.ofSettings s).Counts :=
  fun _ _ _ _ _ => Files.writeTextWith_counts

theorem Counts.refusing {write : FileWriter} (counts : write.Counts)
    (refuses : Path → Option FileError) : (write.refusing refuses).Counts := by
  intro files p content after count wrote
  unfold FileWriter.refusing at wrote
  split at wrote
  · cases wrote
  · exact counts files p content after count wrote

end FileWriter

/-! ### Attempts -/

/-- An artifact and what came of writing it. -/
abbrev Outcome := Artifact × Except FileError Nat

namespace Outcome

def written? (o : Outcome) : Option Artifact :=
  match o.2 with
  | .ok _ => some o.1
  | .error _ => none

def fault? (o : Outcome) : Option ExportFault :=
  match o.2 with
  | .ok _ => none
  | .error error => some (.notWritten o.1.path error)

def record? (o : Outcome) : Option FileRecord :=
  match o.2 with
  | .ok count => some (.ofArtifact o.1 count)
  | .error _ => none

end Outcome

/-- Artifacts are written below a directory in turn, each with the files that the one before it
left, whatever came of it. -/
inductive Attempts (write : FileWriter) (directory : Path) :
    Files → List Outcome → Files → Prop where
  | done (files : Files) : Attempts write directory files [] files
  | next {files middle after : Files} {a : Artifact} {outcome : Except FileError Nat}
      {rest : List Outcome}
      (tried : write files (directory.join (Path.ofText a.path)) a.content = (middle, outcome))
      (others : Attempts write directory middle rest after) :
      Attempts write directory files ((a, outcome) :: rest) after

section Attempts

variable {write : FileWriter} {directory : Path} {files after : Files} {outcomes : List Outcome}

/-- The first artifact is tried with the files as they are, the others with what that leaves. -/
theorem Attempts.first {a : Artifact} {rest : List Artifact}
    (attempts : Attempts write directory files outcomes after)
    (all : outcomes.map (·.1) = a :: rest) :
    let tried := write files (directory.join (Path.ofText a.path)) a.content
    ∃ others, outcomes = (a, tried.2) :: others ∧ others.map (·.1) = rest ∧
      Attempts write directory tried.1 others after := by
  cases attempts with
  | done => cases all
  | next tried attempts =>
    cases all
    rw [tried]
    exact ⟨_, rfl, rfl, attempts⟩

/-- The record of an artifact whose text was written whole. -/
def Artifact.record (a : Artifact) : FileRecord :=
  ⟨a.path, a.content.toUTF8.size, Text.countLines a.content, Digest.hexOf a.content⟩

theorem Attempts.records (counts : write.Counts)
    (attempts : Attempts write directory files outcomes after) :
    outcomes.filterMap Outcome.record? =
      (outcomes.filterMap Outcome.written?).map Artifact.record := by
  induction attempts with
  | done => rfl
  | @next files middle after a outcome rest tried others ih =>
    cases outcome with
    | error e => exact ih
    | ok count =>
      obtain rfl := counts _ _ _ _ _ tried
      exact congrArg (a.record :: ·) ih

/-- What was written are some of the artifacts, in their order. -/
theorem written_sublist (outcomes : List Outcome) :
    (outcomes.filterMap Outcome.written?).Sublist (outcomes.map (·.1)) := by
  induction outcomes with
  | nil => exact .slnil
  | cons o rest ih =>
    obtain ⟨a, outcome⟩ := o
    cases outcome with
    | error e => exact ih.cons a
    | ok count => exact ih.cons_cons a

end Attempts

namespace Exporter

/-- The account of an exporter with some more outcomes. -/
def noted (e : Exporter) (outcomes : List Outcome) : Exporter :=
  { e with records := e.records ++ outcomes.filterMap Outcome.record?
           faults := e.faults ++ outcomes.filterMap Outcome.fault? }

theorem noted_nil (e : Exporter) : e.noted [] = e := by
  simp [noted]

theorem noted_cons (e : Exporter) (a : Artifact) (outcome : Except FileError Nat)
    (rest : List Outcome) : e.noted ((a, outcome) :: rest) = (e.note a outcome).noted rest := by
  cases outcome <;>
    simp [noted, note, List.filterMap_cons, Outcome.record?, Outcome.fault?]

/-- A run tries all artifacts and keeps account of each outcome. -/
theorem writeArtifacts_attempts (write : FileWriter) (directory : Path) (e : Exporter)
    (files : Files) (artifacts : List Artifact) :
    ∃ outcomes after, outcomes.map (·.1) = artifacts ∧
      Attempts write directory files outcomes after ∧
      e.writeArtifacts write directory files artifacts = (after, e.noted outcomes) := by
  induction artifacts generalizing e files with
  | nil => exact ⟨[], files, rfl, .done files, by rw [writeArtifacts, noted_nil]⟩
  | cons a rest ih =>
    cases tried : write files (directory.join (Path.ofText a.path)) a.content with
    | mk middle outcome =>
      obtain ⟨outcomes, after, all, others, told⟩ := ih (e.note a outcome) middle
      refine ⟨(a, outcome) :: outcomes, after, congrArg (a :: ·) all, .next tried others, ?_⟩
      simp only [writeArtifacts, tried]
      rw [told, noted_cons]

/-! ### A whole export -/

theorem begin_eq (e : Exporter) : e.begin = ofSettings e.settings := rfl

/-- What an exporter was left with by an earlier export does not matter. -/
theorem run_eq_of_settings (write : FileWriter) {e other : Exporter}
    (same : e.settings = other.settings) (c : Compilation) (time : String) (files : Files) :
    e.run write c time files = other.run write c time files := by
  unfold run
  rw [begin_eq, begin_eq, same]

end Exporter

/-- A manifest lists these artifacts, which were written whole, and adds up what they amount to. -/
structure Manifest.Lists (m : Manifest) (written : List Artifact) : Prop where
  records : m.records = written.map Artifact.record
  files : m.totalFiles = written.length
  bytes : m.totalBytes = (written.map fun a => a.content.toUTF8.size).foldr (· + ·) 0
  lines : m.totalLines = (written.map fun a => Text.countLines a.content).foldr (· + ·) 0
  hash : m.aggregateHash = FileRecord.aggregateHash (written.map Artifact.record)

theorem FileRecord.sorted_eq {records : List FileRecord}
    (sorted : (records.map (·.path)).Pairwise (· ≤ ·)) : FileRecord.sorted records = records :=
  List.mergeSort_of_pairwise ((List.pairwise_map.mp sorted).imp fun le => decide_eq_true le)

theorem ExportSettings.manifest_lists (s : ExportSettings) (time directory : String)
    {written : List Artifact} (sorted : (written.map (·.path)).Pairwise (· ≤ ·)) :
    (s.manifest time directory (written.map Artifact.record)).Lists written := by
  have paths : ((written.map Artifact.record).map (·.path)).Pairwise (· ≤ ·) := by
    rwa [List.map_map]
  have records : (s.manifest time directory (written.map Artifact.record)).records =
      written.map Artifact.record := FileRecord.sorted_eq paths
  constructor
  · exact records
  · rw [Manifest.totalFiles, records, List.length_map]
  · rw [Manifest.totalBytes, records, List.map_map]
    rfl
  · rw [Manifest.totalLines, records, List.map_map]
    rfl
  · rw [Manifest.aggregateHash, records]

def refusal : Except FileError Nat → Option FileError
  | .ok _ => none
  | .error error => some error

/-- How an export goes on once there is a directory: each artifact is tried, and the manifest after
them if it is asked for and nothing failed. -/
structure Exports (write : FileWriter) (s : ExportSettings) (directory : Path)
    (artifacts : List Artifact) (prepared after : Files) (result : ExportResult)
    (outcomes : List Outcome) : Prop where
  all : outcomes.map (·.1) = artifacts
  manifest : result.manifest.Lists (outcomes.filterMap Outcome.written?)
  faults : result.faults = outcomes.filterMap Outcome.fault?
  files : ∃ middle, Attempts write directory prepared outcomes middle ∧
    if s.withManifest = true ∧ result.success = true then
      ∃ outcome, write middle (directory.child Manifest.fileName) result.manifest.text =
        (after, outcome) ∧ result.manifestError = refusal outcome
    else after = middle ∧ result.manifestError = none

namespace Exporter

variable {write : FileWriter}

theorem writeManifest_eq (write : FileWriter) (directory : Path) (e : Exporter) (files : Files)
    (manifest : Manifest) :
    (e.writeManifest write directory files manifest).2.settings = e.settings ∧
      (e.writeManifest write directory files manifest).2.records = e.records ∧
      (e.writeManifest write directory files manifest).2.faults = e.faults := by
  unfold writeManifest
  split
  · split <;> exact ⟨rfl, rfl, rfl⟩
  · exact ⟨rfl, rfl, rfl⟩

theorem writeManifest_tries (write : FileWriter) (directory : Path) (e : Exporter)
    (files : Files) (manifest : Manifest) (fresh : e.manifestError = none) :
    let told := e.writeManifest write directory files manifest
    if e.settings.withManifest = true ∧ e.faults.isEmpty = true then
      ∃ outcome, write files (directory.child Manifest.fileName) manifest.text =
        (told.1, outcome) ∧ told.2.manifestError = refusal outcome
    else told.1 = files ∧ told.2.manifestError = none := by
  unfold writeManifest
  by_cases asked : e.settings.withManifest = true ∧ e.faults.isEmpty = true
  · simp only [asked.1, asked.2, Bool.and_self, if_true, and_self]
    cases tried : write files (directory.child Manifest.fileName) manifest.text with
    | mk after outcome =>
      cases outcome with
      | error error => exact ⟨_, rfl, rfl⟩
      | ok count => exact ⟨_, rfl, fresh⟩
  · rw [if_neg asked, if_neg (by simpa using asked)]
    exact ⟨rfl, fresh⟩

theorem run_of_writeAll {e noted : Exporter} {c : Compilation} {files middle : Files}
    (written : e.begin.writeAll write (files.resolve e.settings.directory) files c.artifacts =
      (middle, noted)) (time : String) :
    let directory := files.resolve e.settings.directory
    let manifest := e.settings.manifest time (files.text directory) noted.records
    let told := noted.writeManifest write directory middle manifest
    e.run write c time files =
      (told.1, told.2, ⟨manifest, told.2.faults, told.2.manifestError⟩) := by
  simp only [run, written]

theorem writeAll_settings (write : FileWriter) (directory : Path) (e : Exporter) (files : Files)
    (artifacts : List Artifact) :
    (e.writeAll write directory files artifacts).2.settings = e.settings := by
  unfold writeAll
  split
  · rfl
  · next prepared _ =>
    obtain ⟨outcomes, after, -, -, told⟩ :=
      writeArtifacts_attempts write directory e prepared artifacts
    rw [told]
    rfl

theorem run_settings (write : FileWriter) (e : Exporter) (c : Compilation) (time : String)
    (files : Files) : (e.run write c time files).2.1.settings = e.settings := by
  have kept :=
    writeAll_settings write (files.resolve e.settings.directory) e.begin files c.artifacts
  rw [run_of_writeAll (Prod.ext rfl rfl) time]
  exact (writeManifest_eq ..).1.trans kept

theorem run_unprepared {prepared : Files} {error : FileError} (write : FileWriter) (e : Exporter)
    (c : Compilation) (time : String) (files : Files)
    (failed : e.settings.prepare (files.resolve e.settings.directory) files =
      (prepared, .error error)) :
    let exported := e.run write c time files
    let result := exported.2.2
    exported.1 = prepared ∧ result.manifest.Lists [] ∧ result.faults = [.noDirectory error] ∧
      result.manifestError = none := by
  have written : e.begin.writeAll write (files.resolve e.settings.directory) files c.artifacts =
      (prepared, { e.begin with faults := [.noDirectory error] }) := by
    rw [begin_eq, writeAll]
    simp only [ofSettings, failed, List.nil_append]
  rw [run_of_writeAll written time]
  have untried : ∀ manifest, Exporter.writeManifest write (files.resolve e.settings.directory)
      { e.begin with faults := [.noDirectory error] } prepared manifest =
        (prepared, { e.begin with faults := [.noDirectory error] }) := by
    intro manifest
    rw [writeManifest, if_neg (by simp)]
  dsimp only
  rw [untried]
  have lists : (e.settings.manifest time (files.text (files.resolve e.settings.directory))
      ([].map Artifact.record)).Lists [] := e.settings.manifest_lists time _ .nil
  exact ⟨rfl, lists, rfl, rfl⟩

theorem run_prepared {prepared : Files} (counts : write.Counts) (e : Exporter)
    (c : Compilation) (time : String) (files : Files)
    (ready : e.settings.prepare (files.resolve e.settings.directory) files = (prepared, .ok ())) :
    let exported := e.run write c time files
    ∃ outcomes, Exports write e.settings (files.resolve e.settings.directory) c.artifacts prepared
      exported.1 exported.2.2 outcomes := by
  obtain ⟨outcomes, middle, all, attempts, noted⟩ := writeArtifacts_attempts write
    (files.resolve e.settings.directory) e.begin prepared c.artifacts
  have written : e.begin.writeAll write (files.resolve e.settings.directory) files c.artifacts =
      (middle, e.begin.noted outcomes) := by
    rw [writeAll, ← noted]
    simp only [begin_eq, ofSettings, ready]
  have records : (e.begin.noted outcomes).records =
      (outcomes.filterMap Outcome.written?).map Artifact.record := attempts.records counts
  have sorted : ((outcomes.filterMap Outcome.written?).map (·.path)).Pairwise (· ≤ ·) := by
    refine (c.artifacts_paths_sorted).sublist ?_
    rw [← all]
    exact (written_sublist outcomes).map _
  rw [run_of_writeAll written time, records]
  have tries := writeManifest_tries write (files.resolve e.settings.directory)
    (e.begin.noted outcomes) middle (e.settings.manifest time
      (files.text (files.resolve e.settings.directory))
      ((outcomes.filterMap Outcome.written?).map Artifact.record)) rfl
  have faults := (writeManifest_eq write (files.resolve e.settings.directory)
    (e.begin.noted outcomes) middle (e.settings.manifest time
      (files.text (files.resolve e.settings.directory))
      ((outcomes.filterMap Outcome.written?).map Artifact.record))).2.2
  refine ⟨outcomes, all, e.settings.manifest_lists time _ sorted, faults, middle, attempts, ?_⟩
  simp only [ExportResult.success, faults]
  exact tries

/-- An export tries every artifact in the order of the paths.  Its manifest lists those that were
written, its faults are those of the others, and the next export starts anew. -/
theorem run_accounts (counts : write.Counts) (e : Exporter) (c : Compilation) (time : String)
    (files : Files) :
    let directory := files.resolve e.settings.directory
    let exported := e.run write c time files
    let result := exported.2.2
    (c.artifacts.map (·.path)).Pairwise (· < ·) ∧
      (result.success = true ↔ result.faults = []) ∧
      (∀ prepared error, e.settings.prepare directory files = (prepared, .error error) →
        exported.1 = prepared ∧ result.manifest.Lists [] ∧
          result.faults = [.noDirectory error] ∧ result.manifestError = none) ∧
      (∀ prepared, e.settings.prepare directory files = (prepared, .ok ()) →
        ∃ outcomes, Exports write e.settings directory c.artifacts prepared exported.1 result
          outcomes) ∧
      (∀ (write : FileWriter) (c : Compilation) (time : String) (files : Files),
        exported.2.1.run write c time files =
          (Exporter.ofSettings e.settings).run write c time files) := by
  refine ⟨c.artifacts_paths_increase, List.isEmpty_iff, ?_, ?_, ?_⟩
  · intro prepared error failed
    exact run_unprepared write e c time files failed
  · intro prepared ready
    exact run_prepared counts e c time files ready
  · intro write' c' time' files'
    exact run_eq_of_settings write' (run_settings write e c time files) c' time' files'

/-- An exporter that an earlier export left with a fault. -/
def used : Exporter :=
  ⟨⟨⟨.here, ["out"]⟩, "dev", "1", false, true, true⟩, [], [.noDirectory ⟨.missing, "out"⟩], none⟩

/-- A writer that does not get to the descriptors. -/
def hindered : FileWriter :=
  (FileWriter.ofSettings used.settings).refusing fun p =>
    if p.name = "resolvers.json" then some ⟨.isDirectory, "out/resolvers.json"⟩ else none

def nothing : Compilation := ⟨.default, ⟨[], []⟩, [], [], []⟩

/-- One of three artifacts is refused: the two others are listed, and no manifest is written.  What
the exporter noted before does not show. -/
theorem run_accounts_hindered :
    let result := (used.run hindered nothing "noon" ⟨"/data", [], []⟩).2.2
    result.faults = [.notWritten "resolvers.json" ⟨.isDirectory, "out/resolvers.json"⟩] ∧
      result.manifest.records.map (·.path) = ["indexes.json", "schema.graphql"] ∧
      result.success = false := by
  intro result
  have counts : hindered.Counts := (FileWriter.ofSettings_counts used.settings).refusing _
  obtain ⟨-, success, -, goes, -⟩ := run_accounts counts used nothing "noon" ⟨"/data", [], []⟩
  obtain ⟨outcomes, exports⟩ := goes _ rfl
  obtain ⟨middle, attempts, -⟩ := exports.files
  have all := exports.all
  rw [Compilation.artifacts_of_no_exchanges rfl] at all
  obtain ⟨_, rfl, all, attempts⟩ := attempts.first all
  obtain ⟨_, rfl, all, attempts⟩ := attempts.first all
  obtain ⟨_, rfl, all, -⟩ := attempts.first all
  obtain rfl := List.map_eq_nil_iff.mp all
  have faults : result.faults =
      [.notWritten "resolvers.json" ⟨.isDirectory, "out/resolvers.json"⟩] :=
    exports.faults.trans (by decide +kernel)
  refine ⟨faults, ?_, Bool.eq_false_iff.mpr fun all => ?_⟩
  · rw [exports.manifest.records]
    decide +kernel
  · exact absurd (faults.symm.trans (success.mp all)) (by simp)

end Exporter

end ApiLoom
