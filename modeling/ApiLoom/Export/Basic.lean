import ApiLoom.Export.Manifest
import ApiLoom.Files.Change

/-!
# Export

The artifacts of a compilation are written below a directory.  One that cannot be
written is reported and the others are written all the same.  The manifest lists
those that were written, and is written itself only if all of them were.
-/

namespace ApiLoom

structure ExportSettings where
  directory : Path
  stage : String
  templateVersion : String
  clean : Bool
  atomic : Bool
  withManifest : Bool
deriving DecidableEq, Repr

inductive ExportFault where
  | noDirectory (error : FileError)
  | notWritten (path : String) (error : FileError)
deriving DecidableEq, Repr

def ExportFault.message : ExportFault → String
  | noDirectory e => s!"Fatal export error: {e.fault.word}: {e.message}"
  | notWritten path e => s!"Failed to write {path}: {e.fault.word}: {e.message}"

/-- A manifest that cannot be written is not a fault of the export. -/
structure ExportResult where
  manifest : Manifest
  faults : List ExportFault
  manifestError : Option FileError
deriving Repr

namespace ExportResult

def success (r : ExportResult) : Bool := r.faults.isEmpty

def warnings (r : ExportResult) : List String :=
  r.manifestError.toList.map fun e => s!"Could not write manifest: {e.message}"

end ExportResult

namespace ExportSettings

/-- Makes the directory, or empties it first where that is asked for. -/
def prepare (s : ExportSettings) (directory : Path) (files : Files) : Files.Change Unit :=
  if s.clean then
    match files.clearDirectory directory true with
    | (cleared, .ok ()) => cleared.ensureDirectory directory
    | failed => failed
  else files.ensureDirectory directory

def manifest (s : ExportSettings) (time directory : String) (records : List FileRecord) :
    Manifest :=
  ⟨s.templateVersion, s.stage, time, directory, FileRecord.sorted records⟩

end ExportSettings

/-! ### Exporters -/

/-- Writes a text at a path and counts its bytes, or says why it does not. -/
abbrev FileWriter := Files → Path → String → Files.Change Nat

def FileWriter.ofSettings (s : ExportSettings) : FileWriter :=
  fun files p content => files.writeText s.atomic p content

/-- Exports as its settings say, and keeps account of the export at hand.  The account stays
until the next export begins. -/
structure Exporter where
  settings : ExportSettings
  records : List FileRecord
  faults : List ExportFault
  manifestError : Option FileError

namespace Exporter

def ofSettings (s : ExportSettings) : Exporter := ⟨s, [], [], none⟩

def begin (e : Exporter) : Exporter :=
  { e with records := [], faults := [], manifestError := none }

/-- Keeps account of an artifact and of what came of writing it. -/
def note (e : Exporter) (a : Artifact) : Except FileError Nat → Exporter
  | .ok size => { e with records := e.records ++ [.ofArtifact a size] }
  | .error error => { e with faults := e.faults ++ [.notWritten a.path error] }

def writeArtifacts (write : FileWriter) (directory : Path) (e : Exporter) (files : Files) :
    List Artifact → Files × Exporter
  | [] => (files, e)
  | a :: rest =>
    match write files (directory.join (Path.ofText a.path)) a.content with
    | (after, outcome) => writeArtifacts write directory (e.note a outcome) after rest

/-- Writes the artifacts, if there is a directory for them. -/
def writeAll (write : FileWriter) (directory : Path) (e : Exporter) (files : Files)
    (artifacts : List Artifact) : Files × Exporter :=
  match e.settings.prepare directory files with
  | (after, .error error) => (after, { e with faults := e.faults ++ [.noDirectory error] })
  | (prepared, .ok ()) => e.writeArtifacts write directory prepared artifacts

/-- Writes the manifest, if that is asked for and nothing has failed. -/
def writeManifest (write : FileWriter) (directory : Path) (e : Exporter) (files : Files)
    (manifest : Manifest) : Files × Exporter :=
  if e.settings.withManifest && e.faults.isEmpty then
    match write files (directory.child Manifest.fileName) manifest.text with
    | (after, .ok _) => (after, e)
    | (after, .error error) => (after, { e with manifestError := some error })
  else (files, e)

/-- Exports with a given writer; `time` goes into the manifest. -/
def run (write : FileWriter) (e : Exporter) (c : Compilation) (time : String) (files : Files) :
    Files × Exporter × ExportResult :=
  let directory := files.resolve e.settings.directory
  match e.begin.writeAll write directory files c.artifacts with
  | (after, noted) =>
    let manifest := e.settings.manifest time (files.text directory) noted.records
    match noted.writeManifest write directory after manifest with
    | (last, told) => (last, told, ⟨manifest, told.faults, told.manifestError⟩)

end Exporter

def Compilation.exportTo (c : Compilation) (s : ExportSettings) (time : String) (files : Files) :
    Files × ExportResult :=
  let exported := (Exporter.ofSettings s).run (.ofSettings s) c time files
  (exported.1, exported.2.2)

end ApiLoom
