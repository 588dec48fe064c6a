import ApiLoom.Document.Json.Printer
import ApiLoom.Export.Record

/-!
# Manifests

A manifest lists the files of an export and what they amount to.  Its aggregate
hash changes with the files alone, not with the time or the place of the export.
-/

namespace ApiLoom

def programName : String := "resolvergen"

def generatorVersion : String := "1.0.0"

structure Manifest where
  templateVersion : String
  stage : String
  time : String
  directory : String
  records : List FileRecord
deriving DecidableEq, Repr, Inhabited

namespace Manifest

def totalFiles (m : Manifest) : Nat := m.records.length

def totalBytes (m : Manifest) : Nat := (m.records.map (·.sizeBytes)).foldr (· + ·) 0

def totalLines (m : Manifest) : Nat := (m.records.map (·.lineCount)).foldr (· + ·) 0

def aggregateHash (m : Manifest) : String := FileRecord.aggregateHash m.records

/-! ### The file -/

def fileName : String := "manifest.json"

def recordDocument (r : FileRecord) : Value :=
  .object [("relative_path", .text r.path), ("size_bytes", .int r.sizeBytes),
    ("line_count", .int r.lineCount), ("sha256", .text r.digest)]

def document (m : Manifest) : Value :=
  .object [("generator_version", .text generatorVersion),
    ("template_version", .text m.templateVersion),
    ("stage", .text m.stage),
    ("export_timestamp", .text m.time),
    ("output_directory", .text m.directory),
    ("total_files", .int m.totalFiles),
    ("total_bytes", .int m.totalBytes),
    ("total_lines", .int m.totalLines),
    ("aggregate_sha256", .text m.aggregateHash),
    ("files", .list (m.records.map recordDocument))]

def text (m : Manifest) : String :=
  Json.printWide m.document ++ "\n"

/-! ### Look-ups -/

inductive LookupFault where
  | notListed (path : String)
deriving DecidableEq, Repr

def LookupFault.message : LookupFault → String
  | notListed path => s!"'{path}' is not in the manifest"

def record (m : Manifest) (path : String) : Except LookupFault FileRecord :=
  match m.records.find? fun r => r.path = path with
  | some r => .ok r
  | none => .error (.notListed path)

end Manifest

end ApiLoom
