import ApiLoom.Compilation.Artifact
import ApiLoom.Digest.Sha256
import ApiLoom.Text.Lines

/-!
# File records

What is known of a written file, and one hash over a set of them.  The hash depends
on the paths and contents alone, in whatever order the records come.
-/

namespace ApiLoom

structure FileRecord where
  path : String
  sizeBytes : Nat
  lineCount : Nat
  digest : String
deriving DecidableEq, Repr, Inhabited

namespace FileRecord

/-- The record of an artifact for which so many bytes were written. -/
def ofArtifact (a : Artifact) (size : Nat) : FileRecord :=
  ⟨a.path, size, Text.countLines a.content, Digest.hexOf a.content⟩

def sorted (records : List FileRecord) : List FileRecord :=
  records.mergeSort fun a b => decide (a.path ≤ b.path)

def aggregateText (records : List FileRecord) : String :=
  String.join ((sorted records).map fun r => r.path ++ ":" ++ r.digest ++ "\n")

def aggregateHash (records : List FileRecord) : String :=
  Digest.hexOf (aggregateText records)

end FileRecord

end ApiLoom
