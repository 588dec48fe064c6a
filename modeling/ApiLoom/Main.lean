import ApiLoom.CommandLine.Run
import ApiLoom.Document.Standard
import ApiLoom.Files.Difference
import Std.Time

/-!
# The program

Reads from the disk what a command line speaks of, runs it, and carries out on the
disk what has changed.
-/

namespace ApiLoom.Disk

def text (place : Place) : String := "/" ++ String.intercalate "/" place

/-- Adds what stands at a place, and with `deep` all that stands below it. -/
partial def addTree (deep : Bool) (files : Files) (place : Place) : IO Files := do
  let path := (← IO.currentDir) / text place
  if ← path.isDir then
    let mut files := files.put place .directory
    for entry in ← path.readDir do
      let child := place ++ [entry.fileName]
      if !deep && (← entry.path.isDir) then files := files.put child .directory
      else files ← addTree deep files child
    return files
  else if ← path.pathExists then
    return files.put place (.file (← IO.FS.readBinFile path))
  else return files

/-- Adds a place and the directories on the way to it. -/
def addPath (deep : Bool) (files : Files) (p : Path) : IO Files := do
  let place := (files.resolve p).names
  let mut files := files
  for n in List.range place.length do
    let above := place.take n
    let path := (← IO.currentDir) / text above
    if !above.isEmpty && (← path.isDir) then files := files.put above .directory
  addTree deep files place

def read (a : Arguments) : IO Files := do
  let here := (Path.ofText (← IO.currentDir).toString).names
  let mut files : Files := ⟨"", here, []⟩
  files ← addPath false files (Path.ofText (a.models.getD ""))
  for config in a.configPath do
    files ← addPath false files config
  if !a.validateOnly then
    for output in a.output do
      files ← addPath true files (Path.ofText output)
  return files

def carryOut (step : FileStep) : IO Unit := do
  let root ← IO.currentDir
  match step with
  | .removeFile place => IO.FS.removeFile (root / text place)
  | .removeDirectory place => IO.FS.removeDir (root / text place)
  | .makeDirectory place => IO.FS.createDir (root / text place)
  | .write place bytes =>
    let name := Files.temporaryName (place.getLast?.getD "") (Text.padded 8 0)
    let source := root / text (place.dropLast ++ [name])
    IO.FS.writeBinFile source bytes
    IO.FS.rename source (root / text place)

def timeFormat : String := "uuuu-MM-dd'T'HH:mm:ssxx"

end ApiLoom.Disk

open ApiLoom in
def main (words : List String) : IO UInt32 := do
  let started ← IO.monoMsNow
  let before ← match Arguments.read words with
    | .ok a => Disk.read a
    | .error _ => pure default
  let loaded ← IO.monoMsNow
  let time := (← Std.Time.DateTime.now).format Disk.timeFormat
  let (after, outcome) ← IO.lazyPure fun _ => runCommand .standard words time before
  let compiled ← IO.monoMsNow
  (before.steps after).forM Disk.carryOut
  let written ← IO.monoMsNow
  let times : BuildTimes := {
    ofStage := fun stage =>
      match stage with
      | .load => loaded - started
      | .validate => 0
      | .compile => compiled - loaded
      | .write => written - compiled
    total := written - started }
  match outcome with
  | .ok outcome =>
    IO.eprint (outcome.err times)
    IO.print (outcome.out times)
    return UInt32.ofNat outcome.exitCode
  | .error fault =>
    IO.eprintln fault.message
    return 1
