import ApiLoom.Files.Tree
import ApiLoom.Text.Lines

/-!
# Changing files

Directories are made with all that leads to them, and emptied.  A text is written
in one of two ways.  A plain write opens the file itself.  An atomic write fills a
temporary file beside it and then moves that to the path; a directory that stands
there takes the moved file in.

A change that fails leaves behind what it did before the failure.
-/

namespace ApiLoom.Files

/-- The files after a change, and what came of it. -/
abbrev Change (α : Type) := Files × Except FileError α

def fail {α : Type} (files : Files) (fault : FileFault) (p : Path) : Change α :=
  (files, .error ⟨fault, files.text p⟩)

/-! ### Directories -/

def makeDirectory (files : Files) (p : Path) : Except FileFault Files := do
  let place ← files.find p
  match files.lookup place with
  | some _ => .error .alreadyThere
  | none => .ok (files.put place .directory)

def makeOrKeep (files : Files) (p : Path) : Change Unit :=
  match files.makeDirectory p with
  | .ok made => (made, .ok ())
  | .error fault => if files.isDirectory p then (files, .ok ()) else files.fail fault p

/-- Makes the directory of these names, the last of them first, and those above it. -/
def ensureNames (start : PathStart) (files : Files) : List String → Change Unit
  | [] => files.makeOrKeep ⟨start, []⟩
  | name :: above =>
    let p : Path := ⟨start, (name :: above).reverse⟩
    match files.makeDirectory p with
    | .error .missing =>
      match ensureNames start files above with
      | (made, .ok ()) => made.makeOrKeep p
      | failed => failed
    | _ => files.makeOrKeep p

def ensureDirectory (files : Files) (p : Path) : Change Unit :=
  ensureNames p.start files p.names.reverse

/-- What belongs to version control and survives when a directory is emptied. -/
def keptNames : List String := [".git", ".gitignore"]

/-- Takes everything out of a directory, if there is one. -/
def clearDirectory (files : Files) (p : Path) (keep : Bool) : Change Unit :=
  match files.find p with
  | .error .nameTooLong => files.fail .nameTooLong p
  | .error _ => (files, .ok ())
  | .ok place =>
    match files.lookup place with
    | none => (files, .ok ())
    | some (.file _) => files.fail .notDirectory p
    | some .directory =>
      let doomed := ((files.children place).map (·.1)).filter fun name =>
        !(keep && keptNames.contains name)
      (doomed.foldl (fun files name => files.remove (place ++ [name])) files, .ok ())

/-! ### Writing -/

/-- Overwrites the file at a path or makes a new one; counts the bytes. -/
def writePlain (files : Files) (p : Path) (bytes : ByteArray) : Change Nat :=
  match files.find p with
  | .error fault => files.fail fault p
  | .ok place =>
    match files.lookup place with
    | some .directory => files.fail .isDirectory p
    | _ => (files.put place (.file bytes), .ok bytes.size)

/-- `drawn` tells temporary files for the same name apart. -/
def temporaryName (name drawn : String) : String :=
  "." ++ name ++ "." ++ drawn ++ ".tmp"

/-- How what tells temporary files apart is drawn when a path is written. -/
abbrev Draw := Files → Path → String

/-- Something of that name stands beside a path, or in the directory at the path. -/
def isTaken (files : Files) (p : Path) (name : String) : Bool :=
  [p.parent, p].any fun directory =>
    match files.find directory with
    | .ok place => (files.lookup (place ++ [name])).isSome
    | .error _ => false

/-- The first number from `attempt` on whose name is not taken; `fuel` numbers are tried. -/
def drawFrom (files : Files) (p : Path) (attempt : Nat) : Nat → String
  | 0 => Text.padded 8 attempt
  | fuel + 1 =>
    if files.isTaken p (temporaryName p.name (Text.padded 8 attempt)) then
      drawFrom files p (attempt + 1) fuel
    else Text.padded 8 attempt

/-- There are more numbers than entries, so that one of them is free. -/
def firstDraw : Draw := fun files p => files.drawFrom p 0 files.entries.length

/-- Moves a file onto a path, or into the directory that stands there. -/
def move (files : Files) (source : Place) (bytes : ByteArray) (p : Path) : Change Unit :=
  match files.find p with
  | .error fault => (files.remove source).fail fault p
  | .ok place =>
    match files.lookup place with
    | some .directory =>
      let name := source.getLast?.getD ""
      if (files.lookup (place ++ [name])).isSome then
        (files.remove source, .error ⟨.targetTaken, files.text p ++ "/" ++ name⟩)
      else ((files.remove source).put (place ++ [name]) (.file bytes), .ok ())
    | _ => ((files.remove source).put place (.file bytes), .ok ())

def writeAtomic (draw : Draw) (files : Files) (p : Path) (bytes : ByteArray) : Change Nat :=
  match files.find p.parent with
  | .error fault => files.fail fault p.parent
  | .ok directory =>
    let name := temporaryName p.name (draw files p)
    if longestName < name.utf8ByteSize then
      files.fail .nameTooLong ((files.resolve p.parent).child name)
    else
      let source := directory ++ [name]
      match (files.put source (.file bytes)).move source bytes p with
      | (moved, .ok ()) => (moved, .ok bytes.size)
      | (left, .error e) => (left, .error e)

/-- Writes a text in UTF-8, making the directories above it; counts the bytes. -/
def writeTextWith (draw : Draw) (files : Files) (atomic : Bool) (p : Path) (content : String) :
    Change Nat :=
  match files.ensureDirectory p.parent with
  | (made, .error e) => (made, .error e)
  | (made, .ok ()) =>
    if atomic then made.writeAtomic draw p content.toUTF8 else made.writePlain p content.toUTF8

def writeText : Files → Bool → Path → String → Change Nat := writeTextWith firstDraw

end ApiLoom.Files
