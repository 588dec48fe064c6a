import ApiLoom.Document.Literal
import ApiLoom.Files.Path

/-!
# Files

The files of a program as data: what stands at which place below one top
directory.  A path leads from directory to directory to a place, which need not
hold anything yet.
-/

namespace ApiLoom

abbrev Place := List String

inductive FileEntry where
  | directory
  | file (bytes : ByteArray)
deriving Inhabited

instance : DecidableEq FileEntry
  | .directory, .directory => isTrue rfl
  | .directory, .file _ => isFalse (fun h => FileEntry.noConfusion h)
  | .file _, .directory => isFalse (fun h => FileEntry.noConfusion h)
  | .file a, .file b =>
    if h : a.data = b.data then isTrue (congrArg FileEntry.file (ByteArray.ext h))
    else isFalse (fun e => h (congrArg ByteArray.data (FileEntry.file.inj e)))

/-! ### Faults -/

inductive FileFault where
  | missing
  | alreadyThere
  | notDirectory
  | isDirectory
  | nameTooLong
  | targetTaken
deriving DecidableEq, Repr

namespace FileFault

def word : FileFault → String
  | missing => "FileNotFoundError"
  | alreadyThere => "FileExistsError"
  | notDirectory => "NotADirectoryError"
  | isDirectory => "IsADirectoryError"
  | nameTooLong => "OSError"
  | targetTaken => "Error"

/-- Number and text of the fault in the system's list of errors. -/
def systemText : FileFault → Option (Nat × String)
  | missing => some (2, "No such file or directory")
  | alreadyThere => some (17, "File exists")
  | notDirectory => some (20, "Not a directory")
  | isDirectory => some (21, "Is a directory")
  | nameTooLong => some (36, "File name too long")
  | targetTaken => none

end FileFault

/-- A fault and the path it was met at. -/
structure FileError where
  fault : FileFault
  path : String
deriving DecidableEq, Repr

def FileError.message (e : FileError) : String :=
  match e.fault.systemText with
  | some (number, text) => s!"[Errno {number}] {text}: {Text.literal e.path}"
  | none => s!"Destination path '{e.path}' already exists"

/-! ### Places -/

/-- Everything below the top directory, which is called `home`; relative paths
start at `here`. -/
structure Files where
  home : String
  here : Place
  entries : List (Place × FileEntry)
deriving Inhabited

namespace Files

/-- What stands at a place; the top directory is always there. -/
def lookup (files : Files) (place : Place) : Option FileEntry :=
  if place.isEmpty then some .directory
  else (files.entries.find? fun e => e.1 = place).map (·.2)

/-- Puts an entry in the place of what was there, or adds it. -/
def put (files : Files) (place : Place) (entry : FileEntry) : Files :=
  if files.entries.any fun e => e.1 = place then
    { files with entries := files.entries.map fun e => if e.1 = place then (place, entry) else e }
  else { files with entries := files.entries ++ [(place, entry)] }

def remove (files : Files) (place : Place) : Files :=
  { files with entries := files.entries.filter fun e => !place.isPrefixOf e.1 }

/-- The names directly below a place, with what stands there. -/
def children (files : Files) (place : Place) : List (String × FileEntry) :=
  files.entries.filterMap fun e =>
    if e.1.dropLast = place then e.1.getLast?.map fun name => (name, e.2) else none

/-! ### Paths -/

def text (files : Files) (p : Path) : String :=
  p.text files.home

/-- The place a path starts from.  A path from the root leads to a place only if the
top directory is the root. -/
def startOf (files : Files) : PathStart → Except FileFault Place
  | .here => .ok files.here
  | .top => .ok []
  | .slashes _ => if files.home.isEmpty then .ok [] else .error .missing

def longestName : Nat := 255

/-- Follows names from a place; all but the last must name directories. -/
def walk (files : Files) (place : Place) : List String → Except FileFault Place
  | [] => .ok place
  | name :: rest =>
    match files.lookup place with
    | none => .error .missing
    | some (.file _) => .error .notDirectory
    | some .directory =>
      if name = ".." then files.walk place.dropLast rest
      else if longestName < name.utf8ByteSize then .error .nameTooLong
      else files.walk (place ++ [name]) rest

def find (files : Files) (p : Path) : Except FileFault Place := do
  files.walk (← files.startOf p.start) p.names

def at? (files : Files) (p : Path) : Option FileEntry :=
  match files.find p with
  | .ok place => files.lookup place
  | .error _ => none

def isDirectory (files : Files) (p : Path) : Bool :=
  files.at? p = some .directory

def bytes? (files : Files) (p : Path) : Option ByteArray :=
  match files.at? p with
  | some (.file bytes) => some bytes
  | _ => none

def isFile (files : Files) (p : Path) : Bool :=
  (files.bytes? p).isSome

/-- The same path from the top directory, without names that lead up. -/
def resolve (files : Files) (p : Path) : Path :=
  match p.start with
  | .here => ⟨.top, Path.follow files.here p.names⟩
  | .top => ⟨.top, Path.follow [] p.names⟩
  | .slashes count =>
    if files.home.isEmpty ∧ count = 1 then ⟨.top, Path.follow [] p.names⟩
    else ⟨.slashes count, Path.follow [] p.names⟩

/-- The paths of what stands directly in a directory, in the order of their names. -/
def list (files : Files) (p : Path) : List Path :=
  match files.find p with
  | .ok place =>
    (((files.children place).map (·.1)).mergeSort fun a b => decide (a ≤ b)).map p.child
  | .error _ => []

end Files

end ApiLoom
