import ApiLoom.Files.Tree

/-!
# Differences

The steps that turn some files into others.  What is gone, or has become something
else, is removed first, from the inside out; then comes what is new, from the
outside in.
-/

namespace ApiLoom

inductive FileStep where
  | removeFile (place : Place)
  | removeDirectory (place : Place)
  | makeDirectory (place : Place)
  | write (place : Place) (bytes : ByteArray)

namespace Files

def removal (after : Files) (place : Place) : FileEntry → Option FileStep
  | .directory =>
    if after.lookup place = some .directory then none else some (.removeDirectory place)
  | .file _ =>
    match after.lookup place with
    | some (.file _) => none
    | _ => some (.removeFile place)

def addition (before : Files) (place : Place) : FileEntry → Option FileStep
  | .directory =>
    if before.lookup place = some .directory then none else some (.makeDirectory place)
  | .file bytes =>
    if before.lookup place = some (.file bytes) then none else some (.write place bytes)

def steps (before after : Files) : List FileStep :=
  (before.entries.reverse.filterMap fun e => after.removal e.1 e.2) ++
    after.entries.filterMap fun e => before.addition e.1 e.2

end Files

end ApiLoom
