import ApiLoom.Proofs.FileTrees
import Mathlib.Data.List.Perm.Subperm
import Mathlib.Data.List.Nodup

/-!
# Texts in files

A text that is written at a path is afterwards what the file there holds, or a fault is told.
Either way nothing else is new or different but directories on the way.  One thing is in between: an
atomic write onto a directory leaves the text in a temporary file inside and counts its bytes all
the same.
-/

namespace ApiLoom.Files

variable {files before after made : Files} {place own other directory : Place} {p : Path}
  {name temporary : String} {bytes : ByteArray} {atomic : Bool} {draw : Draw}

/-! ### The names of temporary files -/

/-- No directory is in the way of a plain write.  An atomic one has room for its temporary file,
which goes into a directory that is in the way, unless it is in there already. -/
def Admits (files : Files) (atomic : Bool) (p : Path) (temporary : String) : Prop :=
  ∃ place, files.find p = .ok place ∧
    if atomic then
      temporary.utf8ByteSize ≤ longestName ∧
        (files.lookup place = some .directory →
          files.find p.parent ≠ .ok place ∧ files.lookup (place ++ [temporary]) = none)
    else files.lookup place ≠ some .directory

/-- What comes of writing `bytes` at a path whose parent is there. -/
inductive Settles (files : Files) (atomic : Bool) (p : Path) (temporary : String)
    (bytes : ByteArray) : Change Nat → Prop where
  | stored {after : Files} {place : Place} (admits : files.Admits atomic p temporary)
    (found : files.find p = .ok place) (other : files.lookup place ≠ some .directory)
    (agrees : Agrees (files.put place (.file bytes)) after) :
    Settles files atomic p temporary bytes (after, .ok bytes.size)
  | swallowed {after : Files} {place : Place} (admits : files.Admits atomic p temporary)
    (moves : atomic = true) (found : files.find p = .ok place)
    (stands : files.lookup place = some .directory)
    (free : files.lookup (place ++ [temporary]) = none)
    (agrees : Agrees (files.put (place ++ [temporary]) (.file bytes)) after) :
    Settles files atomic p temporary bytes (after, .ok bytes.size)
  | failed {after : Files} (refused : ¬ files.Admits atomic p temporary)
    (agrees : Agrees files after) (error : FileError) :
    Settles files atomic p temporary bytes (after, .error error)

/-- The text is in a file at a place of its own, and every other place is kept. -/
structure Holds (before after : Files) (p : Path) (own : Place) (content : String) : Prop where
  text : after.lookup own = some (.file content.toUTF8)
  rest : ∀ place ≠ own, Kept before after p place

/-- A file that is put once the way is open is all that is new. -/
theorem Opens.holds {content : String} (opens : Opens before made p)
    (other : made.lookup own ≠ some .directory)
    (agrees : Agrees (made.put own (.file content.toUTF8)) after) :
    Holds before after p own content where
  text := by rw [agrees.lookup, lookup_put_self (ne_nil_of_lookup_ne other)]
  rest place apart := by
    refine (opens.each place).later
      ((keepsDirectories_put other _).trans agrees.keepsDirectories) ?_
    rw [agrees.lookup, lookup_put_of_ne apart]

theorem writePlain_counts {count : Nat}
    (wrote : files.writePlain p bytes = (after, .ok count)) : count = bytes.size := by
  unfold Files.writePlain at wrote
  split at wrote
  · cases wrote
  · split at wrote
    · cases wrote
    · exact (Except.ok.inj (Prod.mk.inj wrote).2).symm

theorem writeAtomic_counts {count : Nat}
    (wrote : files.writeAtomic draw p bytes = (after, .ok count)) : count = bytes.size := by
  unfold Files.writeAtomic at wrote
  split at wrote
  · cases wrote
  · dsimp only at wrote
    split at wrote
    · cases wrote
    · split at wrote
      · exact (Except.ok.inj (Prod.mk.inj wrote).2).symm
      · cases wrote

theorem writeTextWith_counts {content : String} {count : Nat}
    (wrote : files.writeTextWith draw atomic p content = (after, .ok count)) :
    count = content.toUTF8.size := by
  unfold Files.writeTextWith at wrote
  split at wrote
  · cases wrote
  · split at wrote
    · exact writeAtomic_counts wrote
    · exact writePlain_counts wrote

end ApiLoom.Files
