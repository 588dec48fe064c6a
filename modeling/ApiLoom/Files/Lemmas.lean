import ApiLoom.Files.Tree

/-!
# What stands where after a change

`put` changes one place and `remove` takes away a place with all below it; every
other place keeps what it had.
-/

namespace ApiLoom.Files

theorem lookup_of_ne {files : Files} {place : Place} (below : place ≠ []) :
    files.lookup place = (files.entries.find? fun e => e.1 = place).map (·.2) := by
  simp [lookup, below]

/-! ### Putting -/

theorem find?_replace (place : Place) (entry : FileEntry) (entries : List (Place × FileEntry))
    (present : (entries.any fun e => e.1 = place) = true) :
    (entries.map fun e => if e.1 = place then (place, entry) else e).find?
      (fun e => e.1 = place) = some (place, entry) := by
  induction entries with
  | nil => simp at present
  | cons e rest ih =>
    by_cases h : e.1 = place
    · simp [h]
    · have later : (rest.any fun e => e.1 = place) = true := by simpa [h] using present
      rw [List.map_cons, if_neg h, List.find?_cons_of_neg (by simpa using h), ih later]

theorem find?_replace_of_ne {place other : Place} (apart : other ≠ place) (entry : FileEntry)
    (entries : List (Place × FileEntry)) :
    (entries.map fun e => if e.1 = place then (place, entry) else e).find?
      (fun e => e.1 = other) = entries.find? fun e => e.1 = other := by
  induction entries with
  | nil => rfl
  | cons e rest ih =>
    by_cases h : e.1 = place
    · have : e.1 ≠ other := fun same => apart (same.symm.trans h)
      simp_all [Ne.symm apart]
    · by_cases k : e.1 = other <;> simp_all

theorem lookup_put_self {place : Place} (below : place ≠ []) (files : Files)
    (entry : FileEntry) : (files.put place entry).lookup place = some entry := by
  rw [lookup_of_ne below, put]
  split
  · next present => simp [find?_replace place entry files.entries present]
  · next absent =>
    simp only [List.any_eq_true, decide_eq_true_eq, not_exists, not_and] at absent
    rw [List.find?_append, List.find?_eq_none.mpr (by simpa using absent)]
    simp

theorem lookup_put_of_ne {place other : Place} (apart : other ≠ place) (files : Files)
    (entry : FileEntry) : (files.put place entry).lookup other = files.lookup other := by
  by_cases below : other = []
  · subst below; rfl
  · rw [lookup_of_ne below, lookup_of_ne below, put]
    split
    · simp [find?_replace_of_ne apart]
    · simp [List.find?_append, Ne.symm apart]

/-! ### Removing -/

theorem here_put (files : Files) (place : Place) (entry : FileEntry) :
    (files.put place entry).here = files.here ∧ (files.put place entry).home = files.home := by
  rw [put]; split <;> exact ⟨rfl, rfl⟩

end ApiLoom.Files
