import ApiLoom.Files.Change
import ApiLoom.Files.Lemmas
import Mathlib.Data.List.Induction

/-!
# Trees of files

What stands somewhere stands in a directory.  A path that leads through directories leads to the
same place as long as these stay, and making the directories of a path adds those that are missing
on the way and changes nothing else.
-/

namespace ApiLoom.Files

variable {files before after : Files} {place other : Place} {entry : FileEntry} {p : Path}

/-! ### Trees -/

/-- What stands somewhere stands in a directory, and so does the program. -/
structure IsTree (files : Files) : Prop where
  above : ∀ place name entry, files.lookup (place ++ [name]) = some entry →
    files.lookup place = some .directory
  here : files.lookup files.here = some .directory

theorem IsTree.dropLast (tree : files.IsTree) (stands : files.lookup place = some entry) :
    files.lookup place.dropLast = some .directory := by
  rcases List.eq_nil_or_concat place with rfl | ⟨rest, name, rfl⟩
  · rfl
  · rw [List.concat_eq_append] at stands ⊢
    rw [List.dropLast_concat]
    exact tree.above rest name entry stands

/-- The same stands at every place. -/
structure Agrees (before after : Files) : Prop where
  home : after.home = before.home
  here : after.here = before.here
  lookup : ∀ place, after.lookup place = before.lookup place

theorem Agrees.refl (files : Files) : Agrees files files := ⟨rfl, rfl, fun _ => rfl⟩

theorem Agrees.put (agrees : Agrees before after) (place : Place) (entry : FileEntry) :
    Agrees (before.put place entry) (after.put place entry) where
  home := by rw [(here_put _ _ _).2, (here_put _ _ _).2, agrees.home]
  here := by rw [(here_put _ _ _).1, (here_put _ _ _).1, agrees.here]
  lookup other := by
    by_cases below : place = []
    · by_cases top : other = []
      · rw [top]; rfl
      · rw [lookup_put_of_ne (by rwa [below]), lookup_put_of_ne (by rwa [below]), agrees.lookup]
    · by_cases same : other = place
      · rw [same, lookup_put_self below, lookup_put_self below]
      · rw [lookup_put_of_ne same, lookup_put_of_ne same, agrees.lookup]

theorem ne_nil_of_lookup_ne (other : files.lookup place ≠ some .directory) : place ≠ [] := by
  rintro rfl
  exact other rfl

/-- No directory is lost. -/
structure KeepsDirectories (before after : Files) : Prop where
  home : after.home = before.home
  here : after.here = before.here
  directories : ∀ place, before.lookup place = some .directory →
    after.lookup place = some .directory

theorem KeepsDirectories.trans {middle : Files} (first : KeepsDirectories before middle)
    (second : KeepsDirectories middle after) : KeepsDirectories before after where
  home := second.home.trans first.home
  here := second.here.trans first.here
  directories place stands := second.directories place (first.directories place stands)

theorem Agrees.keepsDirectories (agrees : Agrees before after) : KeepsDirectories before after :=
  ⟨agrees.home, agrees.here, fun place stands => (agrees.lookup place).trans stands⟩

theorem keepsDirectories_put (other : files.lookup place ≠ some .directory) (entry : FileEntry) :
    KeepsDirectories files (files.put place entry) where
  home := (here_put files place entry).2
  here := (here_put files place entry).1
  directories at_ stands := by
    rw [lookup_put_of_ne _ files entry, stands]
    rintro rfl
    exact other stands

/-- An entry may be put where a directory has room for it, and no directory is lost. -/
theorem IsTree.put (tree : files.IsTree) {directory : Place} {name : String}
    (room : files.lookup directory = some .directory)
    (other : files.lookup (directory ++ [name]) ≠ some .directory) (entry : FileEntry) :
    (files.put (directory ++ [name]) entry).IsTree := by
  have keeps := keepsDirectories_put other entry
  constructor
  · intro place last entry' stands
    by_cases same : place ++ [last] = directory ++ [name]
    · rw [(List.append_inj' same rfl).1]
      exact keeps.directories directory room
    · rw [lookup_put_of_ne same] at stands
      exact keeps.directories place (tree.above place last entry' stands)
  · rw [keeps.here]
    exact keeps.directories _ tree.here

theorem KeepsDirectories.walk (keeps : KeepsDirectories before after) {names : List String}
    (found : before.walk place names = .ok other) : after.walk place names = .ok other := by
  induction names generalizing place with
  | nil => exact found
  | cons name rest ih =>
    unfold Files.walk at found ⊢
    split at found
    · cases found
    · cases found
    · next stands =>
      rw [keeps.directories place stands]
      split at found
      · next up => rw [if_pos up]; exact ih found
      · next down =>
        rw [if_neg down]
        split at found
        · cases found
        · next short => rw [if_neg short]; exact ih found

theorem startOf_of_same (home : after.home = before.home) (here : after.here = before.here)
    (start : PathStart) : after.startOf start = before.startOf start := by
  cases start <;> simp [Files.startOf, home, here]

theorem find_eq (files : Files) (p : Path) :
    files.find p = (files.startOf p.start).bind fun place => files.walk place p.names := rfl

theorem KeepsDirectories.find (keeps : KeepsDirectories before after)
    (found : before.find p = .ok place) : after.find p = .ok place := by
  rw [find_eq, startOf_of_same keeps.home keeps.here]
  rw [find_eq] at found
  cases start : before.startOf p.start with
  | error fault => rw [start] at found; cases found
  | ok first =>
    rw [start] at found
    exact keeps.walk found

/-- A place that a path leads to is a directory, or one in a directory. -/
inductive Reached (files : Files) : Place → Prop where
  | directory {place : Place} (stands : files.lookup place = some .directory) : Reached files place
  | inside {place : Place} {name : String} (room : files.lookup place = some .directory) :
    Reached files (place ++ [name])

theorem IsTree.walk_reached (tree : files.IsTree) {names : List String}
    (start : files.Reached place) (found : files.walk place names = .ok other) :
    files.Reached other := by
  induction names generalizing place with
  | nil =>
    obtain rfl := Except.ok.inj found
    exact start
  | cons name rest ih =>
    unfold Files.walk at found
    split at found
    · cases found
    · cases found
    · next stands =>
      split at found
      · exact ih (.directory (tree.dropLast stands)) found
      · split at found
        · cases found
        · exact ih (.inside stands) found

theorem IsTree.startOf_reached (tree : files.IsTree) {start : PathStart}
    (found : files.startOf start = .ok place) : files.Reached place := by
  unfold Files.startOf at found
  split at found
  · obtain rfl := Except.ok.inj found
    exact .directory tree.here
  · obtain rfl := Except.ok.inj found
    exact .directory rfl
  · split at found
    · obtain rfl := Except.ok.inj found
      exact .directory rfl
    · cases found

theorem IsTree.find_reached (tree : files.IsTree) (found : files.find p = .ok place) :
    files.Reached place := by
  rw [find_eq] at found
  cases start : files.startOf p.start with
  | error fault => rw [start] at found; cases found
  | ok first =>
    rw [start] at found
    exact tree.walk_reached (tree.startOf_reached start) found

theorem IsTree.put_found (tree : files.IsTree) (found : files.find p = .ok place)
    (other : files.lookup place ≠ some .directory) (entry : FileEntry) :
    (files.put place entry).IsTree := by
  cases tree.find_reached found with
  | directory stands => exact absurd stands other
  | inside room => exact tree.put room other entry

theorem isDirectory_iff :
    files.isDirectory p = true ↔
      ∃ place, files.find p = .ok place ∧ files.lookup place = some .directory := by
  unfold Files.isDirectory Files.at?
  cases found : files.find p with
  | error fault => simp
  | ok place => simp

/-- Some of the names of a path lead to the place. -/
def OnWay (files : Files) (p : Path) (place : Place) : Prop :=
  ∃ names more, p.names = names ++ more ∧ files.find ⟨p.start, names⟩ = .ok place

/-- A place has what it had, or a new directory on the way of the path. -/
def Kept (before after : Files) (p : Path) (place : Place) : Prop :=
  after.lookup place = before.lookup place ∨
    before.lookup place = none ∧ after.lookup place = some .directory ∧ after.OnWay p place

theorem Kept.later {middle : Files} (kept : Kept before middle p place)
    (keeps : KeepsDirectories middle after)
    (same : after.lookup place = middle.lookup place) : Kept before after p place := by
  rcases kept with old | ⟨free, new, names, more, split, found⟩
  · exact .inl (same.trans old)
  · exact .inr ⟨free, same.trans new, names, more, split, keeps.find found⟩

theorem Kept.free (kept : Kept before after p place) (free : after.lookup place = none) :
    before.lookup place = none := by
  rcases kept with same | ⟨none, -⟩
  · rw [← same, free]
  · exact none

/-- Nothing is new but directories on the way of a path, and nothing is gone. -/
structure Opens (before after : Files) (p : Path) : Prop where
  home : after.home = before.home
  here : after.here = before.here
  each : ∀ place, Kept before after p place

namespace Opens

theorem refl (files : Files) (p : Path) : Opens files files p := ⟨rfl, rfl, fun _ => .inl rfl⟩

theorem keepsDirectories (opens : Opens before after p) : KeepsDirectories before after where
  home := opens.home
  here := opens.here
  directories place stands := by
    rcases opens.each place with same | ⟨_, made, _⟩
    · rw [same, stands]
    · exact made

theorem onWay (opens : Opens before after p) {q : Path} (way : before.OnWay q place) :
    after.OnWay q place := by
  obtain ⟨names, more, split, found⟩ := way
  exact ⟨names, more, split, opens.keepsDirectories.find found⟩

/-- More names of the path have no less on their way. -/
theorem extend {start : PathStart} {names : List String}
    (opens : Opens before after ⟨start, names⟩) (more : List String) :
    Opens before after ⟨start, names ++ more⟩ where
  home := opens.home
  here := opens.here
  each place := by
    rcases opens.each place with same | ⟨free, made, first, rest, split, found⟩
    · exact .inl same
    · refine .inr ⟨free, made, first, rest ++ more, ?_, found⟩
      rw [← List.append_assoc, ← split]

theorem trans {middle : Files} (first : Opens before middle p) (second : Opens middle after p) :
    Opens before after p where
  home := second.home.trans first.home
  here := second.here.trans first.here
  each place := by
    rcases second.each place with same | ⟨free, made, way⟩
    · rcases first.each place with kept | ⟨free, made, way⟩
      · exact .inl (same.trans kept)
      · exact .inr ⟨free, same.trans made, second.onWay way⟩
    · rcases first.each place with kept | ⟨_, stands, _⟩
      · exact .inr ⟨kept.symm.trans free, made, way⟩
      · rw [stands] at free
        cases free

end Opens

/-- What comes of making the directory at a path. -/
structure Ensures (before after : Files) (p : Path) (outcome : Except FileError Unit) : Prop where
  tree : after.IsTree
  opens : Opens before after p
  made : outcome = .ok () → after.isDirectory p = true

theorem IsTree.makeDirectory (tree : files.IsTree) (made : files.makeDirectory p = .ok after) :
    Ensures files after p (.ok ()) := by
  unfold Files.makeDirectory at made
  cases found : files.find p with
  | error fault => rw [found] at made; cases made
  | ok place =>
    rw [found] at made
    cases stands : files.lookup place with
    | some entry => simp [stands, bind, Except.bind] at made
    | none =>
      obtain rfl : files.put place .directory = after := by
        simpa [stands, bind, Except.bind] using made
      have below : place ≠ [] := ne_nil_of_lookup_ne (by rw [stands]; exact nofun)
      have self := lookup_put_self below files .directory
      have opens : Opens files (files.put place .directory) p := by
        have kept := keepsDirectories_put (by rw [stands]; exact nofun) .directory
        refine ⟨kept.home, kept.here, fun other => ?_⟩
        by_cases same : other = place
        · subst same
          exact .inr ⟨stands, self, p.names, [], (List.append_nil _).symm, kept.find found⟩
        · exact .inl (lookup_put_of_ne same files _)
      refine ⟨?_, opens, fun _ => ?_⟩
      · exact tree.put_found found (by rw [stands]; exact nofun) .directory
      · exact isDirectory_iff.mpr ⟨place, opens.keepsDirectories.find found, self⟩

theorem IsTree.makeOrKeep (tree : files.IsTree) (p : Path) :
    Ensures files (files.makeOrKeep p).1 p (files.makeOrKeep p).2 := by
  unfold Files.makeOrKeep
  cases made : files.makeDirectory p with
  | ok after => exact tree.makeDirectory made
  | error fault =>
    simp only
    split
    · next stands => exact ⟨tree, .refl files p, fun _ => stands⟩
    · exact ⟨tree, .refl files p, nofun⟩

/-- Nothing is made but the directories on the way, whether the last of them can be made or not. -/
theorem IsTree.ensureNames (tree : files.IsTree) (start : PathStart) (names : List String) :
    Ensures files (Files.ensureNames start files names).1 ⟨start, names.reverse⟩
      (Files.ensureNames start files names).2 := by
  induction names with
  | nil => exact tree.makeOrKeep ⟨start, []⟩
  | cons name above ih =>
    have last := tree.makeOrKeep ⟨start, (name :: above).reverse⟩
    have opens := ih.opens.extend [name]
    rw [← List.reverse_cons] at opens
    simp only [Files.ensureNames]
    split
    · split
      · next made outcome =>
        rw [outcome] at ih opens
        have last := ih.tree.makeOrKeep ⟨start, (name :: above).reverse⟩
        exact ⟨last.tree, opens.trans last.opens, last.made⟩
      · next failed =>
        refine ⟨ih.tree, opens, fun fine => ?_⟩
        exact (failed _ (Prod.ext rfl fine)).elim
    · exact last

theorem IsTree.ensureDirectory (tree : files.IsTree) (p : Path) :
    Ensures files (files.ensureDirectory p).1 p (files.ensureDirectory p).2 := by
  have ensures := tree.ensureNames p.start p.names.reverse
  rwa [List.reverse_reverse] at ensures

end ApiLoom.Files
