import ApiLoom.Proofs.WrittenNames
import ApiLoom.Proofs.Exports

/-!
# Aggregate hashes

The aggregate hash of an export is that of one line for each file, its path and its digest.  A path
has no colon and a digest has sixty-four digits, so the lines tell their files; and they stand in
the order of the paths, so it does not matter in which order the files were written.
-/

namespace ApiLoom

/-! ### Digests -/

namespace Digest

/-- Different texts with one digest. -/
def Collide (s t : String) : Prop := s.toUTF8 ≠ t.toUTF8 ∧ hexOf s = hexOf t

theorem toUTF8_inj {s t : String} : s.toUTF8 = t.toUTF8 ↔ s = t := String.toByteArray_inj

theorem collide_of_ne {s t : String} (different : s ≠ t) (same : hexOf s = hexOf t) :
    Collide s t :=
  ⟨fun bytes => different (toUTF8_inj.mp bytes), same⟩

theorem length_hexOf (content : String) : (hexOf content).toList.length = 64 := by
  have word : ∀ w, (wordText w).length = 8 := fun w => List.length_map _
  rw [hexOf, hexOfBytes, Words.text, String.toList_ofList]
  simp [word]

end Digest

/-! ### Lines of files -/

namespace FileRecord

/-- What an aggregate hash takes from a record. -/
def mark (r : FileRecord) : String × String := (r.path, r.digest)

/-- The records of files under different paths. -/
structure Listed (records : List FileRecord) : Prop where
  apart : (records.map (·.path)).Nodup
  plain : ∀ r ∈ records, ':' ∉ r.path.toList
  digits : ∀ r ∈ records, r.digest.toList.length = 64

/-- The same files with the same digests, in whatever order. -/
def SameMarks (xs ys : List FileRecord) : Prop :=
  ∀ mark, mark ∈ xs.map FileRecord.mark ↔ mark ∈ ys.map FileRecord.mark

def markText (mark : String × String) : String := mark.1 ++ ":" ++ mark.2 ++ "\n"

def markOrder (a b : String × String) : Bool := decide (a.1 ≤ b.1)

def sortedMarks (records : List FileRecord) : List (String × String) :=
  (records.map mark).mergeSort markOrder

theorem aggregateText_eq (records : List FileRecord) :
    aggregateText records = String.join ((sortedMarks records).map markText) := by
  have order : (sorted records).map mark = sortedMarks records :=
    List.map_mergeSort fun a _ b _ => rfl
  rw [aggregateText, ← order, List.map_map]
  rfl

section Lines

variable {a b : String × String} {xs ys : List (String × String)}

/-- The colon tells where a path ends, and sixty-four digits where the digest does. -/
theorem markText_ends (first : ':' ∉ a.1.toList) (second : ':' ∉ b.1.toList)
    (width : a.2.toList.length = b.2.toList.length) {x y : List Char}
    (same : (markText a).toList ++ x = (markText b).toList ++ y) : a = b ∧ x = y := by
  have split : ∀ (mark : String × String) (rest : List Char), (markText mark).toList ++ rest =
      mark.1.toList ++ ':' :: (mark.2.toList ++ '\n' :: rest) := by
    intro mark rest
    simp [markText]
  rw [split, split] at same
  obtain ⟨paths, behind⟩ := append_sign_inj first second same
  obtain ⟨digests, ends⟩ := List.append_inj behind width
  exact ⟨Prod.ext (String.toList_inj.mp paths) (String.toList_inj.mp digests),
    (List.cons.inj ends).2⟩

theorem join_markText_inj (first : ∀ a ∈ xs, ':' ∉ a.1.toList ∧ a.2.toList.length = 64)
    (second : ∀ b ∈ ys, ':' ∉ b.1.toList ∧ b.2.toList.length = 64)
    (same : String.join (xs.map markText) = String.join (ys.map markText)) : xs = ys := by
  have letters := congrArg String.toList same
  simp only [String.toList_join, List.flatMap_map] at letters
  have filled : ∀ (mark : String × String) (rest : List Char),
      (markText mark).toList ++ rest ≠ [] := by
    intro mark rest
    simp [markText]
  clear same
  induction xs generalizing ys with
  | nil =>
    cases ys with
    | nil => rfl
    | cons b others => exact absurd letters.symm (filled b _)
  | cons a rest ih =>
    cases ys with
    | nil => exact absurd letters (filled a _)
    | cons b others =>
      obtain ⟨own, later⟩ := List.forall_mem_cons.mp first
      obtain ⟨other, after⟩ := List.forall_mem_cons.mp second
      obtain ⟨rfl, behind⟩ := markText_ends own.1 other.1 (own.2.trans other.2.symm) letters
      rw [ih later after behind]

end Lines

/-! ### Aggregates -/

section Aggregates

variable {xs ys : List FileRecord}

theorem Listed.sortedMarks_sound (listed : Listed xs) :
    ∀ mark ∈ sortedMarks xs, ':' ∉ mark.1.toList ∧ mark.2.toList.length = 64 := by
  intro mark member
  obtain ⟨r, listing, rfl⟩ := List.mem_map.mp (List.mem_mergeSort.mp member)
  exact ⟨listed.plain r listing, listed.digits r listing⟩

theorem Listed.marks_apart (listed : Listed xs) : ((xs.map mark).map (·.1)).Nodup := by
  have paths : (xs.map mark).map (·.1) = xs.map (·.path) := by
    rw [List.map_map]
    rfl
  rw [paths]
  exact listed.apart

theorem sortedMarks_eq_of_perm (apart : ((xs.map mark).map (·.1)).Nodup)
    (order : (xs.map mark).Perm (ys.map mark)) : sortedMarks xs = sortedMarks ys :=
  mergeSort_key_eq_of_perm Prod.fst order apart

theorem sortedMarks_eq_iff (first : Listed xs) (second : Listed ys) :
    sortedMarks xs = sortedMarks ys ↔ SameMarks xs ys := by
  constructor
  · intro same mark
    have sorted : ∀ records : List FileRecord, mark ∈ sortedMarks records ↔
        mark ∈ records.map FileRecord.mark := fun records => List.mem_mergeSort
    rw [← sorted xs, ← sorted ys, same]
  · intro same
    have order : (xs.map mark).Perm (ys.map mark) :=
      (List.perm_ext_iff_of_nodup (.of_map _ first.marks_apart)
        (.of_map _ second.marks_apart)).mpr same
    exact sortedMarks_eq_of_perm first.marks_apart order

/-- Records under different paths have one hash in every order. -/
theorem aggregateHash_perm (apart : (xs.map (·.path)).Nodup) (order : xs.Perm ys) :
    aggregateHash xs = aggregateHash ys := by
  rw [aggregateHash, aggregateHash, aggregateText, aggregateText, sorted, sorted,
    mergeSort_key_eq_of_perm (·.path) order apart]

theorem aggregateText_eq_iff (first : Listed xs) (second : Listed ys) :
    aggregateText xs = aggregateText ys ↔ SameMarks xs ys := by
  rw [← sortedMarks_eq_iff first second, aggregateText_eq, aggregateText_eq]
  constructor
  · exact join_markText_inj first.sortedMarks_sound second.sortedMarks_sound
  · intro same
    rw [same]

theorem aggregateHash_eq_iff (first : Listed xs) (second : Listed ys) :
    aggregateHash xs = aggregateHash ys ↔
      SameMarks xs ys ∨ Digest.Collide (aggregateText xs) (aggregateText ys) := by
  constructor
  · intro same
    by_cases texts : aggregateText xs = aggregateText ys
    · exact Or.inl ((aggregateText_eq_iff first second).mp texts)
    · exact Or.inr (Digest.collide_of_ne texts same)
  · rintro (same | collide)
    · rw [aggregateHash, aggregateHash, (aggregateText_eq_iff first second).mpr same]
    · exact collide.2

theorem aggregateHash_sorted (xs : List FileRecord) :
    aggregateHash (sorted xs) = aggregateHash xs := by
  have again : sorted (sorted xs) = sorted xs :=
    sorted_eq (List.pairwise_map.mpr (mergeSort_key_sorted (·.path) xs))
  rw [aggregateHash, aggregateHash, aggregateText, aggregateText, again]

end Aggregates

end FileRecord

/-! ### Paths of artifacts -/

section Paths

variable {config : Config} {models : List Model} {c : Compilation}

open Text (IsName)

/-- Every field stands under names, its own and that of its type. -/
theorem place_isName (decoded : ∀ m ∈ models, m.IsDecoded) {x : ApiField}
    (member : x ∈ apiFields models) : IsName x.place.1 ∧ IsName x.place.2 := by
  have rooted : ∀ name ∈ rootTypeNames, IsName name := by decide
  have owner {a : String} (owned : x.model? = some a) :
      ∃ m : Model, m.IsDecoded ∧ m.name = a ∧ x ∈ m.apiFields := by
    obtain ⟨m, listed, named, own⟩ := exists_of_model? member owned
    exact ⟨m, decoded m listed, named, own⟩
  cases x with
  | root a field =>
    obtain ⟨m, read, rfl, _⟩ := owner rfl
    exact ⟨rooted _ (ApiField.place_rooted (by simp)), read.rootField_isName field⟩
  | link a field =>
    obtain ⟨m, read, rfl, own⟩ := owner rfl
    refine ⟨read.name_isName, ?_⟩
    rcases Model.mem_apiFields.mp own with
      ⟨f, same⟩ | ⟨r, related, same⟩ | ⟨_, f, _, same⟩ | ⟨_, same⟩
    · cases same
    · obtain ⟨_, rfl⟩ := ApiField.link.inj same
      exact Text.isName_of_isIdentifier (read.relationship_identifier related)
    · cases same
    · cases same
  | subscription a field =>
    obtain ⟨m, read, rfl, _⟩ := owner rfl
    have lead : IsName ("on" ++ field.capitalized) := by cases field <;> decide
    exact ⟨rooted _ (ApiField.place_rooted (by simp)), lead.append read.name_isName⟩
  | jobResult a =>
    obtain ⟨m, read, rfl, _⟩ := owner rfl
    have lead : IsName ("get" ++ m.name) := (by decide : IsName "get").append read.name_isName
    exact ⟨rooted _ (ApiField.place_rooted (by simp)), lead.append (by decide)⟩
  | publication => exact ⟨rooted _ (ApiField.place_rooted (by simp)), by decide⟩
  | completion => exact ⟨rooted _ (ApiField.place_rooted (by simp)), by decide⟩

theorem Slot.path_plain (decoded : ∀ m ∈ models, m.IsDecoded) {x : Slot}
    (member : x ∈ slots models) : ':' ∉ (Slot.path x).toList := by
  have plain {s : String} (named : IsName s) : ':' ∉ s.toList := by
    intro colon
    exact absurd (named _ colon) (by decide)
  cases x with
  | field x =>
    obtain ⟨types, fields⟩ := place_isName decoded (field_mem_apiFields member)
    simp only [Slot.path, FieldPlace.path, toString, String.toList_append, List.mem_append,
      plain types, plain fields]
    decide
  | stage a f k =>
    have root := place_isName decoded (stage_root_mem_apiFields member)
    have suffix : IsName k.suffix := by cases k <;> decide
    simp only [Slot.path, toString, String.toList_append, List.mem_append, plain suffix,
      plain (s := Naming.rootField a f) root.2]
    decide

/-- No path of an artifact has a colon. -/
theorem Compilation.artifact_path_plain (decoded : ∀ m ∈ models, m.IsDecoded)
    (built : build config models = .ok c) {a : Artifact} (member : a ∈ c.artifacts) :
    ':' ∉ a.path.toList := by
  have kept : a.path ∈ c.candidates.map (·.path) := by
    have listed := List.mem_map_of_mem (f := (·.path)) (c.artifacts_perm.mem_iff.mp member)
    rw [lastOfEach_paths] at listed
    exact List.mem_dedup.mp listed
  have exchange : ∀ path ∈ c.exchangePaths, ':' ∉ path.toList := by
    intro path exchanged
    obtain ⟨x, slot, rfl⟩ := List.mem_map.mp ((exchangePaths_perm built).mem_iff.mp exchanged)
    exact Slot.path_plain decoded slot
  rw [candidates_paths, templatePaths_eq] at kept
  simp only [List.cons_append, List.mem_cons, List.mem_append, List.mem_flatMap,
    List.not_mem_nil, or_false] at kept
  rcases kept with schema | ⟨path, exchanged, request | response⟩ | resolvers | indexes
  · rw [schema]
    decide
  · rw [request, String.toList_append]
    simp [exchange path exchanged]
  · rw [response, String.toList_append]
    simp [exchange path exchanged]
  · rw [resolvers]
    decide
  · rw [indexes]
    decide

end Paths

/-! ### Exports -/

theorem filter_key_of_sublist {α : Type} {key : α → String} {xs ys : List α} (part : xs.Sublist ys)
    (apart : (ys.map key).Nodup) : ys.filter (fun y => decide (key y ∈ xs.map key)) = xs := by
  induction part with
  | slnil => rfl
  | @cons xs ys y part ih =>
    obtain ⟨new, others⟩ := List.nodup_cons.mp apart
    have left : ¬ key y ∈ xs.map key := fun member => new ((part.map key).subset member)
    rw [List.filter_cons_of_neg (by simpa using left), ih others]
  | @cons_cons xs ys y part ih =>
    obtain ⟨new, others⟩ := List.nodup_cons.mp apart
    have rest : ys.filter (fun z => decide (key z ∈ (y :: xs).map key)) =
        ys.filter fun z => decide (key z ∈ xs.map key) := by
      refine List.filter_congr fun z member => ?_
      have other : key z ≠ key y := by
        intro same
        exact new (same ▸ List.mem_map_of_mem member)
      simp [other]
    rw [List.filter_cons_of_pos (by simp), rest, ih others]

theorem Attempts.written_of_total {write : FileWriter} {directory : Path} {files after : Files}
    {outcomes : List Outcome}
    (total : ∀ files p content, ∃ after count, write files p content = (after, .ok count))
    (attempts : Attempts write directory files outcomes after) :
    outcomes.filterMap Outcome.written? = outcomes.map (·.1) := by
  induction attempts with
  | done => rfl
  | @next files middle after a outcome rest tried others ih =>
    obtain ⟨left, count, wrote⟩ := total files (directory.join (Path.ofText a.path)) a.content
    obtain ⟨rfl, rfl⟩ := Prod.mk.inj (tried.symm.trans wrote)
    exact congrArg (a :: ·) ih

/-- An export of what was compiled from models that were read. -/
structure Export where
  config : Config
  models : List Model
  decoded : ∀ m ∈ models, m.IsDecoded
  compilation : Compilation
  built : Compilation.build config models = .ok compilation
  exporter : Exporter
  write : FileWriter
  counts : write.Counts
  time : String
  files : Files

namespace Export

variable (x y : Export)

def manifest : Manifest :=
  (x.exporter.run x.write x.compilation x.time x.files).2.2.manifest

/-- The artifacts that the manifest lists. -/
def written : List Artifact :=
  x.compilation.artifacts.filter fun a => decide (a.path ∈ x.manifest.records.map (·.path))

theorem written_sublist : x.written.Sublist x.compilation.artifacts := List.filter_sublist

theorem manifest_lists : x.manifest.Lists x.written := by
  have some : ∃ written : List Artifact, written.Sublist x.compilation.artifacts ∧
      x.manifest.Lists written := by
    cases ready : x.exporter.settings.prepare (x.files.resolve x.exporter.settings.directory)
        x.files with
    | mk prepared outcome =>
      cases outcome with
      | error e =>
        have told := Exporter.run_unprepared x.write x.exporter x.compilation x.time x.files ready
        exact ⟨[], List.nil_sublist _, told.2.1⟩
      | ok =>
        obtain ⟨outcomes, exports⟩ :=
          Exporter.run_prepared x.counts x.exporter x.compilation x.time x.files ready
        refine ⟨_, ?_, exports.manifest⟩
        rw [← exports.all]
        exact ApiLoom.written_sublist outcomes
  obtain ⟨written, part, lists⟩ := some
  have paths : x.manifest.records.map (·.path) = written.map (·.path) := by
    rw [lists.records, List.map_map]
    rfl
  have same : x.written = written := by
    unfold Export.written
    rw [paths]
    exact filter_key_of_sublist part x.compilation.artifacts_paths_nodup
  rwa [same]

theorem records_listed : FileRecord.Listed x.manifest.records := by
  rw [x.manifest_lists.records]
  have artifact : ∀ a ∈ x.written, a ∈ x.compilation.artifacts := fun a member =>
    x.written_sublist.subset member
  constructor
  case apart =>
    have paths := x.compilation.artifacts_paths_nodup.sublist (x.written_sublist.map _)
    rwa [List.map_map]
  case plain =>
    intro r member
    obtain ⟨a, listed, rfl⟩ := List.mem_map.mp member
    exact Compilation.artifact_path_plain x.decoded x.built (artifact a listed)
  case digits =>
    intro r member
    obtain ⟨a, listed, rfl⟩ := List.mem_map.mp member
    exact Digest.length_hexOf a.content

/-- Two artifacts under one path whose contents have one digest. -/
def Ambiguous : Prop :=
  ∃ a ∈ x.written, ∃ b ∈ y.written, a.path = b.path ∧ Digest.Collide a.content b.content

variable {x y}

theorem mem_written_of_marks
    (same : FileRecord.SameMarks x.manifest.records y.manifest.records)
    (clear : ¬ Ambiguous x y) {a : Artifact} (member : a ∈ x.written) : a ∈ y.written := by
  have mark : a.record.mark ∈ y.manifest.records.map FileRecord.mark := by
    apply (same _).mp
    rw [x.manifest_lists.records]
    exact List.mem_map_of_mem (List.mem_map_of_mem member)
  rw [y.manifest_lists.records, List.map_map] at mark
  obtain ⟨b, listed, marked⟩ := List.mem_map.mp mark
  have path : b.path = a.path := congrArg Prod.fst marked
  have digest : Digest.hexOf b.content = Digest.hexOf a.content := congrArg Prod.snd marked
  by_cases content : a.content = b.content
  · have whole : a = b := by
      cases a
      cases b
      simp_all
    rwa [whole]
  · have collide := Digest.collide_of_ne content digest.symm
    exact absurd ⟨a, member, b, listed, path.symm, collide⟩ clear

/-- What the same files with the same digests amount to. -/
theorem written_eq_of_marks (same : FileRecord.SameMarks x.manifest.records y.manifest.records) :
    x.written = y.written ∨ Ambiguous x y := by
  by_cases clear : Ambiguous x y
  · exact Or.inr clear
  · have turned : ¬ Ambiguous y x := by
      rintro ⟨b, second, a, first, path, bytes, digest⟩
      exact clear ⟨a, first, b, second, path.symm, bytes.symm, digest.symm⟩
    have nodup (z : Export) : z.written.Nodup :=
      (List.Nodup.of_map _ z.compilation.artifacts_paths_nodup).sublist z.written_sublist
    have order : x.written.Perm y.written := by
      refine (List.perm_ext_iff_of_nodup (nodup x) (nodup y)).mpr fun a => ⟨?_, ?_⟩
      · exact mem_written_of_marks same clear
      · exact mem_written_of_marks (fun mark => (same mark).symm) turned
    have increasing (z : Export) : z.written.Pairwise fun a b => a.path < b.path :=
      (List.pairwise_map.mp z.compilation.artifacts_paths_increase).sublist z.written_sublist
    refine Or.inl (order.eq_of_pairwise (fun a b _ _ before behind => ?_) (increasing x)
      (increasing y))
    exact absurd before (String.lt_asymm behind)

/-- Where every text gets written, the manifest lists all artifacts. -/
theorem written_of_total {prepared : Files}
    (ready : x.exporter.settings.prepare (x.files.resolve x.exporter.settings.directory) x.files =
      (prepared, .ok ()))
    (total : ∀ files p content, ∃ after count, x.write files p content = (after, .ok count)) :
    x.written = x.compilation.artifacts := by
  obtain ⟨outcomes, exports⟩ :=
    Exporter.run_prepared x.counts x.exporter x.compilation x.time x.files ready
  obtain ⟨middle, attempts, -⟩ := exports.files
  have all := attempts.written_of_total total
  have paths : x.manifest.records.map (·.path) = x.compilation.artifacts.map (·.path) := by
    have records : x.manifest.records = _ := exports.manifest.records
    rw [records, all, exports.all, List.map_map]
    rfl
  rw [Export.written, paths]
  exact filter_key_of_sublist (List.Sublist.refl _) x.compilation.artifacts_paths_nodup

end Export

open FileRecord

/-- Of records under different paths without colons, the aggregate text has the paths and digests
and nothing else, in whatever order they are given.  So the aggregates of two exports differ with
their artifacts, whenever, where and for what stage they were made, unless two texts share a
digest. -/
theorem aggregate_identifies :
    (∀ {xs ys : List FileRecord}, Listed xs → Listed ys →
      (xs.Perm ys → aggregateHash xs = aggregateHash ys) ∧
      ((aggregateText xs).toUTF8 = (aggregateText ys).toUTF8 ↔ SameMarks xs ys) ∧
      ∀ (s t : ExportSettings) (time later place other : String),
        (s.manifest time place xs).aggregateHash = (t.manifest later other ys).aggregateHash ↔
          SameMarks xs ys ∨ Digest.Collide (aggregateText xs) (aggregateText ys)) ∧
    ∀ x y : Export, Listed x.manifest.records ∧ x.manifest.Lists x.written ∧
      (x.written = y.written → x.manifest.aggregateHash = y.manifest.aggregateHash) ∧
      (x.manifest.aggregateHash = y.manifest.aggregateHash →
        x.written = y.written ∨ x.Ambiguous y ∨
          Digest.Collide (aggregateText x.manifest.records)
            (aggregateText y.manifest.records)) := by
  constructor
  · intro xs ys first second
    refine ⟨aggregateHash_perm first.apart, ?_, fun s t time later place other => ?_⟩
    · rw [Digest.toUTF8_inj, aggregateText_eq_iff first second]
    · rw [← aggregateHash_eq_iff first second, ← aggregateHash_sorted xs,
        ← aggregateHash_sorted ys]
      rfl
  · intro x y
    refine ⟨x.records_listed, x.manifest_lists, fun same => ?_, fun same => ?_⟩
    · rw [x.manifest_lists.hash, y.manifest_lists.hash, same]
    · rcases (aggregateHash_eq_iff x.records_listed y.records_listed).mp same with marks | collide
      · exact (Export.written_eq_of_marks marks).imp_right Or.inl
      · exact Or.inr (Or.inr collide)

/-- A writer that only counts. -/
def counting : FileWriter := fun files _ content => (files, .ok content.toUTF8.size)

theorem counting_counts : counting.Counts := by
  intro files p content after count wrote
  cases wrote
  rfl

def zeros : String := String.ofList (List.replicate 64 '0')

def ones : String := String.ofList (List.replicate 64 '1')

/-- Two files, one of them with a line feed in its path. -/
def twoFiles : List FileRecord :=
  [⟨"resolvers/Query.getNote.request.vtl", 310, 12, zeros⟩,
    ⟨"resolvers/Query.getNote\n.request.vtl", 320, 13, ones⟩]

/-- The same files with the digests of each other. -/
def exchangedFiles : List FileRecord :=
  [⟨"resolvers/Query.getNote.request.vtl", 310, 12, ones⟩,
    ⟨"resolvers/Query.getNote\n.request.vtl", 320, 13, zeros⟩]

/-- The order of two files does not change the hash, and which digest is whose changes its text.
Exports of a model on two days, for two stages and to two places, have one hash. -/
theorem aggregate_identifies_twoFiles :
    Listed twoFiles ∧ Listed exchangedFiles ∧
      aggregateHash twoFiles = aggregateHash twoFiles.reverse ∧
      (aggregateText twoFiles).toUTF8 ≠ (aggregateText exchangedFiles).toUTF8 ∧
      ∃ x y : Export, x.models.map (·.name) = ["Note"] ∧ x.compilation = y.compilation ∧
        x.time ≠ y.time ∧ x.exporter.settings.stage ≠ y.exporter.settings.stage ∧
        x.exporter.settings.directory ≠ y.exporter.settings.directory ∧
        x.written = x.compilation.artifacts ∧
        x.manifest.aggregateHash = y.manifest.aggregateHash := by
  have two : Listed twoFiles := ⟨by decide, by decide, by decide⟩
  have exchanged : Listed exchangedFiles := ⟨by decide, by decide, by decide⟩
  obtain ⟨reordered, texts, -⟩ := aggregate_identifies.1 two exchanged
  refine ⟨two, exchanged, ?_, ?_, ?_⟩
  · exact (aggregate_identifies.1 two ⟨by decide, by decide, by decide⟩).1
      (List.reverse_perm twoFiles).symm
  · intro same
    exact absurd (texts.mp same ("resolvers/Query.getNote.request.vtl", zeros)) (by decide)
  · obtain ⟨m, c, read, named, built⟩ : ∃ m c, Model.decode (storedModel "Note") = .ok m ∧
        m.name = "Note" ∧ Compilation.build .default [m] = .ok c :=
      ⟨_, _, rfl, rfl, rfl⟩
    have decoded : ∀ n ∈ [m], n.IsDecoded := by
      intro n member
      obtain rfl := List.mem_singleton.mp member
      exact ⟨_, read⟩
    let exported (s : ExportSettings) (time : String) : Export :=
      ⟨.default, [m], decoded, c, built, .ofSettings s, counting, counting_counts, time,
        ⟨"/data", [], []⟩⟩
    have total : ∀ files p content, ∃ after count,
        counting files p content = (after, .ok count) := fun files p content => ⟨_, _, rfl⟩
    let morning := exported ⟨⟨.here, ["out"]⟩, "dev", "1", false, true, true⟩ "2024-01-01"
    let evening := exported ⟨⟨.here, ["live"]⟩, "prod", "2", false, false, false⟩ "2024-01-02"
    have first : morning.written = c.artifacts := Export.written_of_total rfl total
    have second : evening.written = c.artifacts := Export.written_of_total rfl total
    have times : "2024-01-01" ≠ "2024-01-02" := by decide
    have stages : "dev" ≠ "prod" := by decide
    have places : (⟨.here, ["out"]⟩ : Path) ≠ ⟨.here, ["live"]⟩ := by decide
    have names : [m].map (·.name) = ["Note"] := by rw [List.map_singleton, named]
    refine ⟨morning, evening, names, rfl, times, stages, places, first, ?_⟩
    exact (aggregate_identifies.2 morning evening).2.2.1 (first.trans second.symm)

end ApiLoom
