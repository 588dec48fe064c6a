import ApiLoom.Proofs.Compiled
import ApiLoom.Proofs.Loading
import ApiLoom.Proofs.Sorting
import Mathlib.Data.List.Forall2

/-!
# Strict and lenient loading

A source has entries, and gives the models of all of them or none.  A lenient loading takes the
models of the sources that give any and tells of the others; a strict one takes the same models
if there are no others, and otherwise fails as the first of them does.  Neither looks at a seed
source.
-/

namespace ApiLoom

/-! ### Lists of attempts -/

section Attempts

variable {α β ε : Type} {f : α → Except ε β}

theorem mapM_eq_ok_iff {xs : List α} {ys : List β} :
    xs.mapM f = .ok ys ↔ List.Forall₂ (fun x y => f x = .ok y) xs ys := by
  induction xs generalizing ys with
  | nil => simp [pure, Except.pure, eq_comm]
  | cons x rest ih =>
    rw [List.mapM_cons, List.forall₂_cons_left_iff]
    cases first : f x with
    | error e => simp [bind, Except.bind]
    | ok y =>
      cases others : rest.mapM f with
      | error e => simp [bind, Except.bind, ← ih, others]
      | ok more => simp [bind, Except.bind, pure, Except.pure, ← ih, others, eq_comm]

end Attempts

/-! ### One source -/

namespace Source

variable {parsers : Parsers} {s : Source} {name : String}

/-- What a document has to be a model each, with the names they are loaded under: the documents
in the list of models, else the document itself, if it is not empty.  There is no list of
entries where that list is none. -/
def entries (name : String) (document : Value) : Option (List (Value × String)) :=
  match document with
  | .scalar .null => some []
  | .map members =>
    match Entries.get? members modelsKey with
    | some (.list items) => some (items.zipIdx.map fun e => (e.1, s!"{name}#{e.2}"))
    | some _ => none
    | none => some [(document, name)]
  | _ => some [(document, name)]

/-- What comes of a source: the models of all its entries, or why there are none. -/
inductive Yields (parsers : Parsers) (s : Source) (name : String) :
    Except LoadError (List Model) → Prop where
  | unread {cause : LoadCause} (read : s.read parsers = .error (.refused cause)) :
      Yields parsers s name (.error ⟨name, cause⟩)
  | unlisted {document : Value} (read : s.read parsers = .ok document)
      (unlisted : entries name document = none) :
      Yields parsers s name (.error ⟨name, .modelsNotList⟩)
  | rejected {document : Value} {before later : List (Value × String)} {entry : Value × String}
      {e : LoadError} (read : s.read parsers = .ok document)
      (listed : entries name document = some (before ++ entry :: later))
      (passed : ∀ b ∈ before, ∃ m, Model.load b.1 b.2 = .ok m)
      (rejected : Model.load entry.1 entry.2 = .error e) : Yields parsers s name (.error e)
  | accepted {document : Value} {all : List (Value × String)} {models : List Model}
      (read : s.read parsers = .ok document) (listed : entries name document = some all)
      (accepted : List.Forall₂ (fun entry m => Model.load entry.1 entry.2 = .ok m) all models) :
      Yields parsers s name (.ok models)

theorem modelsFrom_eq (name : String) (position : Nat) (items : List Value) :
    modelsFrom name position items =
      ((items.zipIdx position).map fun e => (e.1, s!"{name}#{e.2}")).mapM
        fun entry => Model.load entry.1 entry.2 := by
  induction items generalizing position with
  | nil => rfl
  | cons v rest ih =>
    rw [List.zipIdx_cons, List.map_cons, List.mapM_cons, ← ih]
    rfl

theorem single_eq (document : Value) (name : String) :
    (Model.load document name).map (fun m => [m]) =
      [(document, name)].mapM fun entry => Model.load entry.1 entry.2 := by
  rw [List.mapM_cons, List.mapM_nil]
  cases Model.load document name <;> rfl

theorem modelsOf_eq (name : String) (document : Value) :
    modelsOf name document =
      match entries name document with
      | none => .error ⟨name, .modelsNotList⟩
      | some all => all.mapM fun entry => Model.load entry.1 entry.2 := by
  cases document with
  | scalar value =>
    cases value with
    | null => rfl
    | _ => simp only [modelsOf, entries, single_eq]
  | list items => simp only [modelsOf, entries, single_eq]
  | map members =>
    simp only [modelsOf, entries, single_eq]
    cases found : Entries.get? members modelsKey with
    | none => rfl
    | some listed =>
      cases listed with
      | list items => exact modelsFrom_eq name 0 items
      | _ => rfl

theorem models_refused {cause : LoadCause} (read : s.read parsers = .error (.refused cause)) :
    s.models parsers name = .error (.refused ⟨name, cause⟩) := by
  rw [models, read]
  rfl

theorem models_unlisted {document : Value} (read : s.read parsers = .ok document)
    (unlisted : entries name document = none) :
    s.models parsers name = .error (.refused ⟨name, .modelsNotList⟩) := by
  have parsed := modelsOf_eq name document
  rw [unlisted] at parsed
  rw [models, read]
  exact congrArg (·.mapError LoadFailure.refused) parsed

theorem models_listed {document : Value} {all : List (Value × String)}
    (read : s.read parsers = .ok document) (listed : entries name document = some all) :
    s.models parsers name =
      (all.mapM fun entry => Model.load entry.1 entry.2).mapError .refused := by
  have parsed := modelsOf_eq name document
  rw [listed] at parsed
  rw [models, read]
  exact congrArg (·.mapError LoadFailure.refused) parsed

/-- What a source yields is what is loaded from it. -/
theorem Yields.models {result : Except LoadError (List Model)}
    (yields : s.Yields parsers name result) :
    s.models parsers name = result.mapError .refused := by
  cases yields with
  | unread read => exact models_refused read
  | unlisted read unlisted => exact models_unlisted read unlisted
  | rejected read listed passed rejected =>
    rw [models_listed read listed, mapM_eq_error_iff.mpr ⟨_, _, _, rfl, passed, rejected⟩]
  | accepted read listed accepted =>
    rw [models_listed read listed, mapM_eq_ok_iff.mpr accepted]

theorem exists_yields (whole : ¬ s.Breaks parsers) : ∃ result, s.Yields parsers name result := by
  cases read : s.read parsers with
  | error failure =>
    cases failure with
    | refused cause => exact ⟨_, .unread read⟩
    | broken fault => exact absurd (breaks_iff.mpr ⟨fault, read⟩) whole
  | ok document =>
    cases listed : entries name document with
    | none => exact ⟨_, .unlisted read listed⟩
    | some all =>
      cases each : all.mapM fun entry => Model.load entry.1 entry.2 with
      | ok models => exact ⟨_, .accepted read listed (mapM_eq_ok_iff.mp each)⟩
      | error e =>
        obtain ⟨before, entry, later, rfl, passed, rejected⟩ := mapM_eq_error_iff.mp each
        exact ⟨_, .rejected read listed passed rejected⟩

end Source

namespace Repository

/-! ### The files of a directory -/

variable {parsers : Parsers} {r : Repository} {files others : Files}

def isModelSource (p : Path) : Bool :=
  isSource p && (seedModel? p).isNone

theorem list_child {directory p : Path} (listed : p ∈ files.list directory) :
    directory.child p.name = p := by
  unfold Files.list at listed
  split at listed
  · obtain ⟨name, _, rfl⟩ := List.mem_map.mp listed
    simp [Path.child, Path.name]
  · cases listed

theorem list_sorted (files : Files) (directory : Path) :
    (files.list directory).Pairwise fun p q => p.name ≤ q.name := by
  unfold Files.list
  split
  · refine List.pairwise_map.mpr ((mergeSort_key_sorted id _).imp fun {a b} le => ?_)
    simpa [Path.child, Path.name] using le
  · exact .nil

/-- A directory whose names are in order is listed as it is. -/
theorem list_of_sorted {directory : Path} {place : Place}
    (found : files.find directory = .ok place)
    (sorted : ((files.children place).map (·.1)).Pairwise (· ≤ ·)) :
    files.list directory = ((files.children place).map (·.1)).map directory.child := by
  rw [Files.list, found]
  exact congrArg _ (List.mergeSort_of_pairwise (sorted.imp fun le => decide_eq_true le))

theorem modelSources_eq (r : Repository) (files : Files) :
    r.modelSources files =
      if files.isDirectory r.directory then
        ((files.list r.directory).filter isModelSource).filterMap fun p =>
          (files.bytes? p).map fun bytes => ⟨p, bytes⟩
      else [] := by
  unfold modelSources sources
  split
  · rw [List.filter_filterMap, List.filterMap_filter]
    refine List.filterMap_congr fun p _ => ?_
    unfold isModelSource
    cases isSource p with
    | false => rfl
    | true =>
      cases files.bytes? p with
      | none => simp
      | some bytes => cases seeds : seedModel? p <;> simp [seeds]
  · rfl

/-- The model sources are the files of the directory with the name of a source and not of seeds,
in the order of their names, with what they hold. -/
structure ListsModelSources (r : Repository) (files : Files) : Prop where
  paths : (r.modelSources files).map (·.path) =
    if files.isDirectory r.directory then
      (files.list r.directory).filter fun p => isModelSource p && files.isFile p
    else []
  sorted : (r.modelSources files).Pairwise fun s t => s.path.name ≤ t.path.name
  bytes : ∀ s ∈ r.modelSources files, files.bytes? s.path = some s.bytes

theorem modelSources_paths (r : Repository) (files : Files) :
    (r.modelSources files).map (·.path) =
      if files.isDirectory r.directory then
        (files.list r.directory).filter fun p => isModelSource p && files.isFile p
      else [] := by
  rw [modelSources_eq]
  split
  · rw [List.map_filterMap, List.filterMap_filter, ← List.filterMap_eq_filter]
    refine List.filterMap_congr fun p _ => ?_
    unfold Option.guard Files.isFile
    cases found : files.bytes? p <;> simp [found]
  · rfl

theorem listsModelSources (r : Repository) (files : Files) : r.ListsModelSources files := by
  refine ⟨modelSources_paths r files, ?_, fun s member => ?_⟩
  · have sorted := list_sorted files r.directory
    have paths : ((r.modelSources files).map (·.path)).Pairwise fun p q => p.name ≤ q.name := by
      rw [modelSources_paths]
      split
      · exact sorted.filter _
      · exact .nil
    simpa only [List.pairwise_map] using paths
  · rw [modelSources_eq] at member
    split at member
    · obtain ⟨p, _, found⟩ := List.mem_filterMap.mp member
      obtain ⟨bytes, held, rfl⟩ := Option.map_eq_some_iff.mp found
      exact held
    · cases member

/-! ### Sources that hold no seeds -/

/-- The same files, the seed sources in the directory apart. -/
structure SameButSeeds (directory : Path) (files others : Files) : Prop where
  home : others.home = files.home
  exists_iff : others.isDirectory directory = files.isDirectory directory
  listed : ((others.list directory).filter fun p => (seedModel? p).isNone).Perm
    ((files.list directory).filter fun p => (seedModel? p).isNone)
  held : ∀ p ∈ files.list directory, (seedModel? p).isNone = true →
    others.bytes? p = files.bytes? p

/-- Listings are in the order of names, so that they are the same where they have the same
members. -/
theorem SameButSeeds.listed_eq {directory : Path} (same : SameButSeeds directory files others) :
    ((others.list directory).filter fun p => (seedModel? p).isNone) =
      (files.list directory).filter fun p => (seedModel? p).isNone := by
  refine List.Perm.eq_of_pairwise (fun p q first second below above => ?_)
    ((list_sorted others directory).filter _) ((list_sorted files directory).filter _) same.listed
  rw [← list_child (List.mem_of_mem_filter first), ← list_child (List.mem_of_mem_filter second),
    String.le_antisymm below above]

theorem SameButSeeds.modelSources (same : SameButSeeds r.directory files others) :
    r.modelSources others = r.modelSources files := by
  have listed : (others.list r.directory).filter isModelSource =
      (files.list r.directory).filter isModelSource := by
    have both := congrArg (List.filter isSource) same.listed_eq
    rwa [List.filter_filter, List.filter_filter] at both
  rw [modelSources_eq, modelSources_eq, same.exists_iff, listed]
  split
  · refine List.filterMap_congr fun p member => ?_
    obtain ⟨listed, model⟩ := List.mem_filter.mp member
    rw [same.held p listed (Bool.and_eq_true_iff.mp model).2]
  · rfl

theorem SameButSeeds.loadModels (same : SameButSeeds r.directory files others) :
    r.loadModels parsers others = r.loadModels parsers files := by
  have text : others.text = files.text := by
    funext p
    rw [Files.text, Files.text, same.home]
  rw [Repository.loadModels, Repository.loadModels, same.modelSources, text]

/-! ### Both modes -/

def given : Except LoadError (List Model) → List Model
  | .ok models => models
  | .error _ => []

def rejection? : Except LoadError (List Model) → Option LoadError
  | .ok _ => none
  | .error e => some e

theorem gather_lenient (results : List (Except LoadError (List Model))) :
    gather false (results.map (·.mapError .refused)) =
      ⟨.ok (results.flatMap given), results.filterMap rejection?⟩ := by
  induction results with
  | nil => rfl
  | cons result rest ih =>
    cases result with
    | ok models =>
      show gather false (.ok models :: _) = _
      rw [gather, ih]
      rfl
    | error e =>
      show gather false (.error (.refused e) :: _) = _
      rw [gather, ih]
      rfl

/-- The first rejection, if there is one, is all that comes of a strict loading. -/
theorem gather_strict (results : List (Except LoadError (List Model))) :
    gather true (results.map (·.mapError .refused)) =
      match results.filterMap rejection? with
      | [] => ⟨.ok (results.flatMap given), []⟩
      | e :: _ => ⟨.error (.refused e), []⟩ := by
  induction results with
  | nil => rfl
  | cons result rest ih =>
    cases result with
    | ok models =>
      show gather true (.ok models :: _) = _
      rw [gather, ih, List.filterMap_cons_none rfl]
      cases rest.filterMap rejection? <;> rfl
    | error e => rfl

theorem exists_forall₂ {α β : Type} {R : α → β → Prop} {xs : List α}
    (each : ∀ x ∈ xs, ∃ y, R x y) : ∃ ys, List.Forall₂ R xs ys := by
  induction xs with
  | nil => exact ⟨[], .nil⟩
  | cons x rest ih =>
    obtain ⟨⟨y, first⟩, others⟩ := List.forall_mem_cons.mp each
    obtain ⟨ys, more⟩ := ih others
    exact ⟨y :: ys, .cons first more⟩

/-- What comes of a directory whose model sources come to these results. -/
structure Gathers (parsers : Parsers) (r : Repository) (files : Files)
    (results : List (Except LoadError (List Model))) : Prop where
  yields : List.Forall₂ (fun s result => s.Yields parsers (files.text s.path) result)
    (r.modelSources files) results
  lenient : { r with strict := false }.loadModels parsers files =
    ⟨.ok (results.flatMap given), results.filterMap rejection?⟩
  strict : { r with strict := true }.loadModels parsers files =
    match results.filterMap rejection? with
    | [] => ⟨.ok (results.flatMap given), []⟩
    | e :: _ => ⟨.error (.refused e), []⟩

theorem exists_gathers (whole : ∀ s ∈ r.modelSources files, ¬ s.Breaks parsers) :
    ∃ results, r.Gathers parsers files results := by
  have each : ∀ s ∈ r.modelSources files, ∃ result, s.Yields parsers (files.text s.path) result :=
    fun s member => Source.exists_yields (whole s member)
  obtain ⟨results, yields⟩ := exists_forall₂ each
  have loaded : (r.modelSources files).map (fun s => s.models parsers (files.text s.path)) =
      results.map (·.mapError .refused) := by
    refine List.forall₂_eq_eq_eq ▸ List.forall₂_map_left_iff.mpr (List.forall₂_map_right_iff.mpr ?_)
    exact yields.imp fun s result => Source.Yields.models
  exact ⟨results, yields, (congrArg (gather false) loaded).trans (gather_lenient results),
    (congrArg (gather true) loaded).trans (gather_strict results)⟩

/-- A loading takes the model sources in the order of their names, and what each yields.  It
takes all models of a source or none: a lenient loading tells of the sources that yield none,
and a strict one fails for the first of these.  Whatever seed sources there are, it is the same. -/
theorem loading_modes_agree (parsers : Parsers) (r : Repository) (files : Files)
    (whole : ∀ s ∈ r.modelSources files, ¬ s.Breaks parsers) :
    r.ListsModelSources files ∧ (∃ results, r.Gathers parsers files results) ∧
      ∀ others, SameButSeeds r.directory files others → ∀ strict,
        { r with strict := strict }.loadModels parsers others =
          { r with strict := strict }.loadModels parsers files :=
  ⟨listsModelSources r files, exists_gathers whole, fun _ same strict =>
    SameButSeeds.loadModels (r := { r with strict := strict }) same⟩

end Repository

/-- The lines of a model, each but the first after the margin. -/
def modelLines (margin name : String) : String :=
  margin.intercalate ["name: " ++ name, "properties:", "  id:", "    type: ID", "dataSource:",
    "  type: database", "  engine: nosql"] ++ "\n"

/-- A directory with a source of a model and a number, one of seeds that cannot be read, and one
of one model. -/
def halfPair : Files where
  home := ""
  here := []
  entries := [(["models"], .directory),
    (["models", "Pair.yaml"], .file ("models:\n- " ++ modelLines "\n  " "Label" ++ "- 5\n").toUTF8),
    (["models", "Tag.seed.yaml"], .file "- 0x_\n".toUTF8),
    (["models", "Tag.yaml"], .file (modelLines "\n" "Tag").toUTF8)]

def unseeded : Files := halfPair.remove ["models", "Tag.seed.yaml"]

def pairRepository (strict : Bool) : Repository := ⟨⟨.here, ["models"]⟩, strict⟩

theorem halfPair_list : halfPair.list ⟨.here, ["models"]⟩ =
    ["Pair.yaml", "Tag.seed.yaml", "Tag.yaml"].map (Path.child ⟨.here, ["models"]⟩) :=
  Repository.list_of_sorted (show halfPair.find _ = .ok ["models"] from rfl) (by decide +kernel)

theorem unseeded_list : unseeded.list ⟨.here, ["models"]⟩ =
    ["Pair.yaml", "Tag.yaml"].map (Path.child ⟨.here, ["models"]⟩) :=
  Repository.list_of_sorted (show unseeded.find _ = .ok ["models"] from rfl) (by decide +kernel)

theorem unseeded_same : Repository.SameButSeeds ⟨.here, ["models"]⟩ halfPair unseeded := by
  refine ⟨rfl, rfl, by rw [halfPair_list, unseeded_list]; decide +kernel, fun p member model => ?_⟩
  rw [halfPair_list] at member
  simp only [List.map_cons, List.map_nil, List.mem_cons, List.not_mem_nil, or_false] at member
  rcases member with rfl | rfl | rfl
  · rfl
  · exact absurd model (by decide +kernel)
  · rfl

theorem halfPair_breaks :
    ∃ s ∈ (pairRepository false).seedSources halfPair, s.2.Breaks .standard := by
  have failed : ((pairRepository false).loadSeeds .standard halfPair).outcome.isOk = false := by
    rw [Repository.loadSeeds, Repository.seedSources, Repository.sources, pairRepository,
      halfPair_list]
    decide +kernel
  cases outcome : ((pairRepository false).loadSeeds .standard halfPair).outcome with
  | ok seeds => rw [outcome] at failed; cases failed
  | error fault => exact Repository.breaks_of_loadSeeds outcome

/-- The label is not among the models, although nothing is wrong with it; the seeds break, but
this has no part in it. -/
theorem loading_modes_agree_halfPair :
    ∃ tag, tag.name = "Tag" ∧
      (pairRepository false).loadModels .standard halfPair =
        ⟨.ok [tag], [⟨"models/Pair.yaml#1", .notMapping "int"⟩]⟩ ∧
      (pairRepository true).loadModels .standard halfPair =
        ⟨.error (.refused ⟨"models/Pair.yaml#1", .notMapping "int"⟩), []⟩ ∧
      (∃ s ∈ (pairRepository false).seedSources halfPair, s.2.Breaks .standard) ∧
      ∀ strict, (pairRepository strict).loadModels .standard unseeded =
        (pairRepository strict).loadModels .standard halfPair := by
  have sources : (pairRepository false).modelSources halfPair =
      ["Pair.yaml", "Tag.yaml"].filterMap fun name =>
        (halfPair.bytes? ⟨.here, ["models", name]⟩).map fun bytes =>
          ⟨⟨.here, ["models", name]⟩, bytes⟩ := by
    rw [Repository.modelSources_eq, pairRepository, halfPair_list]
    rfl
  have loads : (((pairRepository false).loadModels .standard halfPair).outcome.toOption.map
      (·.map (·.name)), ((pairRepository false).loadModels .standard halfPair).skipped) =
        (some ["Tag"], [⟨"models/Pair.yaml#1", .notMapping "int"⟩]) := by
    rw [Repository.loadModels, sources]
    decide +kernel
  obtain ⟨taken, skipped⟩ := Prod.mk.inj loads
  cases outcome : ((pairRepository false).loadModels .standard halfPair).outcome with
  | error failure => rw [outcome] at taken; cases taken
  | ok models =>
    have whole := (Repository.loadsLeniently rfl).returns.mp ⟨models, outcome⟩
    obtain ⟨_, ⟨results, gathers⟩, apart⟩ :=
      Repository.loading_modes_agree .standard (pairRepository false) halfPair whole
    rw [outcome] at taken
    obtain ⟨tag, rfl, named⟩ : ∃ tag, models = [tag] ∧ tag.name = "Tag" := by
      simpa [Except.toOption, List.map_eq_singleton_iff] using taken
    have rejected : results.filterMap Repository.rejection? =
        [⟨"models/Pair.yaml#1", .notMapping "int"⟩] := by
      rw [← skipped]
      exact congrArg Repository.Loading.skipped gathers.lenient.symm
    have strict := gathers.strict
    rw [rejected] at strict
    exact ⟨tag, named, by rw [← outcome, ← skipped], strict, halfPair_breaks,
      apart unseeded unseeded_same⟩

end ApiLoom
