import ApiLoom.Document.Standard
import ApiLoom.Repository.Loading

/-!
# Loading

What becomes of the sources of a directory, whatever parsers read them.  A lenient loading
skips the sources that are refused, a strict one stops at the first of them.  Both break off
where a parser does: such a source is not refused, although it cannot be read.
-/

namespace ApiLoom

namespace Source

variable {parsers : Parsers} {s : Source} {name : String} {fault : ParserFault}

/-- The parser of the source breaks off at its text. -/
def Breaks (parsers : Parsers) (s : Source) : Prop :=
  ∃ text fault, Text.decode s.bytes = .ok text ∧
    s.parse parsers (Text.unifyFeeds text) = .error (.broken fault)

theorem breaks_iff : s.Breaks parsers ↔ ∃ fault, s.read parsers = .error (.broken fault) := by
  unfold Breaks read
  cases decoded : Text.decode s.bytes with
  | error e => simp
  | ok text =>
    simp only [Except.ok.injEq, exists_and_left, exists_eq_left']
    split <;> simp_all

theorem mapError_ne_broken {α ε : Type} (parsed : Except ε α) (cause : ε → LoadError) :
    parsed.mapError (fun e => LoadFailure.refused (cause e)) ≠ .error (.broken fault) := by
  intro broken
  cases parsed <;> cases broken

theorem models_broken_iff :
    s.models parsers name = .error (.broken fault) ↔ s.read parsers = .error (.broken fault) := by
  unfold models
  split
  · next failure _ => cases failure <;> simp_all [ReadFailure.of]
  · next document read => simpa [read] using mapError_ne_broken (modelsOf name document) id

theorem records_broken_iff :
    s.records parsers name = .error (.broken fault) ↔ s.read parsers = .error (.broken fault) := by
  unfold records
  split
  · next failure _ => cases failure <;> simp_all [ReadFailure.of]
  · next document read => simpa [read] using mapError_ne_broken (recordsOf document) (⟨name, ·⟩)

end Source

namespace Repository

/-! ### One source after the other -/

section Results

variable {α : Type}

/-- The loading goes no further than this. -/
def halts (strict : Bool) : Except LoadFailure α → Bool
  | .ok _ => false
  | .error (.refused _) => strict
  | .error (.broken _) => true

def kept : Except LoadFailure (List α) → List α
  | .ok items => items
  | .error _ => []

def refusal? : Except LoadFailure α → Option LoadError
  | .error (.refused e) => some e
  | _ => none

/-- A loading takes over what stands before the first result that halts it. -/
theorem gather_run (strict : Bool) (results : List (Except LoadFailure (List Model))) :
    ∃ before rest, results = before ++ rest ∧ (∀ x ∈ before, halts strict x = false) ∧
      (gather strict results).skipped = before.filterMap refusal? ∧
      (rest = [] ∧ (gather strict results).outcome = .ok (before.flatMap kept) ∨
        ∃ failure later, rest = .error failure :: later ∧
          halts strict (.error failure : Except LoadFailure (List Model)) = true ∧
          (gather strict results).outcome = .error failure) := by
  induction results with
  | nil => exact ⟨[], [], rfl, by simp, rfl, Or.inl ⟨rfl, rfl⟩⟩
  | cons result others ih =>
    obtain ⟨before, rest, split, goes, skipped, ends⟩ := ih
    match result with
    | .ok models =>
      refine ⟨.ok models :: before, rest, by rw [split]; rfl,
        List.forall_mem_cons.mpr ⟨rfl, goes⟩, skipped, ?_⟩
      rcases ends with ⟨done, outcome⟩ | ⟨failure, later, stop, halted, outcome⟩
      · exact Or.inl ⟨done, by rw [gather, outcome]; rfl⟩
      · exact Or.inr ⟨failure, later, stop, halted, by rw [gather, outcome]; rfl⟩
    | .error (.broken fault) =>
      exact ⟨[], _, rfl, by simp, rfl, Or.inr ⟨.broken fault, others, rfl, rfl, rfl⟩⟩
    | .error (.refused e) =>
      cases strict with
      | true => exact ⟨[], _, rfl, by simp, rfl, Or.inr ⟨.refused e, others, rfl, rfl, rfl⟩⟩
      | false =>
        refine ⟨.error (.refused e) :: before, rest, by rw [split]; rfl,
          List.forall_mem_cons.mpr ⟨rfl, goes⟩, ?_, ends⟩
        exact congrArg (e :: ·) skipped

/-- Adds the records of a result to those that were found. -/
def addKept (seeds : Review.SeedData) (result : String × Except LoadFailure (List Entries)) :
    Review.SeedData :=
  match result.2 with
  | .ok records => addSeeds seeds result.1 records
  | .error _ => seeds

theorem gatherSeeds_run (seeds : Review.SeedData)
    (results : List (String × Except LoadFailure (List Entries))) :
    ∃ before rest, results = before ++ rest ∧ (∀ x ∈ before, halts false x.2 = false) ∧
      (gatherSeeds seeds results).skipped = before.filterMap (fun x => refusal? x.2) ∧
      (rest = [] ∧ (gatherSeeds seeds results).outcome = .ok (before.foldl addKept seeds) ∨
        ∃ model fault later, rest = (model, .error (.broken fault)) :: later ∧
          (gatherSeeds seeds results).outcome = .error fault) := by
  induction results generalizing seeds with
  | nil => exact ⟨[], [], rfl, by simp, rfl, Or.inl ⟨rfl, rfl⟩⟩
  | cons result others ih =>
    match result with
    | (model, .ok records) =>
      obtain ⟨before, rest, split, goes, skipped, ends⟩ := ih (addSeeds seeds model records)
      exact ⟨(model, .ok records) :: before, rest, by rw [split]; rfl,
        List.forall_mem_cons.mpr ⟨rfl, goes⟩, skipped, ends⟩
    | (model, .error (.broken fault)) =>
      exact ⟨[], _, rfl, by simp, rfl, Or.inr ⟨model, fault, others, rfl, rfl⟩⟩
    | (model, .error (.refused e)) =>
      obtain ⟨before, rest, split, goes, skipped, ends⟩ := ih seeds
      exact ⟨(model, .error (.refused e)) :: before, rest, by rw [split]; rfl,
        List.forall_mem_cons.mpr ⟨rfl, goes⟩, congrArg (e :: ·) skipped, ends⟩

end Results

/-! ### Whole directories -/

/-- What a loading gets from a source. -/
def modelsIn (parsers : Parsers) (files : Files) (s : Source) : Except LoadFailure (List Model) :=
  s.models parsers (files.text s.path)

def recordsIn (parsers : Parsers) (files : Files) (s : String × Source) :
    String × Except LoadFailure (List Entries) :=
  (s.1, s.2.records parsers (files.text s.2.path))

section Loadings

variable {parsers : Parsers} {r : Repository} {files : Files}

theorem breaks_of_broken {s : Source} {fault : ParserFault}
    (broken : modelsIn parsers files s = .error (.broken fault)) : s.Breaks parsers :=
  Source.breaks_iff.mpr ⟨fault, Source.models_broken_iff.mp broken⟩

theorem halts_of_breaks {s : Source} (breaks : s.Breaks parsers) (strict : Bool) :
    halts strict (modelsIn parsers files s) = true := by
  obtain ⟨fault, read⟩ := Source.breaks_iff.mp breaks
  have broken : modelsIn parsers files s = .error (.broken fault) :=
    Source.models_broken_iff.mpr read
  rw [broken]
  rfl

theorem loadModels_run (parsers : Parsers) (r : Repository) (files : Files) :
    ∃ before rest, r.modelSources files = before ++ rest ∧
      (∀ s ∈ before, halts r.strict (modelsIn parsers files s) = false) ∧
      (r.loadModels parsers files).skipped =
        before.filterMap (fun s => refusal? (modelsIn parsers files s)) ∧
      (rest = [] ∧
          (r.loadModels parsers files).outcome =
            .ok (before.flatMap fun s => kept (modelsIn parsers files s)) ∨
        ∃ s failure later, rest = s :: later ∧ modelsIn parsers files s = .error failure ∧
          halts r.strict (modelsIn parsers files s) = true ∧
          (r.loadModels parsers files).outcome = .error failure) := by
  obtain ⟨before, rest, split, goes, skipped, ends⟩ :=
    gather_run r.strict ((r.modelSources files).map (modelsIn parsers files))
  obtain ⟨first, last, sources, rfl, rfl⟩ := List.map_eq_append_iff.mp split
  refine ⟨first, last, sources, fun s member => goes _ (List.mem_map_of_mem member), ?_, ?_⟩
  · rw [List.filterMap_map] at skipped
    exact skipped
  · rcases ends with ⟨done, outcome⟩ | ⟨failure, later, stop, halted, outcome⟩
    · rw [List.flatMap_map] at outcome
      exact Or.inl ⟨List.map_eq_nil_iff.mp done, outcome⟩
    · obtain ⟨s, others, rfl, failed, rfl⟩ := List.map_eq_cons_iff.mp stop
      exact Or.inr ⟨s, failure, others, rfl, failed, failed ▸ halted, outcome⟩

theorem loadSeeds_run (parsers : Parsers) (r : Repository) (files : Files) :
    ∃ before rest, r.seedSources files = before ++ rest ∧
      (∀ s ∈ before, ¬ s.2.Breaks parsers) ∧
      (r.loadSeeds parsers files).skipped =
        before.filterMap (fun s => refusal? (recordsIn parsers files s).2) ∧
      (rest = [] ∧
          (r.loadSeeds parsers files).outcome =
            .ok ((before.map (recordsIn parsers files)).foldl addKept []) ∨
        ∃ s fault later, rest = s :: later ∧ s.2.Breaks parsers ∧
          (r.loadSeeds parsers files).outcome = .error fault) := by
  obtain ⟨before, rest, split, goes, skipped, ends⟩ :=
    gatherSeeds_run [] ((r.seedSources files).map (recordsIn parsers files))
  obtain ⟨first, last, sources, rfl, rfl⟩ := List.map_eq_append_iff.mp split
  refine ⟨first, last, sources, fun s member breaks => ?_, ?_, ?_⟩
  · obtain ⟨fault, read⟩ := Source.breaks_iff.mp breaks
    have broken : (recordsIn parsers files s).2 = .error (.broken fault) :=
      Source.records_broken_iff.mpr read
    have goes := goes _ (List.mem_map_of_mem member)
    rw [broken] at goes
    cases goes
  · rw [List.filterMap_map] at skipped
    exact skipped
  · rcases ends with ⟨done, outcome⟩ | ⟨model, fault, later, stop, outcome⟩
    · exact Or.inl ⟨List.map_eq_nil_iff.mp done, outcome⟩
    · obtain ⟨s, others, rfl, failed, rfl⟩ := List.map_eq_cons_iff.mp stop
      have broken : (recordsIn parsers files s).2 = .error (.broken fault) :=
        congrArg Prod.snd failed
      exact Or.inr ⟨s, fault, others, rfl,
        Source.breaks_iff.mpr ⟨fault, Source.records_broken_iff.mp broken⟩, outcome⟩

theorem breaks_of_loadModels {fault : ParserFault}
    (broken : (r.loadModels parsers files).outcome = .error (.broken fault)) :
    ∃ s ∈ r.modelSources files, s.Breaks parsers := by
  obtain ⟨before, rest, sources, _, _, ends⟩ := loadModels_run parsers r files
  rcases ends with ⟨_, outcome⟩ | ⟨s, failure, later, rfl, failed, _, outcome⟩
  · rw [outcome] at broken
    cases broken
  · obtain rfl := Except.error.inj (outcome.symm.trans broken)
    exact ⟨s, by simp [sources], breaks_of_broken failed⟩

theorem breaks_of_loadSeeds {fault : ParserFault}
    (broken : (r.loadSeeds parsers files).outcome = .error fault) :
    ∃ s ∈ r.seedSources files, s.2.Breaks parsers := by
  obtain ⟨before, rest, sources, _, _, ends⟩ := loadSeeds_run parsers r files
  rcases ends with ⟨_, outcome⟩ | ⟨s, _, later, rfl, breaks, _⟩
  · rw [outcome] at broken
    cases broken
  · exact ⟨s, by simp [sources], breaks⟩

/-- The loading returns unless a source breaks, with the models of all sources that are not
refused, and tells of the others. -/
structure LoadsLeniently (parsers : Parsers) (r : Repository) (files : Files) : Prop where
  returns : (∃ models, (r.loadModels parsers files).outcome = .ok models) ↔
    ∀ s ∈ r.modelSources files, ¬ s.Breaks parsers
  unrefused : ∀ e, (r.loadModels parsers files).outcome ≠ .error (.refused e)
  models : ∀ models, (r.loadModels parsers files).outcome = .ok models →
    models = (r.modelSources files).flatMap fun s => kept (modelsIn parsers files s)
  skipped : ∀ models, (r.loadModels parsers files).outcome = .ok models →
    (r.loadModels parsers files).skipped =
      (r.modelSources files).filterMap fun s => refusal? (modelsIn parsers files s)

/-- The same of the records in seed sources. -/
structure LoadsSeeds (parsers : Parsers) (r : Repository) (files : Files) : Prop where
  returns : (∃ seeds, (r.loadSeeds parsers files).outcome = .ok seeds) ↔
    ∀ s ∈ r.seedSources files, ¬ s.2.Breaks parsers
  seeds : ∀ seeds, (r.loadSeeds parsers files).outcome = .ok seeds →
    seeds = ((r.seedSources files).map (recordsIn parsers files)).foldl addKept []
  skipped : ∀ seeds, (r.loadSeeds parsers files).outcome = .ok seeds →
    (r.loadSeeds parsers files).skipped =
      (r.seedSources files).filterMap fun s => refusal? (recordsIn parsers files s).2

/-- The loading fails for the first source without models, and this is no refusal where the
source breaks. -/
structure LoadsStrictly (parsers : Parsers) (r : Repository) (files : Files) : Prop where
  returns : (∃ models, (r.loadModels parsers files).outcome = .ok models) ↔
    ∀ s ∈ r.modelSources files, ∃ models, modelsIn parsers files s = .ok models
  fails : ∀ failure, (r.loadModels parsers files).outcome = .error failure →
    ∃ before s later, r.modelSources files = before ++ s :: later ∧
      (∀ b ∈ before, ∃ models, modelsIn parsers files b = .ok models) ∧
      modelsIn parsers files s = .error failure ∧
      ((∃ fault, failure = .broken fault) ↔ s.Breaks parsers)

theorem loadsLeniently (lenient : r.strict = false) : r.LoadsLeniently parsers files := by
  obtain ⟨before, rest, sources, goes, skipped, ends⟩ := loadModels_run parsers r files
  rw [lenient] at goes ends
  rcases ends with ⟨rfl, outcome⟩ | ⟨s, failure, later, rfl, failed, halted, outcome⟩
  · rw [List.append_nil] at sources
    subst sources
    have whole : ∀ s ∈ r.modelSources files, ¬ s.Breaks parsers := by
      intro s member breaks
      have goes := goes s member
      rw [halts_of_breaks breaks] at goes
      cases goes
    refine ⟨⟨fun _ => whole, fun _ => ⟨_, outcome⟩⟩, fun e refused => ?_, fun models loaded => ?_,
      fun _ _ => skipped⟩
    · rw [outcome] at refused
      cases refused
    · exact Except.ok.inj (loaded.symm.trans outcome)
  · cases failure with
    | refused e =>
      rw [failed] at halted
      cases halted
    | broken fault =>
      have breaks : s.Breaks parsers := breaks_of_broken failed
      have member : s ∈ r.modelSources files := by simp [sources]
      have never {models : List Model} : (r.loadModels parsers files).outcome ≠ .ok models := by
        simp [outcome]
      exact ⟨⟨fun ⟨_, loaded⟩ => absurd loaded never, fun whole => absurd breaks (whole s member)⟩,
        by simp [outcome], fun _ loaded => absurd loaded never, fun _ loaded => absurd loaded never⟩

theorem loadsSeeds (parsers : Parsers) (r : Repository) (files : Files) :
    r.LoadsSeeds parsers files := by
  obtain ⟨before, rest, sources, goes, skipped, ends⟩ := loadSeeds_run parsers r files
  rcases ends with ⟨rfl, outcome⟩ | ⟨s, fault, later, rfl, breaks, outcome⟩
  · rw [List.append_nil] at sources
    subst sources
    exact ⟨⟨fun _ => goes, fun _ => ⟨_, outcome⟩⟩,
      fun seeds loaded => Except.ok.inj (loaded.symm.trans outcome), fun _ _ => skipped⟩
  · have member : s ∈ r.seedSources files := by simp [sources]
    have never {seeds : Review.SeedData} : (r.loadSeeds parsers files).outcome ≠ .ok seeds := by
      simp [outcome]
    exact ⟨⟨fun ⟨_, loaded⟩ => absurd loaded never, fun whole => absurd breaks (whole s member)⟩,
      fun _ loaded => absurd loaded never, fun _ loaded => absurd loaded never⟩

theorem loadsStrictly (strict : r.strict = true) : r.LoadsStrictly parsers files := by
  have loaded {s : Source} (goes : halts true (modelsIn parsers files s) = false) :
      ∃ models, modelsIn parsers files s = .ok models := by
    cases found : modelsIn parsers files s with
    | ok models => exact ⟨models, rfl⟩
    | error failure =>
      rw [found] at goes
      cases failure <;> cases goes
  obtain ⟨before, rest, sources, goes, _, ends⟩ := loadModels_run parsers r files
  rw [strict] at goes
  rcases ends with ⟨rfl, outcome⟩ | ⟨s, failure, later, rfl, failed, _, outcome⟩
  · rw [List.append_nil] at sources
    subst sources
    refine ⟨⟨fun _ s member => loaded (goes s member), fun _ => ⟨_, outcome⟩⟩, fun _ failed => ?_⟩
    rw [outcome] at failed
    cases failed
  · refine ⟨⟨fun ⟨_, returned⟩ => ?_, fun whole => ?_⟩, fun other reached => ?_⟩
    · rw [outcome] at returned
      cases returned
    · obtain ⟨models, found⟩ := whole s (by simp [sources])
      rw [failed] at found
      cases found
    · obtain rfl := Except.error.inj (outcome.symm.trans reached)
      refine ⟨before, s, later, sources, fun b member => loaded (goes b member), failed, ?_, ?_⟩
      · rintro ⟨fault, rfl⟩
        exact breaks_of_broken failed
      · intro breaks
        obtain ⟨fault, read⟩ := Source.breaks_iff.mp breaks
        have broken : modelsIn parsers files s = .error (.broken fault) :=
          Source.models_broken_iff.mpr read
        exact ⟨fault, Except.error.inj (failed.symm.trans broken)⟩

end Loadings

/-- Only a source at which its parser breaks off keeps a lenient loading, or that of seeds, from
its end; a strict loading then fails in another way than by refusing a source. -/
theorem loading_returns_iff (parsers : Parsers) (r : Repository) (files : Files) :
    (r.strict = false → r.LoadsLeniently parsers files) ∧ r.LoadsSeeds parsers files ∧
      (r.strict = true → r.LoadsStrictly parsers files) :=
  ⟨loadsLeniently, loadsSeeds parsers r files, loadsStrictly⟩

end Repository

/-- A directory with one source, which has a number without digits. -/
def hollowNumber : Files where
  home := ""
  here := []
  entries := [(["models"], .directory), (["models", "Post.yaml"], .file "name: 0x_\n".toUTF8)]

def hollowRepository : Repository := ⟨⟨.here, ["models"]⟩, false⟩

theorem loading_returns_iff_hollowNumber :
    (hollowRepository.loadModels .standard hollowNumber).outcome = .error (.broken
      ⟨"ValueError", "invalid literal for int() with base 16: ''"⟩) ∧
      ∃ s ∈ hollowRepository.modelSources hollowNumber, s.Breaks .standard := by
  have failed : (match (hollowRepository.loadModels .standard hollowNumber).outcome with
      | .error failure => decide (failure = .broken
        ⟨"ValueError", "invalid literal for int() with base 16: ''"⟩)
      | .ok _ => false) = true := by decide +kernel
  cases outcome : (hollowRepository.loadModels .standard hollowNumber).outcome with
  | ok models =>
    rw [outcome] at failed
    cases failed
  | error failure =>
    rw [outcome] at failed
    obtain ⟨lenient, _⟩ :=
      Repository.loading_returns_iff .standard hollowRepository hollowNumber
    have some : ¬ ∀ s ∈ hollowRepository.modelSources hollowNumber, ¬ s.Breaks .standard := by
      refine mt (lenient rfl).returns.mpr fun ⟨models, returned⟩ => ?_
      rw [outcome] at returned
      cases returned
    exact ⟨congrArg _ (of_decide_eq_true failed), by simpa using some⟩

end ApiLoom
