import ApiLoom.Proofs.Reviewed

/-!
# Seed records

Seeds are reviewed after the models and lead to warnings only.  What is compiled, or refused, is
the same with any seeds as without, unless a warning would have to show a number that is too
long to be written.
-/

namespace ApiLoom

namespace Review

variable {config : Config} {models : List Model} {seeds : SeedData} {m : Model}

/-! ### Warnings -/

theorem entryFindings_warn (model : String) (record : Nat) (e : Scalar × Value) :
    ∀ f ∈ entryFindings m model record e, f.level = .warning := by
  unfold entryFindings
  split
  · simp [Finding.level]
  · split <;> simp [Finding.level]

theorem recordFindings_warn (model : String) (index : Nat) (record : Entries) :
    ∀ f ∈ recordFindings config m model index record, f.level = .warning := by
  intro f found
  rcases List.mem_append.mp found with entry | missing
  · obtain ⟨e, _, found⟩ := List.mem_flatMap.mp entry
    exact entryFindings_warn model index e f found
  · obtain ⟨p, _, found⟩ := List.mem_filterMap.mp missing
    split at found
    · exact Option.some.inj found ▸ rfl
    · cases found

theorem recordsFrom_eq (model : String) (index : Nat) (records : List Entries) :
    recordsFrom config m model index records =
      (records.zipIdx index).flatMap fun r => recordFindings config m model r.2 r.1 := by
  induction records generalizing index with
  | nil => rfl
  | cons record rest ih => rw [recordsFrom, ih, List.zipIdx_cons, List.flatMap_cons]

/-- A finding of the seeds is that a model is unknown, or one of a record of a known model. -/
theorem mem_seedData_iff {f : Finding} : f ∈ seedData config models seeds ↔
    (∃ s ∈ seeds, modelNamed models s.1 = none ∧ f = .unknownSeedModel s.1) ∨
      ∃ s ∈ seeds, ∃ m, modelNamed models s.1 = some m ∧
        ∃ r ∈ s.2.zipIdx, f ∈ recordFindings config m s.1 r.2 r.1 := by
  rw [seedData, List.mem_flatMap]
  constructor
  · rintro ⟨s, listed, found⟩
    cases named : modelNamed models s.1 with
    | none => exact Or.inl ⟨s, listed, named, by simpa [named] using found⟩
    | some m =>
      simp only [named, recordsFrom_eq, List.mem_flatMap] at found
      exact Or.inr ⟨s, listed, m, named, found⟩
  · rintro (⟨s, listed, unknown, rfl⟩ | ⟨s, listed, m, known, found⟩)
    · exact ⟨s, listed, by simp [unknown]⟩
    · refine ⟨s, listed, ?_⟩
      simpa only [known, recordsFrom_eq, List.mem_flatMap] using found

theorem seedData_warn : ∀ f ∈ seedData config models seeds, f.level = .warning := by
  intro f found
  rcases mem_seedData_iff.mp found with ⟨_, _, _, rfl⟩ | ⟨s, _, m, _, r, _, found⟩
  · rfl
  · exact recordFindings_warn s.1 r.2 r.1 f found

/-! ### Numbers that are too long -/

/-- The message on an entry of a record would show a number that is too long: as a key that no
property has, or in a value that is not of the kind of its property. -/
inductive Untellable (m : Model) (e : Scalar × Value) : Prop where
  | key (unknown : propertyAt m e.1 = none) (long : e.1.isWritable = false)
  | value {p : Property} (known : propertyAt m e.1 = some p) (filled : isNull e.2 = false)
      (mismatched : matchesKind e.2 p.kind = false) (long : e.2.isWritable = false)

/-- A record of a model of the set has such an entry. -/
def SeedsUntellable (models : List Model) (seeds : SeedData) : Prop :=
  ∃ s ∈ seeds, ∃ m, modelNamed models s.1 = some m ∧
    ∃ record ∈ s.2, ∃ e ∈ record, Untellable m e

/-- Only a text is the name of a property. -/
theorem propertyAt_isWritable {key : Scalar} {p : Property} (known : propertyAt m key = some p) :
    key.isWritable = true := by
  cases key with
  | text s => rfl
  | _ => simp [propertyAt] at known

theorem entryFindings_untellable_iff (model : String) (record : Nat) (e : Scalar × Value) :
    (∃ f ∈ entryFindings m model record e, f.isWritable = false) ↔ Untellable m e := by
  unfold entryFindings
  cases named : propertyAt m e.1 with
  | none =>
    simp only [List.mem_singleton, exists_eq_left, Finding.isWritable]
    refine ⟨fun long => .key named long, fun untellable => ?_⟩
    cases untellable with
    | key _ long => exact long
    | value known _ _ _ => cases named.symm.trans known
  | some p =>
    have key := propertyAt_isWritable named
    dsimp only
    constructor
    · rintro ⟨f, found, long⟩
      split at found
      · next mismatched =>
        obtain rfl := List.mem_singleton.mp found
        simp only [Bool.and_eq_true, Bool.not_eq_true'] at mismatched
        simp only [Finding.isWritable, key, Bool.true_and] at long
        exact .value named mismatched.1 mismatched.2 long
      · cases found
    · rintro (⟨unknown, _⟩ | ⟨known, filled, mismatched, long⟩)
      · cases named.symm.trans unknown
      · obtain rfl := Option.some.inj (named.symm.trans known)
        exact ⟨.seedMismatch model record e.1 p.kind e.2, by simp [filled, mismatched],
          by simp [Finding.isWritable, long]⟩

theorem recordFindings_untellable_iff (model : String) (index : Nat) (record : Entries) :
    (∃ f ∈ recordFindings config m model index record, f.isWritable = false) ↔
      ∃ e ∈ record, Untellable m e := by
  constructor
  · rintro ⟨f, found, long⟩
    rcases List.mem_append.mp found with entry | missing
    · obtain ⟨e, listed, found⟩ := List.mem_flatMap.mp entry
      exact ⟨e, listed, (entryFindings_untellable_iff model index e).mp ⟨f, found, long⟩⟩
    · obtain ⟨p, _, found⟩ := List.mem_filterMap.mp missing
      split at found
      · obtain rfl := Option.some.inj found
        cases long
      · cases found
  · rintro ⟨e, listed, untellable⟩
    obtain ⟨f, found, long⟩ := (entryFindings_untellable_iff model index e).mpr untellable
    exact ⟨f, List.mem_append_left _ (List.mem_flatMap.mpr ⟨e, listed, found⟩), long⟩

theorem seedData_untellable_iff :
    (∃ f ∈ seedData config models seeds, f.isWritable = false) ↔ SeedsUntellable models seeds := by
  constructor
  · rintro ⟨f, found, long⟩
    rcases mem_seedData_iff.mp found with ⟨_, _, _, rfl⟩ | ⟨s, listed, m, known, r, member, found⟩
    · cases long
    · have entry := (recordFindings_untellable_iff s.1 r.2 r.1).mp ⟨f, found, long⟩
      exact ⟨s, listed, m, known, r.1, List.fst_mem_of_mem_zipIdx member, entry⟩
  · rintro ⟨s, listed, m, known, record, member, entry⟩
    obtain ⟨i, bound, rfl⟩ := List.getElem_of_mem member
    have placed : (s.2[i], i) ∈ s.2.zipIdx := List.mk_mem_zipIdx_iff_getElem?.mpr (by simp [bound])
    obtain ⟨f, found, long⟩ :
        ∃ f ∈ recordFindings config m s.1 i s.2[i], f.isWritable = false :=
      (recordFindings_untellable_iff s.1 i s.2[i]).mpr entry
    exact ⟨f, mem_seedData_iff.mpr (.inr ⟨s, listed, m, known, _, placed, found⟩), long⟩

/-! ### Reports -/

theorem ofFindings_append (first second : List Finding) :
    Report.ofFindings (first ++ second) =
      (Report.ofFindings first).merge (Report.ofFindings second) := by
  simp [Report.ofFindings, Report.merge]

theorem all_nil : all config models [] = allOfModels config models :=
  List.append_nil _

/-- The issues of the seeds. -/
def seedReport (config : Config) (models : List Model) (seeds : SeedData) : Report :=
  .ofFindings (seedData config models seeds)

theorem seedReport_warns : ∀ i ∈ (seedReport config models seeds).issues, i.level = .warning := by
  intro i listed
  obtain ⟨f, found, rfl⟩ := List.mem_map.mp listed
  exact seedData_warn f found

theorem ofFindings_all (config : Config) (models : List Model) (seeds : SeedData) :
    Report.ofFindings (all config models seeds) =
      (Report.ofFindings (all config models [])).merge (seedReport config models seeds) := by
  rw [all_nil, all, ofFindings_append, seedReport]

theorem errors_all (config : Config) (models : List Model) (seeds : SeedData) :
    (Report.ofFindings (all config models seeds)).errors =
      (Report.ofFindings (all config models [])).errors := by
  have none : (seedReport config models seeds).ofLevel .error = [] := by
    simp only [Report.ofLevel, List.filter_eq_nil_iff, decide_eq_true_eq]
    intro i listed
    rw [seedReport_warns i listed]
    decide
  rw [ofFindings_all, Report.errors, Report.ofLevel_merge, none, List.append_nil, Report.errors]

/-- What the models are told of is told with seeds too, unless a seed cannot be told of. -/
theorem report_seeds {without : Report} (told : report config models [] = .ok without)
    (tellable : ¬ SeedsUntellable models seeds) :
    report config models seeds = .ok (without.merge (seedReport config models seeds)) := by
  obtain ⟨writable, rfl⟩ := Report.written_eq_ok_iff.mp told
  refine Report.written_eq_ok_iff.mpr ⟨fun f found => ?_, (ofFindings_all config models seeds).symm⟩
  rcases List.mem_append.mp found with modelled | seeded
  · exact writable f (all_nil ▸ modelled)
  · refine (Bool.eq_false_or_eq_true _).resolve_right fun long => tellable ?_
    exact seedData_untellable_iff.mp ⟨f, seeded, long⟩

theorem report_untellable (untellable : SeedsUntellable models seeds) :
    report config models seeds = .error .longNumber := by
  obtain ⟨f, found, long⟩ : ∃ f ∈ seedData config models seeds, f.isWritable = false :=
    seedData_untellable_iff.mpr untellable
  exact Report.written_eq_error_iff.mpr ⟨f, List.mem_append_right _ found, long⟩

theorem report_error {fault : MessageFault} (failed : report config models [] = .error fault) :
    report config models seeds = .error fault := by
  obtain ⟨f, found, long⟩ := Report.written_eq_error_iff.mp failed
  rw [all_nil] at found
  exact Report.written_eq_error_iff.mpr ⟨f, List.mem_append_left _ found, long⟩

end Review

/-! ### Compilations -/

namespace Compilation

open Review (SeedData SeedsUntellable report seedReport)

variable {config : Config} {models : List Model} {seeds : SeedData}

/-- The same compilation, refusals for the same errors, or a generation that breaks off. -/
inductive SameOutcome : Except MessageFault (Except CompilationError Compilation) →
    Except MessageFault (Except CompilationError Compilation) → Prop where
  | compiled (c : Compilation) : SameOutcome (.ok (.ok c)) (.ok (.ok c))
  | refused {r s : Report} (errors : r.errors = s.errors) :
      SameOutcome (.ok (.error (.invalid r))) (.ok (.error (.invalid s)))
  | broken (fault : MessageFault) : SameOutcome (.error fault) (.error fault)

theorem attempt_seeds {without reviewed : Report} (told : report config models [] = .ok without)
    (reported : report config models seeds = .ok reviewed) :
    SameOutcome (attempt config models []) (attempt config models seeds) := by
  obtain rfl := (Report.written_eq_ok_iff.mp told).2
  obtain rfl := (Report.written_eq_ok_iff.mp reported).2
  have errors := Review.errors_all config models seeds
  have valid : (Report.ofFindings (Review.all config models seeds)).isValid =
      (Report.ofFindings (Review.all config models [])).isValid := by
    rw [Report.isValid, Report.isValid, errors]
  simp only [attempt, told, reported, bind, Except.bind, valid]
  split
  · next accepted =>
    have passes : Review.Passes config models [] := accepted
    rcases passes.builds with off | ⟨c, built⟩
    · rw [off.broken]
      exact .broken _
    · rw [built]
      exact .compiled c
  · exact .refused errors.symm

theorem attempt_error {fault : MessageFault} (failed : report config models seeds = .error fault) :
    attempt config models seeds = .error fault := by
  rw [attempt, failed]
  rfl

/-- The seeds add warnings to what is reported without them, and nothing else is different. -/
structure SeedsInert (config : Config) (models : List Model) (seeds : SeedData)
    (without : Report) : Prop where
  review : ∃ warnings : Report, (∀ i ∈ warnings.issues, i.level = .warning) ∧
    report config models seeds = .ok (without.merge warnings)
  outcome : SameOutcome (attempt config models []) (attempt config models seeds)

/-- Seeds lead to warnings and change nothing that is compiled or refused, except where a warning
would have to show a number that is too long: then neither a report nor a compilation is left. -/
theorem seeds_inert_iff (config : Config) (models : List Model) (seeds : SeedData) :
    (∀ fault, report config models [] = .error fault →
      report config models seeds = .error fault ∧ attempt config models [] = .error fault ∧
        attempt config models seeds = .error fault) ∧
    ∀ without, report config models [] = .ok without →
      (SeedsInert config models seeds without ↔ ¬ SeedsUntellable models seeds) ∧
      (SeedsUntellable models seeds → report config models seeds = .error .longNumber ∧
        attempt config models seeds = .error .longNumber) := by
  refine ⟨fun fault failed => ?_, fun without told =>
    ⟨⟨fun inert untellable => ?_, fun tellable => ?_⟩, fun untellable => ?_⟩⟩
  · have also : report config models seeds = .error fault := Review.report_error failed
    exact ⟨also, attempt_error failed, attempt_error also⟩
  · obtain ⟨warnings, _, reported⟩ := inert.review
    rw [Review.report_untellable untellable] at reported
    cases reported
  · have reported := Review.report_seeds told tellable
    exact ⟨⟨_, Review.seedReport_warns, reported⟩, attempt_seeds told reported⟩
  · have failed : report config models seeds = .error .longNumber :=
      Review.report_untellable untellable
    exact ⟨failed, attempt_error failed⟩

end Compilation

def titledPost : Value := .object [
  ("name", .text "Post"),
  ("properties", .object [("id", .object [("type", .text "ID")]),
    ("title", .object [("type", .text "String")])]),
  ("dataSource", .object [("type", .text "database"), ("engine", .text "nosql")])]

/-- The least number that is too long, where a text should be. -/
def numberedPost : Review.SeedData :=
  [("Post", [[(.text "id", .text "p1"), (.text "title", .int (Number.tenTo Json.longestNumber))]])]

/-- Without its seed the model is compiled, and with it not. -/
theorem seeds_inert_iff_numberedPost :
    ∃ m, Model.decode titledPost = .ok m ∧
      (∃ c, Compilation.attempt .default [m] [] = .ok (.ok c)) ∧
      Compilation.attempt .default [m] numberedPost = .error .longNumber := by
  obtain ⟨m, read, named, property, harmless, told, written⟩ : ∃ m,
      Model.decode titledPost = .ok m ∧ modelNamed [m] "Post" = some m ∧
      (∃ p, m.property? "title" = some p ∧ p.kind = .text) ∧
      (∀ f ∈ Review.all .default [m] [], f.level ≠ .error) ∧
      (Review.all .default [m] []).all Finding.isWritable = true ∧ ∀ x ∈ [m], ¬ x.HasLongLimit :=
    ⟨_, rfl, rfl, ⟨_, rfl, rfl⟩, by decide +kernel, by decide +kernel, by decide +kernel⟩
  obtain ⟨p, found, kind⟩ := property
  have long : (Scalar.int (Number.tenTo Json.longestNumber)).isWritable = false := by decide +kernel
  have untellable : Review.SeedsUntellable [m] numberedPost := by
    refine ⟨_, List.mem_singleton_self _, m, named, _, List.mem_singleton_self _,
      _, List.mem_cons_of_mem _ List.mem_cons_self, .value found rfl ?_ long⟩
    rw [kind]
    rfl
  have without : Review.report .default [m] [] = .ok (.ofFindings (Review.all .default [m] [])) :=
    Report.written_eq_ok_iff.mpr ⟨List.all_eq_true.mp told, rfl⟩
  have passes : Review.Passes .default [m] [] := Report.isValid_ofFindings.mpr harmless
  obtain ⟨c, built⟩ := passes.builds_of_written written
  have compiled : Compilation.attempt .default [m] [] = .ok (.ok c) := by
    simp only [Compilation.attempt, without, bind, Except.bind,
      show (Report.ofFindings _).isValid = true from passes, built]
    rfl
  have inert := (Compilation.seeds_inert_iff .default [m] numberedPost).2 _ without
  exact ⟨m, read, ⟨c, compiled⟩, (inert.2 untellable).2⟩

end ApiLoom
