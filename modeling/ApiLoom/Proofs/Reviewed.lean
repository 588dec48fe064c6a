import ApiLoom.Proofs.Generation

/-!
# Reviewed sets

What holds of a set of models in which the review finds no error: names are apart
from each other, from the types that every schema has and from the page types, a
relationship shadows no property, and the set compiles unless a limit is too long.
-/

namespace ApiLoom

namespace Review

variable {config : Config} {models : List Model} {seeds : SeedData}

/-- The review finds no error. -/
def Passes (config : Config) (models : List Model) (seeds : SeedData) : Prop :=
  (Report.ofFindings (all config models seeds)).isValid = true

theorem Passes.harmless (passes : Passes config models seeds) {f : Finding}
    (found : f ∈ modelNames models ∨ f ∈ relationships models) : f.level ≠ .error := by
  refine Report.isValid_ofFindings.mp passes f ?_
  simp only [all, allOfModels, List.mem_append]
  rcases found with named | related
  · simp [named]
  · simp [related]

/-- Names that were found harmless are new and no names of types that every schema has. -/
theorem namesFrom_harmless (seen : List String)
    (harmless : ∀ f ∈ namesFrom seen models, f.level ≠ .error) :
    (models.map (·.name)).Nodup ∧
      ∀ m ∈ models, m.name ∉ seen ∧ m.name ∉ reservedTypes := by
  induction models generalizing seen with
  | nil => simp
  | cons m rest ih =>
    have first : m.name ∉ seen ∧ m.name ∉ reservedTypes := by
      constructor
      · intro known
        have found : Finding.duplicateName m.name m.source ∈ namesFrom seen (m :: rest) := by
          simp [namesFrom, nameFindings, known]
        exact harmless _ found rfl
      · intro reserved
        have found : Finding.reservedName m.name m.source ∈ namesFrom seen (m :: rest) := by
          simp [namesFrom, nameFindings, reserved]
        exact harmless _ found rfl
    obtain ⟨apart, fresh⟩ :=
      ih (m.name :: seen) fun f found => harmless f (List.mem_append_right _ found)
    refine ⟨?_, ?_⟩
    · rw [List.map_cons, List.nodup_cons]
      refine ⟨fun known => ?_, apart⟩
      obtain ⟨n, member, same⟩ := List.mem_map.mp known
      exact (fresh n member).1 (same ▸ List.mem_cons_self)
    · intro n member
      rcases List.mem_cons.mp member with rfl | later
      · exact first
      · exact ⟨fun known => (fresh n later).1 (List.mem_cons_of_mem _ known), (fresh n later).2⟩

namespace Passes

theorem names (passes : Passes config models seeds) :
    (models.map (·.name)).Nodup ∧ ∀ m ∈ models, m.name ∉ reservedTypes := by
  obtain ⟨apart, fresh⟩ := namesFrom_harmless [] fun f found =>
    passes.harmless (Or.inl (List.mem_append_left _ found))
  exact ⟨apart, fun m member => (fresh m member).2⟩

theorem ne_connectionType (passes : Passes config models seeds) {m n : Model}
    (member : m ∈ models) (other : n ∈ models) : n.name ≠ Naming.connectionType m.name := by
  intro clash
  have known : (models.map (·.name)).contains (Naming.connectionType m.name) = true :=
    List.contains_iff_mem.mpr (clash ▸ List.mem_map_of_mem other)
  have found : Finding.connectionName m.name m.source ∈ modelNames models :=
    List.mem_append_right _ (List.mem_filterMap.mpr ⟨m, member, if_pos known⟩)
  exact passes.harmless (Or.inl found) rfl

theorem not_hasProperty (passes : Passes config models seeds) {m : Model} (member : m ∈ models)
    {r : String × Relationship} (related : r ∈ m.relationships) : m.hasProperty r.1 = false := by
  rw [Bool.eq_false_iff]
  intro shadowed
  have found : Finding.fieldConflict m.name r.1 ∈ relationships models := by
    refine List.mem_append_right _ (List.mem_flatMap.mpr ⟨m, member, ?_⟩)
    exact List.mem_flatMap.mpr ⟨r, related, List.mem_append_left _ (by simp [shadowed])⟩
  exact passes.harmless (Or.inr found) rfl

/-- A relationship leads to a model whose records are stored. -/
theorem target (passes : Passes config models seeds) {m : Model} (member : m ∈ models)
    {field : String} {r : Relationship} (related : (field, r) ∈ m.relationships) :
    ∃ t, modelNamed models r.target = some t ∧ t.engine.isStored = true := by
  cases found : modelNamed models r.target with
  | none =>
    exact absurd rfl (passes.harmless (Or.inr (brokenRelationship_found member related found)))
  | some t =>
    refine ⟨t, rfl, ?_⟩
    cases stored : t.engine.isStored with
    | true => rfl
    | false =>
      exact absurd rfl
        (passes.harmless (Or.inr (targetNotTraversable_found member related found stored)))

theorem identifier_declared (passes : Passes config models seeds) {m : Model}
    (member : m ∈ models) : m.hasProperty config.identifierField = true := by
  rw [← Bool.not_eq_false]
  intro missing
  have found : Finding.noIdentifier m.name config.identifierField ∈ identifiers config models :=
    List.mem_filterMap.mpr ⟨m, member, by simp [missing]⟩
  have listed : Finding.noIdentifier m.name config.identifierField ∈
      all config models seeds := by
    simp [all, allOfModels, found]
  exact Report.isValid_ofFindings.mp passes _ listed rfl

/-- A `belongsTo` finds its key on the model that declares it. -/
theorem key_on_source (passes : Passes config models seeds) {m : Model} (member : m ∈ models)
    {field : String} {r : Relationship} (related : (field, r) ∈ m.relationships)
    (belongs : r.kind = .belongsTo) : m.hasProperty (foreignKeyOf m r) = true := by
  rw [← Bool.not_eq_false]
  intro missing
  obtain ⟨t, found, _⟩ := passes.target member related
  have issue : relationshipIssue models m field r = some ⟨m.name, field,
      s!"Foreign key '{foreignKeyOf m r}' not found in model properties"⟩ := by
    simp [relationshipIssue, found, belongs, missing]
  have broken : ⟨m.name, field, _⟩ ∈ relationshipIssues models := List.mem_flatMap.mpr
    ⟨m, member, List.mem_filterMap.mpr ⟨(field, r), related, issue⟩⟩
  exact passes.harmless (Or.inr (List.mem_append_left _ (List.mem_map_of_mem broken))) rfl

/-- Any other relationship finds its key on its target. -/
theorem key_on_target (passes : Passes config models seeds) {m t : Model} (member : m ∈ models)
    {field : String} {r : Relationship} (related : (field, r) ∈ m.relationships)
    (indexed : r.kind.isIndexed = true) (found : modelNamed models r.target = some t) :
    t.hasProperty (foreignKeyOf m r) = true := by
  rw [← Bool.not_eq_false]
  intro missing
  obtain ⟨u, reached, stored⟩ := passes.target member related
  obtain rfl := Option.some.inj (found.symm.trans reached)
  have lost : Finding.keyNotOnTarget m.name field r.kind (foreignKeyOf m r) t.name ∈
      targetFindings models m field r := by
    simp [targetFindings, found, stored, indexed, missing]
  have listed : Finding.keyNotOnTarget m.name field r.kind (foreignKeyOf m r) t.name ∈
      relationships models := List.mem_append_right _ (List.mem_flatMap.mpr
    ⟨m, member, List.mem_flatMap.mpr ⟨_, related, List.mem_append_right _ lost⟩⟩)
  exact passes.harmless (Or.inr listed) rfl

/-- A hook names a function, unless it is empty. -/
theorem hook_reference (passes : Passes config models seeds) (member : m ∈ models)
    {phase : HookPhase} {operation : Operation} {function : String}
    (named : m.hooks.hookFor phase operation = some function) (filled : function ≠ "") :
    Text.isFunctionReference function = true := by
  rw [← Bool.not_eq_false]
  intro stray
  have slot : (phase, operation) ∈ Hooks.slots := by
    cases phase <;> cases operation <;> simp_all [Hooks.slots, Hooks.hookFor]
  have declared : ((phase, operation), function) ∈ m.hooks.declared :=
    List.mem_filterMap.mpr ⟨_, slot, by
      rw [nonEmpty_eq_some_iff.mpr ⟨named, filled⟩]
      rfl⟩
  have found : Finding.badHookFunction m.name (hookName phase operation) function ∈
      hooks models := by
    refine List.mem_flatMap.mpr ⟨m, member, List.mem_flatMap.mpr ⟨_, declared, ?_⟩⟩
    exact List.mem_append_left _ (by simp [stray])
  have listed : Finding.badHookFunction m.name (hookName phase operation) function ∈
      all config models seeds := by
    simp [all, allOfModels, found]
  exact absurd rfl (Report.isValid_ofFindings.mp passes _ listed)

/-- The key of a relationship is a property of one of the models. -/
theorem key_declared (passes : Passes config models seeds) (member : m ∈ models)
    {r : String × Relationship} (related : r ∈ m.relationships) :
    ∃ owner ∈ models, owner.hasProperty (foreignKeyOf m r.2) = true := by
  by_cases ours : r.2.kind = .belongsTo
  · exact ⟨m, member, passes.key_on_source member related ours⟩
  · have theirs : r.2.kind.isIndexed = true := by
      cases kind : r.2.kind <;> simp_all [RelationshipKind.isIndexed]
    obtain ⟨target, reached, _⟩ := passes.target member related
    exact ⟨target, (mem_of_modelNamed reached).1,
      passes.key_on_target member related theirs reached⟩

/-- Nothing is refused for a model of a set without errors. -/
theorem unrefused (passes : Passes config models seeds) :
    ∀ m ∈ models, ∀ e, m.compile config models ≠ .error (.refused e) := by
  intro m member e failed
  have refused := Ungenerable.reviewed (Model.compile_reason member failed) seeds
  rw [passes] at refused
  cases refused

/-- A set without errors compiles, unless it has a limit that cannot be written. -/
theorem builds (passes : Passes config models seeds) :
    Compilation.BreaksOff config models ∨ ∃ c, Compilation.build config models = .ok c :=
  Compilation.builds_of_unrefused passes.unrefused

theorem builds_of_written (passes : Passes config models seeds)
    (written : ∀ m ∈ models, ¬ m.HasLongLimit) : ∃ c, Compilation.build config models = .ok c :=
  passes.builds.resolve_left (Compilation.not_breaksOff written)

/-- A model whose records are stored compiles, whatever limits the others have. -/
theorem compiles (passes : Passes config models seeds) {m : Model} (member : m ∈ models)
    (stored : m.engine.isStored = true) : ∃ k, m.compile config models = .ok k := by
  cases compiled : m.compile config models with
  | ok k => exact ⟨k, rfl⟩
  | error failure =>
    cases failure with
    | refused e => exact absurd compiled (passes.unrefused m member e)
    | broken fault =>
      exact absurd (Model.compile_reason member compiled)
        (Model.not_hasLongLimit_of_isStored stored)

end Passes

end Review

end ApiLoom
