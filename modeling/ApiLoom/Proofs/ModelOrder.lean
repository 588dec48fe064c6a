import ApiLoom.Proofs.Artifacts
import ApiLoom.Proofs.SchemaNames
import ApiLoom.Proofs.Sorting

/-!
# The order of the models

The models of a set come in the order in which their files are found.  Of what is generated
for a reviewed set whose root names are apart and whose clusters agree, only the order of
index entries tells in which.
-/

namespace ApiLoom

/-! ### Lists in another order -/

section Lists

variable {α : Type}

theorem nodup_eraseDups [DecidableEq α] (xs : List α) : xs.eraseDups.Nodup := by
  cases xs with
  | nil => exact List.nodup_nil
  | cons x rest =>
    rw [List.eraseDups_cons, List.nodup_cons]
    refine ⟨by simp [List.mem_eraseDups], nodup_eraseDups _⟩
termination_by xs.length
decreasing_by
  have shorter := List.length_filter_le (fun y => !y == x) rest
  rw [List.length_cons]
  omega

theorem perm_eraseDups [DecidableEq α] {xs ys : List α} (order : xs.Perm ys) :
    xs.eraseDups.Perm ys.eraseDups := by
  refine (List.perm_ext_iff_of_nodup (nodup_eraseDups xs) (nodup_eraseDups ys)).mpr fun x => ?_
  rw [List.mem_eraseDups, List.mem_eraseDups, order.mem_iff]

variable {β ε : Type} {f : α → Except ε β}

theorem mapM_ok_of_forall {g : α → β} {xs : List α} (each : ∀ x ∈ xs, f x = .ok (g x)) :
    xs.mapM f = .ok (xs.map g) := by
  induction xs with
  | nil => rfl
  | cons x rest ih =>
    rw [List.mapM_cons, each x List.mem_cons_self,
      ih fun y member => each y (List.mem_cons_of_mem _ member)]
    rfl

theorem exists_map_of_mapM_ok [Inhabited β] {xs : List α} {ys : List β}
    (run : xs.mapM f = .ok ys) : ∃ g : α → β, (∀ x ∈ xs, f x = .ok (g x)) ∧ ys = xs.map g := by
  have given : ∀ x, ∃ y, x ∈ xs → f x = .ok y := by
    intro x
    by_cases member : x ∈ xs
    · obtain ⟨y, _, result⟩ := exists_of_mapM_ok run x member
      exact ⟨y, fun _ => result⟩
    · exact ⟨default, fun listed => absurd listed member⟩
  obtain ⟨g, each⟩ := Classical.axiomOfChoice given
  exact ⟨g, each, Except.ok.inj (run.symm.trans (mapM_ok_of_forall each))⟩

end Lists

/-! ### What a model knows of the others -/

section Others

variable {models others : List Model}

theorem modelNamed_eq_some_iff (names : (models.map (·.name)).Nodup) {name : String} {m : Model} :
    modelNamed models name = some m ↔ m ∈ models ∧ m.name = name := by
  refine ⟨mem_of_modelNamed, fun ⟨member, named⟩ => ?_⟩
  cases found : modelNamed models name with
  | none => exact absurd named (modelNamed_eq_none_iff.mp found m member)
  | some n =>
    obtain ⟨listed, same⟩ := mem_of_modelNamed found
    rw [List.inj_on_of_nodup_map names listed member (same.trans named.symm)]

theorem modelNamed_perm (names : (models.map (·.name)).Nodup) (order : models.Perm others) :
    modelNamed models = modelNamed others := by
  have also : (others.map (·.name)).Nodup := (order.map _).nodup_iff.mp names
  funext name
  refine Option.ext fun m => ?_
  rw [modelNamed_eq_some_iff names, modelNamed_eq_some_iff also, order.mem_iff]

/-- All clusters that models declare are one. -/
def ClustersAgree (models : List Model) : Prop :=
  ∀ m ∈ models, ∀ n ∈ models, ∀ c ∈ m.dataSource.cluster?, ∀ d ∈ n.dataSource.cluster?, c = d

theorem sharedCluster_perm (config : Config) (agree : ClustersAgree models)
    (order : models.Perm others) : sharedCluster models config = sharedCluster others config := by
  have same : (models.findSome? fun m => m.dataSource.cluster?) =
      others.findSome? fun m => m.dataSource.cluster? := by
    cases first : models.findSome? fun m => m.dataSource.cluster? with
    | none =>
      refine (List.findSome?_eq_none_iff.mpr fun m member => ?_).symm
      exact List.findSome?_eq_none_iff.mp first m (order.mem_iff.mpr member)
    | some c =>
      obtain ⟨m, member, declared⟩ := List.exists_of_findSome?_eq_some first
      cases second : others.findSome? fun m => m.dataSource.cluster? with
      | none =>
        have absent := List.findSome?_eq_none_iff.mp second m (order.mem_iff.mp member)
        rw [declared] at absent
        cases absent
      | some d =>
        obtain ⟨n, listed, also⟩ := List.exists_of_findSome?_eq_some second
        rw [agree m member n (order.mem_iff.mpr listed) c declared d also]
  rw [sharedCluster, sharedCluster, same]

theorem sharedResolvers_perm (order : models.Perm others) :
    sharedResolvers models = sharedResolvers others := by
  rw [sharedResolvers, sharedResolvers, order.any_eq]

end Others

/-! ### One model -/

namespace Model

variable {m : Model} {config : Config}

/-- The indexes that a model needs show in nothing else that is generated for it. -/
theorem compileWith_indexes {cluster : Option Cluster} {lookup : String → Option Model}
    {indexes : List SecondaryIndex} {k : CompiledModel}
    (compiled : m.compileWith config cluster lookup indexes = .ok k) (other : List SecondaryIndex) :
    m.compileWith config cluster lookup other = .ok { k with indexes := other } := by
  unfold compileWith at compiled ⊢
  cases resolved : RootField.all.mapM fun field => m.resolver config cluster field with
  | error e => simp [resolved, bind, Except.bind] at compiled
  | ok resolvers =>
    cases related : m.traversals config cluster lookup with
    | error e => simp [resolved, related, bind, Except.bind] at compiled
    | ok traversals =>
      simp only [resolved, related, bind, Except.bind, pure, Except.pure, Except.ok.injEq]
        at compiled ⊢
      rw [← compiled]

theorem compile_perm {models others : List Model} (names : (models.map (·.name)).Nodup)
    (agree : ClustersAgree models) (order : models.Perm others) {k : CompiledModel}
    (compiled : m.compile config models = .ok k) :
    m.compile config others = .ok { k with indexes := planIndexes others m.name } := by
  unfold compile at compiled ⊢
  rw [← sharedCluster_perm config agree order, ← modelNamed_perm names order]
  exact compileWith_indexes compiled _

end Model

/-! ### Indexes -/

theorem planIndexes_perm {models others : List Model} (order : models.Perm others)
    (name : String) : (planIndexes models name).Perm (planIndexes others name) := by
  unfold planIndexes indexedKeys
  exact (perm_eraseDups (order.flatMap_right _)).map _

/-- The same models, and for each the same indexes in some order. -/
def SameIndexes (p q : List (String × List SecondaryIndex)) : Prop :=
  (p.map (·.1)).Perm (q.map (·.1)) ∧
    ∀ name first second, (name, first) ∈ p → (name, second) ∈ q → first.Perm second

theorem indexPlan_perm {models others : List Model} (order : models.Perm others) :
    SameIndexes (indexPlan models) (indexPlan others) := by
  have planned {models : List Model} {name : String} {indexes : List SecondaryIndex}
      (member : (name, indexes) ∈ indexPlan models) : indexes = planIndexes models name := by
    obtain ⟨other, _, same⟩ := List.mem_map.mp member
    obtain ⟨rfl, rfl⟩ := Prod.mk.inj same
    rfl
  constructor
  · have keys (models : List Model) :
        (indexPlan models).map (·.1) = (models.map (·.name)).eraseDups := by
      simp [indexPlan, Function.comp_def]
    rw [keys, keys]
    exact perm_eraseDups (order.map _)
  · intro name first second own other
    rw [planned own, planned other]
    exact planIndexes_perm order name

/-! ### The set -/

namespace Compilation

variable {config : Config} {models others : List Model} {c d : Compilation}

theorem build_indexPlan (built : build config models = .ok c) :
    c.indexPlan = ApiLoom.indexPlan models := by
  unfold build at built
  cases compiled : models.mapM fun m => m.compile config models with
  | error e => simp [compiled, bind, Except.bind] at built
  | ok all =>
    simp only [compiled, bind, Except.bind, pure, Except.pure, Except.ok.injEq] at built
    rw [← built]

theorem build_perm (names : (models.map (·.name)).Nodup) (agree : ClustersAgree models)
    (order : models.Perm others) (built : build config models = .ok c) :
    ∃ d, build config others = .ok d ∧ c.shared = d.shared ∧ c.exchanges.Perm d.exchanges ∧
      (c.models.flatMap Descriptor.ofModel).Perm (d.models.flatMap Descriptor.ofModel) := by
  obtain ⟨compiled, shared⟩ := build_ok built
  obtain ⟨g, each, same⟩ := exists_map_of_mapM_ok compiled
  have also : others.mapM (fun m => m.compile config others) =
      .ok (others.map fun m => { g m with indexes := planIndexes others m.name }) :=
    mapM_ok_of_forall fun m member =>
      Model.compile_perm names agree order (each m (order.mem_iff.mpr member))
  obtain ⟨d, other⟩ : ∃ d, build config others = .ok d := by
    unfold build
    rw [also]
    exact ⟨_, rfl⟩
  obtain ⟨listed, joined⟩ := build_ok other
  have models' : d.models = others.map fun m => { g m with indexes := planIndexes others m.name } :=
    Except.ok.inj (listed.symm.trans also)
  refine ⟨d, other, ?_, ?_, ?_⟩
  · rw [shared, joined, sharedResolvers_perm order]
  · rw [exchanges, exchanges, shared, joined, sharedResolvers_perm order, same, models',
      List.flatMap_map, List.flatMap_map]
    exact (order.flatMap_right _).append_right _
  · rw [same, models', List.flatMap_map, List.flatMap_map]
    exact order.flatMap_right _

/-- Whether generation breaks off does not depend on the order. -/
theorem BreaksOff.perm (off : BreaksOff config models)
    (unrefused : ∀ m ∈ models, ∀ e, m.compile config models ≠ .error (.refused e))
    (names : (models.map (·.name)).Nodup) (agree : ClustersAgree models)
    (order : models.Perm others) : BreaksOff config others := by
  have goes : ∀ m ∈ others, ∀ e, m.compile config others ≠ .error (.refused e) := by
    intro m member e refused
    cases compiled : m.compile config models with
    | ok k =>
      rw [Model.compile_perm names agree order compiled] at refused
      cases refused
    | error failure =>
      have listed := order.mem_iff.mpr member
      cases failure with
      | refused other => exact unrefused m listed other compiled
      | broken fault =>
        have long : m.HasLongLimit := Model.compile_reason listed compiled
        rw [Model.compile_of_longLimit long] at refused
        cases refused
  refine (builds_of_unrefused goes).resolve_right fun ⟨d, built⟩ => ?_
  obtain ⟨m, member, long⟩ := off.long
  obtain ⟨k, _, compiled⟩ := exists_of_mapM_ok (build_ok built).1 m (order.mem_iff.mp member)
  rw [Model.compile_of_longLimit long] at compiled
  cases compiled

/-- No two templates of a reviewed set have one path where its root names are apart. -/
theorem templatePaths_apart {seeds : Review.SeedData} (read : ∀ m ∈ models, m.IsRead)
    (passes : Review.Passes config models seeds) (apart : RootNamesApart models)
    (built : build config models = .ok c) : c.templatePaths.Nodup := by
  obtain ⟨names, unreserved⟩ := passes.names
  rw [templatePaths_nodup, (exchangePaths_perm built).nodup_iff]
  refine (slots_paths_nodup names (fun m member => (read m member).relationships_nodup)
    unreserved fun m member => ?_).mpr apart
  exact (Text.isWord_of_isIdentifier (read m member).isDecoded.parts.1).undotted

/-- Nor have two resolvers one place. -/
theorem places_apart {seeds : Review.SeedData} (read : ∀ m ∈ models, m.IsRead)
    (passes : Review.Passes config models seeds) (apart : RootNamesApart models)
    (built : build config models = .ok c) : c.places.Nodup := by
  obtain ⟨names, unreserved⟩ := passes.names
  have fields := apiFields_nodup names fun m member => (read m member).relationships_nodup
  rw [build_places built]
  exact (List.nodup_map_iff_inj_on fields).mpr fun x first y second =>
    place_injective unreserved apart first second

theorem schema_perm (names : (models.map (·.name)).Nodup) (order : models.Perm others) :
    Schema.document config models = Schema.document config others := by
  rw [Schema.document, Schema.sortedModels, mergeSort_key_eq_of_perm (·.name) order names]
  rfl

end Compilation

/-! ### Descriptors -/

namespace Descriptor

def place (d : Descriptor) : FieldPlace := (d.typeName, d.fieldName)

theorem before_iff {a b : Descriptor} : a.before b = true ↔
    a.typeName < b.typeName ∨ a.typeName = b.typeName ∧ a.fieldName ≤ b.fieldName := by
  simp [before]

theorem before_trans (a b c : Descriptor) (first : a.before b = true) (second : b.before c = true) :
    a.before c = true := by
  rw [before_iff] at *
  rcases first with less | ⟨same, le⟩
  · rcases second with also | ⟨also, _⟩
    · exact Or.inl (String.lt_trans less also)
    · exact Or.inl (also ▸ less)
  · rcases second with less | ⟨also, more⟩
    · exact Or.inl (same ▸ less)
    · exact Or.inr ⟨same.trans also, String.le_trans le more⟩

theorem before_total (a b : Descriptor) : (a.before b || b.before a) = true := by
  rw [Bool.or_eq_true, before_iff, before_iff]
  by_cases types : a.typeName = b.typeName
  · rcases String.le_total a.fieldName b.fieldName with le | le
    · exact Or.inl (Or.inr ⟨types, le⟩)
    · exact Or.inr (Or.inr ⟨types.symm, le⟩)
  · rcases String.le_total a.typeName b.typeName with le | le
    · exact Or.inl (Or.inl (Std.lt_of_le_of_ne le types))
    · exact Or.inr (Or.inl (Std.lt_of_le_of_ne le (Ne.symm types)))

/-- Only descriptors of one place are tied. -/
theorem place_eq_of_before {a b : Descriptor} (first : a.before b = true)
    (second : b.before a = true) : a.place = b.place := by
  rw [before_iff] at first second
  rcases first with less | ⟨same, le⟩
  · rcases second with more | ⟨same, _⟩
    · exact absurd (String.lt_trans less more) (String.lt_irrefl _)
    · exact absurd (same ▸ less) (String.lt_irrefl _)
  · rcases second with more | ⟨_, ge⟩
    · exact absurd (same ▸ more) (String.lt_irrefl _)
    · exact Prod.ext same (String.le_antisymm le ge)

theorem ofModel_places (k : CompiledModel) : (ofModel k).map place = k.places := by
  rw [ofModel, CompiledModel.places, List.map_append, List.map_append, List.map_map,
    List.map_map, List.map_map]
  rfl

end Descriptor

namespace Compilation

variable {config : Config} {models others : List Model} {c d : Compilation}

/-- The descriptors before they are sorted. -/
def unsorted (c : Compilation) : List Descriptor :=
  c.models.flatMap Descriptor.ofModel ++ c.shared.map Descriptor.ofSide

theorem unsorted_places (c : Compilation) : c.unsorted.map Descriptor.place = c.places := by
  rw [unsorted, List.map_append, List.map_flatMap, List.map_map, places]
  simp only [Descriptor.ofModel_places]
  rfl

theorem descriptors_eq_of_perm (apart : c.places.Nodup) (order : c.unsorted.Perm d.unsorted) :
    c.descriptors = d.descriptors := by
  rw [← unsorted_places] at apart
  exact mergeSort_eq_of_perm Descriptor.before_trans Descriptor.before_total order
    fun a first b second below above => List.inj_on_of_nodup_map apart first second
      (Descriptor.place_eq_of_before below above)

theorem templateArtifacts_perm (same : c.config = d.config) (order : c.exchanges.Perm d.exchanges) :
    c.templateArtifacts.Perm d.templateArtifacts := by
  rw [templateArtifacts, templateArtifacts, same]
  exact order.flatMap_right _

/-- The artifacts stand in the order of their paths. -/
theorem artifacts_paths_sorted (c : Compilation) :
    (c.artifacts.map (·.path)).Pairwise (· ≤ ·) := by
  rw [List.pairwise_map]
  exact mergeSort_key_sorted Artifact.path _

theorem templatePaths_perm (order : c.templateArtifacts.Perm d.templateArtifacts) :
    c.templatePaths.Perm d.templatePaths := order.map _

theorem artifacts_paths_eq (order : c.templateArtifacts.Perm d.templateArtifacts)
    (apart : c.templatePaths.Nodup) :
    c.artifacts.map (·.path) = d.artifacts.map (·.path) := by
  have templates := templatePaths_perm order
  have paths : (c.candidates.map (·.path)).Perm (d.candidates.map (·.path)) := by
    rw [candidates_paths, candidates_paths]
    exact (templates.cons _).append_right _
  have own := (artifacts_perm_candidates apart).map (·.path)
  have other := (artifacts_perm_candidates (templates.nodup_iff.mp apart)).map (·.path)
  exact List.Perm.eq_of_pairwise (fun _ _ _ _ => String.le_antisymm) c.artifacts_paths_sorted
    d.artifacts_paths_sorted (own.trans (paths.trans other.symm))

/-- Where only the indexes differ, only the artifact of the indexes does. -/
theorem mem_artifacts_iff (schema : c.schema = d.schema)
    (templates : c.templateArtifacts.Perm d.templateArtifacts)
    (descriptors : c.descriptors = d.descriptors) (apart : c.templatePaths.Nodup) {a : Artifact}
    (other : a.path ≠ indexesPath) : a ∈ c.artifacts ↔ a ∈ d.artifacts := by
  have also := (templatePaths_perm templates).nodup_iff.mp apart
  have differs (c : Compilation) : a ≠ c.indexesArtifact := fun same => other (same ▸ rfl)
  rw [(artifacts_perm_candidates apart).mem_iff, (artifacts_perm_candidates also).mem_iff,
    candidates, candidates]
  simp only [List.cons_append, List.mem_cons, List.mem_append, List.not_mem_nil, or_false, differs,
    schema, templates.mem_iff, resolversArtifact, descriptors]

theorem indexesArtifact_mem (apart : c.templatePaths.Nodup) :
    c.indexesArtifact ∈ c.artifacts := by
  rw [(artifacts_perm_candidates apart).mem_iff, candidates]
  simp

end Compilation

/-- A reviewed set whose root names are apart and whose clusters agree amounts to the same
artifacts in each order of its models, but for the order of index entries; or generation breaks
off in each order. -/
theorem artifacts_order_irrelevant {config : Config} {models others : List Model}
    {seeds : Review.SeedData} (read : ∀ m ∈ models, m.IsRead)
    (passes : Review.Passes config models seeds) (apart : RootNamesApart models)
    (agree : ClustersAgree models) (order : models.Perm others) :
    Compilation.BreaksOff config models ∧ Compilation.BreaksOff config others ∨
      ∃ c d, Compilation.build config models = .ok c ∧ Compilation.build config others = .ok d ∧
      c.artifacts.map (·.path) = d.artifacts.map (·.path) ∧
      (∀ a, a.path ≠ Compilation.indexesPath → (a ∈ c.artifacts ↔ a ∈ d.artifacts)) ∧
      c.indexesArtifact ∈ c.artifacts ∧ d.indexesArtifact ∈ d.artifacts ∧
      SameIndexes c.indexPlan d.indexPlan := by
  obtain ⟨names, _⟩ := passes.names
  refine passes.builds.imp (fun off => ⟨off, off.perm passes.unrefused names agree order⟩)
    fun ⟨c, built⟩ => ?_
  obtain ⟨d, other, shared, exchanges, listed⟩ := Compilation.build_perm names agree order built
  obtain ⟨settings, schema⟩ := Compilation.build_schema built
  obtain ⟨settings', schema'⟩ := Compilation.build_schema other
  have templates : c.templateArtifacts.Perm d.templateArtifacts :=
    Compilation.templateArtifacts_perm (settings.trans settings'.symm) exchanges
  have paths := Compilation.templatePaths_apart read passes apart built
  have paths' := (Compilation.templatePaths_perm templates).nodup_iff.mp paths
  have documents : c.schema = d.schema := by
    rw [schema, schema', Compilation.schema_perm names order]
  have descriptors : c.descriptors = d.descriptors := by
    refine Compilation.descriptors_eq_of_perm
      (Compilation.places_apart read passes apart built) ?_
    rw [Compilation.unsorted, Compilation.unsorted, shared]
    exact listed.append_right _
  refine ⟨c, d, built, other, Compilation.artifacts_paths_eq templates paths, fun a others => ?_,
    Compilation.indexesArtifact_mem paths, Compilation.indexesArtifact_mem paths', ?_⟩
  · exact Compilation.mem_artifacts_iff documents templates descriptors paths others
  · rw [Compilation.build_indexPlan built, Compilation.build_indexPlan other]
    exact indexPlan_perm order

def folder : Value := .object [
  ("name", .text "Folder"), ("properties", .object [("id", .object [("type", .text "ID")])]),
  ("dataSource", .object [("type", .text "database"), ("engine", .text "nosql")]),
  ("relationships", .object [
    ("notes", .object [("type", .text "hasMany"), ("target", .text "Note")])])]

/-- A note in a folder, with notes below it. -/
def nestedNote : Value := .object [
  ("name", .text "Note"),
  ("properties", .object [("id", .object [("type", .text "ID")]),
    ("folderId", .object [("type", .text "ID")]), ("parentId", .object [("type", .text "ID")])]),
  ("dataSource", .object [("type", .text "database"), ("engine", .text "nosql")]),
  ("relationships", .object [
    ("replies", .object [("type", .text "hasMany"), ("target", .text "Note"),
      ("foreignKey", .text "parentId")])])]

/-- Which index is named first depends on the order, and nothing else. -/
theorem artifacts_order_irrelevant_folder :
    ∃ m n c d, Model.decode folder = .ok m ∧ Model.decode nestedNote = .ok n ∧
      Compilation.build .default [m, n] = .ok c ∧ Compilation.build .default [n, m] = .ok d ∧
      (∀ a, a.path ≠ Compilation.indexesPath → (a ∈ c.artifacts ↔ a ∈ d.artifacts)) ∧
      planIndexes [m, n] "Note" ≠ planIndexes [n, m] "Note" := by
  obtain ⟨m, n, first, second, named, other, stored, differ, harmless, written⟩ : ∃ m n,
      Model.decode folder = .ok m ∧ Model.decode nestedNote = .ok n ∧ m.name = "Folder" ∧
      n.name = "Note" ∧ (m.engine = .document ∧ n.engine = .document ∧
        m.dataSource.cluster? = none ∧ n.dataSource.cluster? = none) ∧
      planIndexes [m, n] "Note" ≠ planIndexes [n, m] "Note" ∧
      (∀ f ∈ Review.all .default [m, n] [], f.level ≠ .error) ∧ ∀ x ∈ [m, n], ¬ x.HasLongLimit :=
    ⟨_, _, rfl, rfl, rfl, rfl, ⟨rfl, rfl, rfl, rfl⟩, by decide +kernel, by decide +kernel,
      by decide +kernel⟩
  have read : ∀ x ∈ [m, n], x.IsRead := by
    intro x member
    simp only [List.mem_cons, List.not_mem_nil, or_false] at member
    rcases member with rfl | rfl
    · exact ⟨_, by simp [folder], first⟩
    · exact ⟨_, by simp [nestedNote], second⟩
  have passes : Review.Passes .default [m, n] [] := Report.isValid_ofFindings.mpr harmless
  have apart : RootNamesApart [m, n] := by
    constructor
    · simp only [List.map_cons, List.map_nil, named, other]
      decide +kernel
    · simp [Model.isRateLimited, stored]
  have agree : ClustersAgree [m, n] := by
    simp [ClustersAgree, stored]
  obtain ⟨c, d, built, also, _, same, _⟩ :=
    (artifacts_order_irrelevant read passes apart agree (List.Perm.swap n m [])).resolve_left
      fun off => Compilation.not_breaksOff written off.1
  exact ⟨m, n, c, d, first, second, built, also, same, differ⟩

end ApiLoom
