import ApiLoom.Proofs.ModelOrder

/-!
# Indexes

Which indexes a model needs, and which of them the relationships use.  The planner goes
through all relationships of a set, the traversals are made for one at a time; both come to
the same keys, so that no traversal to documents has to scan.
-/

namespace ApiLoom

/-! ### Keys in the order of their declaration -/

section Keys

variable {α β : Type} [DecidableEq β]

/-- Without its repetitions, a list of keys is in the order in which each comes up first. -/
theorem eraseDups_ordered (key : α → β) (xs : List α) (p : α → Bool) :
    ((xs.filter p).map key).eraseDups.Pairwise fun k l =>
      (xs.findIdx fun x => p x && key x = k) < xs.findIdx fun x => p x && key x = l := by
  induction xs generalizing p with
  | nil => exact List.Pairwise.nil
  | cons x rest ih =>
    by_cases kept : p x = true
    · have later : ((rest.filter p).map key).filter (fun k => !(k == key x)) =
          (rest.filter fun y => p y && !(key y == key x)).map key := by
        rw [List.filter_map, List.filter_filter]
        simp [Bool.and_comm]
      rw [List.filter_cons_of_pos kept, List.map_cons, List.eraseDups_cons, later,
        List.pairwise_cons]
      have apart : ∀ k ∈ ((rest.filter fun y => p y && !(key y == key x)).map key).eraseDups,
          key x ≠ k := by
        intro k member same
        obtain ⟨y, listed, rfl⟩ := List.mem_map.mp (List.mem_eraseDups.mp member)
        simp [same] at listed
      refine ⟨fun k member => ?_, ?_⟩
      · simp [List.findIdx_cons, kept, apart k member]
      · refine (ih _).imp_of_mem fun {k l} first second before => ?_
        have same : ∀ k, key x ≠ k → ∀ y, (p y && !(key y == key x) && decide (key y = k)) =
            (p y && decide (key y = k)) := by
          intro k other y
          by_cases equal : key y = k
          · simp [equal, Ne.symm other]
          · simp [equal]
        simp only [same k (apart k first), same l (apart l second)] at before
        simp [List.findIdx_cons, apart k first, apart l second, before]
    · rw [List.filter_cons_of_neg kept]
      refine (ih p).imp fun {k l} before => ?_
      simp [List.findIdx_cons, kept, before]

end Keys

/-! ### What is planned -/

theorem RelationshipKind.isIndexed_iff {kind : RelationshipKind} :
    kind.isIndexed = true ↔ kind = .hasMany ∨ kind = .hasOne := by
  cases kind <;> simp [isIndexed]

theorem Naming.indexName_injective : Function.Injective Naming.indexName := fun k l same => by
  rw [← String.toList_inj, indexName, indexName, String.toList_append, String.toList_append] at same
  exact String.toList_inj.mp (List.append_cancel_right same)

/-- The relationships of a set with the models that declare them, in the order in which they
are declared. -/
def links (models : List Model) : List (Model × String × Relationship) :=
  models.flatMap fun m => m.relationships.map fun r => (m, r)

/-- The relationship looks for the key on the model of this name. -/
def looksFor (target key : String) (l : Model × String × Relationship) : Bool :=
  (l.2.2.kind.isIndexed && l.2.2.target = target) && foreignKeyOf l.1 l.2.2 = key

/-- The indexes serve the keys that relationships of the set look for on the model of this name:
one index for each key, and the keys in the order in which they come up first. -/
structure IsPlan (models : List Model) (target : String) (indexes : List SecondaryIndex) :
    Prop where
  keysApart : (indexes.map (·.partitionKey)).Nodup
  namesApart : (indexes.map (·.indexName)).Nodup
  ordered : (indexes.map (·.partitionKey)).Pairwise fun k l =>
    (links models).findIdx (looksFor target k) < (links models).findIdx (looksFor target l)
  keys : ∀ key, key ∈ indexes.map (·.partitionKey) ↔
    ∃ source ∈ models, ∃ r ∈ source.relationships, (r.2.kind = .hasMany ∨ r.2.kind = .hasOne) ∧
      r.2.target = target ∧ foreignKeyOf source r.2 = key

section Plans

variable {models : List Model} {target : String}

theorem indexedKeys_eq : indexedKeys models target =
    (((links models).filter fun l => l.2.2.kind.isIndexed && l.2.2.target = target).map
      fun l => foreignKeyOf l.1 l.2.2).eraseDups := by
  simp only [indexedKeys, links, List.filter_flatMap, List.map_flatMap, List.filter_map,
    List.map_map]
  rfl

theorem mem_indexedKeys_iff {key : String} : key ∈ indexedKeys models target ↔
    ∃ source ∈ models, ∃ r ∈ source.relationships, (r.2.kind = .hasMany ∨ r.2.kind = .hasOne) ∧
      r.2.target = target ∧ foreignKeyOf source r.2 = key := by
  simp only [indexedKeys, List.mem_eraseDups, List.mem_flatMap, List.mem_map, List.mem_filter,
    Bool.and_eq_true, RelationshipKind.isIndexed_iff, decide_eq_true_eq, and_assoc]

theorem planIndexes_keys (models : List Model) (target : String) :
    (planIndexes models target).map (·.partitionKey) = indexedKeys models target := by
  simp [planIndexes, Function.comp_def]

theorem planIndexes_isPlan (models : List Model) (target : String) :
    IsPlan models target (planIndexes models target) where
  keysApart := by
    rw [planIndexes_keys]
    exact nodup_eraseDups _
  namesApart := by
    have names : (planIndexes models target).map (·.indexName) =
        (indexedKeys models target).map Naming.indexName := by
      simp [planIndexes, Function.comp_def]
    rw [names]
    exact (nodup_eraseDups _).map Naming.indexName_injective
  ordered := by
    rw [planIndexes_keys, indexedKeys_eq]
    exact eraseDups_ordered _ _ _
  keys := fun key => by rw [planIndexes_keys, mem_indexedKeys_iff]

theorem mem_planIndexes_iff {i : SecondaryIndex} : i ∈ planIndexes models target ↔
    i.indexName = Naming.indexName i.partitionKey ∧ i.partitionKey ∈ indexedKeys models target := by
  constructor
  · intro member
    obtain ⟨key, listed, rfl⟩ := List.mem_map.mp member
    exact ⟨rfl, listed⟩
  · rintro ⟨named, listed⟩
    exact List.mem_map.mpr ⟨i.partitionKey, listed, by rw [← named]⟩

theorem indexPlan_lookup {m : Model} (member : m ∈ models) :
    (indexPlan models).lookup m.name = some (planIndexes models m.name) :=
  List.lookup_graph _ (List.mem_eraseDups.mpr (List.mem_map_of_mem member))

end Plans

/-! ### What is queried -/

/-- The request looks under the index for the records that refer to the one it starts from. -/
def TraversalResolver.Queries (config : Config) (t : TraversalResolver) (i : SecondaryIndex) :
    Prop :=
  ∃ page, t.exchange.request.operation =
    .queryIndex i.indexName i.partitionKey (sourceField config.identifierField) page

section Traversals

variable {config : Config} {models : List Model} {m target : Model}
  {ts : List TraversalResolver} {cluster : Option Cluster} {field : String} {r : Relationship}

theorem traversals_relationships {lookup : String → Option Model}
    (resolved : m.traversals config cluster lookup = .ok ts) :
    ts.map (fun t => (t.fieldName, t.relationship)) = m.relationships := by
  have kept : ts.map (fun t => (t.fieldName, t.relationship)) = m.relationships.map id := by
    refine map_eq_of_mapM_ok (fun r t served => ?_) resolved
    obtain ⟨_, _, _, _, _, _, _, rfl⟩ := Model.traversal_eq served
    rfl
  rwa [List.map_id] at kept

/-- Where the key of a relationship lies on documents, its traversal queries the index for it. -/
theorem traversal_queries {t : TraversalResolver}
    (resolved : m.traversal config cluster (modelNamed models) field r = .ok t)
    (keyed : r.kind = .hasMany ∨ r.kind = .hasOne)
    (found : modelNamed models r.target = some target) (document : target.engine = .document) :
    t.Queries config ⟨Naming.indexName (foreignKeyOf m r), foreignKeyOf m r⟩ := by
  obtain ⟨also, operation, shape, reached, plan, _, _, asked, _⟩ := Model.traversal_ok resolved
  obtain rfl := Option.some.inj (found.symm.trans reached)
  simp only [Model.traversalTo, document, Option.some.injEq] at plan
  have operation : t.exchange.request.operation =
      (documentTraversal config r.kind (foreignKeyOf m r) target.itemAccess).1 := by
    rw [asked, plan]
  rcases keyed with kind | kind
  · exact ⟨_, by rw [operation, kind]; rfl⟩
  · exact ⟨_, by rw [operation, kind]; rfl⟩

end Traversals

/-! ### Plan and traversals -/

/-- The planner plans an index for each key that relationships look for on a model, and where
the target keeps documents, the traversals query these indexes and no others.  In a reviewed
set the keys are properties of the models on which they are looked for. -/
theorem indexes_planned_as_queried (config : Config) (models : List Model) :
    (∀ target ∈ models, IsPlan models target.name (planIndexes models target.name)) ∧
    (∀ source ∈ models, ∀ ts,
      source.traversals config (sharedCluster models config) (modelNamed models) = .ok ts →
        ts.map (fun t => (t.fieldName, t.relationship)) = source.relationships ∧
        ∀ t ∈ ts, t.relationship.kind = .hasMany ∨ t.relationship.kind = .hasOne →
          ∀ target, modelNamed models t.relationship.target = some target →
            target.engine = .document →
              ∃ indexes, (indexPlan models).lookup target.name = some indexes ∧
                ∃ i ∈ indexes, t.Queries config i) ∧
    (∀ target, modelNamed models target.name = some target → target.engine = .document →
      ∀ i ∈ planIndexes models target.name, ∃ source ∈ models, ∀ ts,
        source.traversals config (sharedCluster models config) (modelNamed models) = .ok ts →
          ∃ t ∈ ts, t.relationship.target = target.name ∧ t.Queries config i) ∧
    ∀ seeds, Review.Passes config models seeds → ∀ m ∈ models,
      (∀ i ∈ planIndexes models m.name, m.hasProperty i.partitionKey = true) ∧
        ∀ r ∈ m.relationships, r.2.kind = .belongsTo →
          m.hasProperty (foreignKeyOf m r.2) = true := by
  refine ⟨fun target _ => planIndexes_isPlan models target.name, ?_, ?_, ?_⟩
  · intro source member ts resolved
    refine ⟨traversals_relationships resolved, fun t served keyed target found document => ?_⟩
    obtain ⟨r, related, same⟩ := mem_of_mapM_ok resolved t served
    obtain ⟨_, _, _, _, _, _, _, made⟩ := Model.traversal_eq same
    have relationship : t.relationship = r.2 := by rw [made]; rfl
    rw [relationship] at keyed found
    obtain ⟨listed, named⟩ := mem_of_modelNamed found
    refine ⟨_, indexPlan_lookup listed, _, ?_, traversal_queries same keyed found document⟩
    exact mem_planIndexes_iff.mpr ⟨rfl, mem_indexedKeys_iff.mpr
      ⟨source, member, r, related, keyed, named.symm, rfl⟩⟩
  · intro target found document i planned
    obtain ⟨named, key⟩ := mem_planIndexes_iff.mp planned
    obtain ⟨source, member, r, related, keyed, leads, same⟩ := mem_indexedKeys_iff.mp key
    refine ⟨source, member, fun ts resolved => ?_⟩
    obtain ⟨t, served, made⟩ := exists_of_mapM_ok resolved r related
    have queries := traversal_queries made keyed (leads ▸ found) document
    rw [same, ← named] at queries
    obtain ⟨_, _, _, _, _, _, _, parts⟩ := Model.traversal_eq made
    exact ⟨t, served, by rw [parts]; exact leads, queries⟩
  · intro seeds passes m member
    refine ⟨fun i planned => ?_, fun r related belongs =>
      passes.key_on_source member related belongs⟩
    obtain ⟨_, key⟩ := mem_planIndexes_iff.mp planned
    obtain ⟨source, listed, r, related, keyed, leads, same⟩ := mem_indexedKeys_iff.mp key
    have found : modelNamed models r.2.target = some m :=
      (modelNamed_eq_some_iff passes.names.1).mpr ⟨member, leads.symm⟩
    rw [← same]
    exact passes.key_on_target listed related (RelationshipKind.isIndexed_iff.mpr keyed) found

/-- Posts are looked for by one key, which two relationships of a writer share. -/
def indexedWriter : Value := .object [
  ("name", .text "Writer"),
  ("properties", .object [("id", .object [("type", .text "ID")])]),
  ("dataSource", .object [("type", .text "database"), ("engine", .text "nosql")]),
  ("relationships", .object [
    ("posts", .object [("type", .text "hasMany"), ("target", .text "Post")]),
    ("latest", .object [("type", .text "hasOne"), ("target", .text "Post"),
      ("foreignKey", .text "writerId")])])]

def indexedPost : Value := .object [
  ("name", .text "Post"),
  ("properties", .object [("id", .object [("type", .text "ID")]),
    ("writerId", .object [("type", .text "ID")])]),
  ("dataSource", .object [("type", .text "database"), ("engine", .text "nosql")]),
  ("relationships", .object [
    ("writer", .object [("type", .text "belongsTo"), ("target", .text "Writer")])])]

theorem indexes_planned_as_queried_writer :
    ∃ m n ts, Model.decode indexedWriter = .ok m ∧ Model.decode indexedPost = .ok n ∧
      Review.Passes .default [m, n] [] ∧
      m.traversals .default (sharedCluster [m, n] .default) (modelNamed [m, n]) = .ok ts ∧
      planIndexes [m, n] "Post" = [⟨"writerIdIndex", "writerId"⟩] ∧
      n.hasProperty "writerId" = true ∧ ts.length = 2 ∧
      ∀ t ∈ ts, t.Queries .default ⟨"writerIdIndex", "writerId"⟩ := by
  obtain ⟨m, n, ts, first, second, resolved, named, target, document, planned, kinds, targets,
      harmless⟩ : ∃ m n ts,
      Model.decode indexedWriter = .ok m ∧ Model.decode indexedPost = .ok n ∧
      m.traversals .default (sharedCluster [m, n] .default) (modelNamed [m, n]) = .ok ts ∧
      n.name = "Post" ∧ modelNamed [m, n] "Post" = some n ∧ n.engine = .document ∧
      planIndexes [m, n] "Post" = [⟨"writerIdIndex", "writerId"⟩] ∧
      ts.map (·.relationship.kind) = [.hasMany, .hasOne] ∧
      ts.map (·.relationship.target) = ["Post", "Post"] ∧
      ∀ f ∈ Review.all .default [m, n] [], f.level ≠ .error :=
    ⟨_, _, _, rfl, rfl, rfl, rfl, rfl, rfl, by decide +kernel, rfl, rfl, by decide +kernel⟩
  have passes : Review.Passes .default [m, n] [] := Report.isValid_ofFindings.mpr harmless
  obtain ⟨_, queried, _, declared⟩ := indexes_planned_as_queried .default [m, n]
  obtain ⟨_, each⟩ := queried m (by simp) ts resolved
  refine ⟨m, n, ts, first, second, passes, resolved, planned, ?_, ?_, fun t member => ?_⟩
  · obtain ⟨keys, _⟩ := declared [] passes n (by simp)
    rw [named, planned] at keys
    exact keys _ (List.mem_singleton_self _)
  · simpa using congrArg List.length kinds
  · have kind : t.relationship.kind ∈ ts.map (·.relationship.kind) := List.mem_map_of_mem member
    have leads : t.relationship.target ∈ ts.map (·.relationship.target) :=
      List.mem_map_of_mem member
    rw [kinds] at kind
    rw [targets] at leads
    have post : t.relationship.target = "Post" := by simpa using leads
    obtain ⟨indexes, looked, i, listed, queries⟩ :=
      each t member (by simpa using kind) n (post ▸ target) document
    rw [indexPlan_lookup (by simp), named, planned] at looked
    obtain rfl := Option.some.inj looked
    rwa [← List.mem_singleton.mp listed]

end ApiLoom
