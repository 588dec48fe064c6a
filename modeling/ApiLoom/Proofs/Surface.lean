import ApiLoom.Proofs.Compiled
import ApiLoom.Proofs.Names
import Mathlib.Data.List.Perm.Basic

/-!
# The surface of the API

The schema and the compiler each go through the models of a set on their own.  Both
come to the same fields: what the schema declares has one resolver, and every resolver
stands at a declared field.
-/

namespace ApiLoom

/-! ### Fields of the API -/

/-- What a field of the API is for. -/
inductive ApiField where
  | root (model : String) (field : RootField)
  | link (model field : String)
  | subscription (model : String) (field : RootField)
  | jobResult (model : String)
  | publication
  | completion
deriving DecidableEq, Repr

/-- The type of a field and its name. -/
abbrev FieldPlace := String × String

def ApiField.place : ApiField → FieldPlace
  | root model field => (field.parentType, Naming.rootField model field)
  | link model field => (model, field)
  | subscription model field => ("Subscription", Naming.subscriptionField model field)
  | jobResult model => ("Query", Naming.jobResultField model)
  | publication => ("Mutation", Naming.publishJobResultField)
  | completion => ("Subscription", Naming.jobCompletedField)

def Model.rootFields (m : Model) : List ApiField := RootField.all.map (.root m.name)

def Model.links (m : Model) : List ApiField := m.relationships.map fun r => .link m.name r.1

def Model.subscribed (m : Model) : List ApiField :=
  if m.enableSubscriptions then RootField.writes.map (.subscription m.name) else []

def Model.jobResults (m : Model) : List ApiField :=
  if m.isRateLimited then [.jobResult m.name] else []

def Model.apiFields (m : Model) : List ApiField :=
  m.rootFields ++ m.links ++ m.subscribed ++ m.jobResults

def sharedFields (models : List Model) : List ApiField :=
  if models.any Model.isRateLimited then [.publication, .completion] else []

/-- All fields of a set of models: those of each model, and those that they share. -/
def apiFields (models : List Model) : List ApiField :=
  models.flatMap Model.apiFields ++ sharedFields models

/-! ### What the schema declares -/

namespace Schema

variable {config : Config} {models : List Model}

def queries (config : Config) (models : List Model) : List Field :=
  models.flatMap (queryFields config)

def mutations (models : List Model) : List Field :=
  models.flatMap mutationFields ++ if models.any Model.isRateLimited then [publishField] else []

def subscriptions (models : List Model) : List Field :=
  models.flatMap subscriptionFields ++
    if models.any Model.isRateLimited then [completedField] else []

/-- The root types and their fields. -/
def rootTypes (config : Config) (models : List Model) : List (String × List Field) :=
  [("Query", queries config models), ("Mutation", mutations models),
    ("Subscription", subscriptions models)]

/-- Each model has its own blocks; the root types and the type of results stand behind them. -/
theorem documentOf_blocks :
    (documentOf config models).blocks =
      models.flatMap (modelBlocks config) ++
        (rootTypes config models).flatMap (fun t => rootBlock t.1 t.2) ++
        if models.any Model.isRateLimited then [jobResultBlock] else [] := by
  simp [documentOf, rootTypes, queries, mutations, subscriptions]

def places (type : String) (fields : List Field) : List FieldPlace :=
  fields.map fun f => (type, f.name)

/-- Where the schema declares a field of a root type or a relationship. -/
def surface (config : Config) (models : List Model) : List FieldPlace :=
  (rootTypes config models).flatMap (fun t => places t.1 t.2) ++
    models.flatMap fun m => places m.name (relationshipFields m)

theorem perm_sortedModels (models : List Model) : (sortedModels models).Perm models :=
  List.mergeSort_perm ..

theorem any_sortedModels (models : List Model) :
    (sortedModels models).any Model.isRateLimited = models.any Model.isRateLimited := by
  rw [Bool.eq_iff_iff]
  simp [(perm_sortedModels models).mem_iff]

end Schema

/-! ### One model -/

namespace Model

open Schema

variable (config : Config) (m : Model)

def rootPlaces (type : String) : List RootField → List FieldPlace :=
  List.map fun field => (type, Naming.rootField m.name field)

theorem places_queries :
    places "Query" (queryFields config m) =
      m.rootPlaces "Query" [.get, .list] ++ m.jobResults.map ApiField.place := by
  unfold queryFields jobResults
  cases m.isRateLimited <;> rfl

theorem places_mutations :
    places "Mutation" (mutationFields m) = m.rootPlaces "Mutation" RootField.writes := rfl

theorem places_subscriptions :
    places "Subscription" (subscriptionFields m) = m.subscribed.map ApiField.place := by
  unfold subscriptionFields subscribed
  cases m.enableSubscriptions <;> rfl

theorem places_links :
    places m.name (relationshipFields m) = m.links.map ApiField.place := by
  unfold places relationshipFields links
  rw [List.map_map, List.map_map]
  refine List.map_congr_left fun r _ => ?_
  cases kind : r.2.kind <;> simp [relationshipField, kind, Field.plain, ApiField.place]

theorem places_rootFields :
    m.rootFields.map ApiField.place =
      m.rootPlaces "Query" [.get, .list] ++ m.rootPlaces "Mutation" RootField.writes := rfl

/-- All that the schema declares for a model are its fields. -/
theorem places_perm :
    (places "Query" (queryFields config m) ++ places "Mutation" (mutationFields m) ++
      places "Subscription" (subscriptionFields m) ++
        places m.name (relationshipFields m)).Perm (m.apiFields.map ApiField.place) := by
  rw [places_queries, places_mutations, places_subscriptions, places_links, apiFields,
    List.map_append, List.map_append, List.map_append, places_rootFields]
  generalize m.rootPlaces "Query" [.get, .list] = reads
  generalize m.rootPlaces "Mutation" RootField.writes = writes
  refine List.perm_iff_count.mpr fun p => ?_
  simp only [List.count_append]
  omega

end Model

/-! ### A set of models -/

namespace Schema

variable {config : Config} {models : List Model}

theorem places_flatMap (type : String) (fields : Model → List Field) (models : List Model) :
    places type (models.flatMap fields) = models.flatMap fun m => places type (fields m) :=
  List.map_flatMap

theorem places_append (type : String) (first second : List Field) :
    places type (first ++ second) = places type first ++ places type second :=
  List.map_append

/-- The schema declares each field of the API, as often as there is one. -/
theorem surface_perm_apiFields (config : Config) (models : List Model) :
    (surface config models).Perm ((apiFields models).map ApiField.place) := by
  let reads m := places "Query" (queryFields config m)
  let writes m := places "Mutation" (mutationFields m)
  let events m := places "Subscription" (subscriptionFields m)
  let links m := places m.name (relationshipFields m)
  have joined : (models.flatMap reads ++ models.flatMap writes ++ models.flatMap events ++
      models.flatMap links).Perm (models.flatMap fun m => m.apiFields.map ApiField.place) := by
    have first := List.flatMap_append_perm models reads writes
    have second := List.flatMap_append_perm models (fun m => reads m ++ writes m) events
    have third := List.flatMap_append_perm models (fun m => reads m ++ writes m ++ events m) links
    have each := List.Perm.flatMap_left models fun m _ => m.places_perm config
    exact ((((first.append_right _).trans second).append_right _).trans third).trans each
  have listed : surface config models =
      models.flatMap reads ++
        (models.flatMap writes ++ places "Mutation"
          (if models.any Model.isRateLimited then [publishField] else [])) ++
        (models.flatMap events ++ places "Subscription"
          (if models.any Model.isRateLimited then [completedField] else [])) ++
        models.flatMap links := by
    simp only [surface, rootTypes, List.flatMap_cons, List.flatMap_nil, List.append_nil, queries,
      mutations, subscriptions, places_append, places_flatMap, List.append_assoc, reads, writes,
      events, links]
  have shared : (sharedFields models).map ApiField.place =
      places "Mutation" (if models.any Model.isRateLimited then [publishField] else []) ++
        places "Subscription"
          (if models.any Model.isRateLimited then [completedField] else []) := by
    unfold sharedFields
    split <;> rfl
  have own : (apiFields models).map ApiField.place =
      (models.flatMap fun m => m.apiFields.map ApiField.place) ++
        (sharedFields models).map ApiField.place := by
    rw [apiFields, List.map_append, List.map_flatMap]
  rw [listed, own, shared]
  refine List.Perm.trans (List.perm_iff_count.mpr fun p => ?_) (joined.append_right _)
  simp only [List.count_append]
  omega

end Schema

/-! ### What has a resolver -/

def RootResolver.place (r : RootResolver) : FieldPlace := (r.typeName, r.fieldName)

def TraversalResolver.place (r : TraversalResolver) : FieldPlace := (r.typeName, r.fieldName)

def SideResolver.place (r : SideResolver) : FieldPlace := (r.typeName, r.fieldName)

namespace CompiledModel

def sides (m : CompiledModel) : List SideResolver := m.subscriptions ++ m.jobResultLookup.toList

def places (m : CompiledModel) : List FieldPlace :=
  m.resolvers.map RootResolver.place ++ m.traversals.map TraversalResolver.place ++
    m.sides.map SideResolver.place

end CompiledModel

namespace Compilation

/-- Subscriptions, look-ups of results, and what serves all models. -/
def sides (c : Compilation) : List SideResolver := c.models.flatMap CompiledModel.sides ++ c.shared

/-- Where a resolver is attached. -/
def places (c : Compilation) : List FieldPlace :=
  c.models.flatMap CompiledModel.places ++ c.shared.map SideResolver.place

end Compilation

namespace Model

variable {m : Model} {config : Config} {cluster : Option Cluster}
  {lookup : String → Option Model} {indexes : List SecondaryIndex} {c : CompiledModel}

def sides (m : Model) (config : Config) : List SideResolver :=
  m.subscriptions ++ (m.jobResultLookup config).toList

theorem places_sides (m : Model) (config : Config) :
    (m.sides config).map SideResolver.place =
      m.subscribed.map ApiField.place ++ m.jobResults.map ApiField.place := by
  unfold sides subscriptions jobResultLookup subscribed jobResults
  cases m.enableSubscriptions <;> cases m.isRateLimited <;> rfl

theorem compileWith_sides (compiled : m.compileWith config cluster lookup indexes = .ok c) :
    c.sides = m.sides config := by
  obtain ⟨_, _, subscribed, served⟩ := compileWith_ok compiled
  rw [CompiledModel.sides, subscribed, served, sides]

theorem compileWith_places (compiled : m.compileWith config cluster lookup indexes = .ok c) :
    c.places = m.apiFields.map ApiField.place := by
  obtain ⟨resolved, related, _, _⟩ := compileWith_ok compiled
  have roots : c.resolvers.map RootResolver.place =
      RootField.all.map fun field => (ApiField.root m.name field).place :=
    map_eq_of_mapM_ok (fun field r resolved => by
      rw [RootResolver.place, RootResolver.typeName, resolver_field resolved,
        resolver_fieldName resolved]
      rfl) resolved
  have links : c.traversals.map TraversalResolver.place =
      m.relationships.map fun r => (ApiField.link m.name r.1).place :=
    map_eq_of_mapM_ok (fun r t traversed => by
      obtain ⟨type, field⟩ := traversal_place traversed
      rw [TraversalResolver.place, type, field]
      rfl) related
  rw [CompiledModel.places, roots, links, compileWith_sides compiled, places_sides, apiFields,
    rootFields, Model.links, List.map_append, List.map_append, List.map_append, List.map_map,
    List.map_map, ← List.append_assoc]
  rfl

end Model

namespace Compilation

variable {config : Config} {models : List Model} {c : Compilation}

theorem places_sharedResolvers (models : List Model) :
    (sharedResolvers models).map SideResolver.place =
      (sharedFields models).map ApiField.place := by
  unfold sharedResolvers sharedFields
  split <;> rfl

/-- Each field of the API has one resolver. -/
theorem build_places (built : build config models = .ok c) :
    c.places = (apiFields models).map ApiField.place := by
  obtain ⟨compiled, shared⟩ := build_ok built
  have each := map_eq_of_mapM_ok (fun m c compiled => Model.compileWith_places compiled) compiled
  rw [places, apiFields, List.map_append, shared, places_sharedResolvers, List.flatMap_def, each,
    List.map_flatMap, List.flatMap_def]

theorem build_sides (built : build config models = .ok c) :
    c.sides = models.flatMap (fun m => m.sides config) ++ sharedResolvers models := by
  obtain ⟨compiled, shared⟩ := build_ok built
  have each := map_eq_of_mapM_ok (fun m c compiled => Model.compileWith_sides compiled) compiled
  rw [sides, shared, List.flatMap_def, each, ← List.flatMap_def]

end Compilation

/-! ### Subscriptions -/

/-- The subscription of this name waits for the mutation. -/
inductive Follows : String → String → Prop where
  | change (model : String) (field : RootField) :
    Follows (Naming.subscriptionField model field) (Naming.rootField model field)
  | result : Follows Naming.jobCompletedField Naming.publishJobResultField

theorem Follows.unique {name first second : String} (one : Follows name first)
    (other : Follows name second) : first = second := by
  generalize named : name = same at other
  cases one with
  | change model field =>
    cases other with
    | change other sibling =>
      obtain ⟨rfl, rfl⟩ := Naming.subscriptionField_inj.mp named
      rfl
    | result => exact absurd named Naming.subscriptionField_ne_completed
  | result =>
    cases other with
    | change other sibling => exact absurd named.symm Naming.subscriptionField_ne_completed
    | result => rfl

namespace Schema

variable {models : List Model} {f : Field}

/-- A subscription follows a mutation that the schema declares. -/
theorem subscriptions_follow (declared : f ∈ subscriptions models) :
    ∃ mutation, f.directive = some (.follows mutation) ∧ Follows f.name mutation ∧
      mutation ∈ (mutations models).map (·.name) := by
  rcases List.mem_append.mp declared with own | shared
  · obtain ⟨m, member, listed⟩ := List.mem_flatMap.mp own
    unfold subscriptionFields at listed
    split at listed
    · obtain ⟨field, writes, rfl⟩ := List.mem_map.mp listed
      refine ⟨Naming.rootField m.name field, rfl, .change m.name field, ?_⟩
      refine List.mem_map.mpr ⟨mutationField m field, List.mem_append_left _ ?_, rfl⟩
      exact List.mem_flatMap.mpr ⟨m, member, List.mem_map_of_mem writes⟩
    · cases listed
  · split at shared
    · next queued =>
      obtain rfl := List.mem_singleton.mp shared
      refine ⟨Naming.publishJobResultField, rfl, .result, ?_⟩
      refine List.mem_map.mpr ⟨publishField, List.mem_append_right _ ?_, rfl⟩
      rw [if_pos queued]
      exact List.mem_singleton_self _
    · cases shared

end Schema

namespace Compilation

variable {config : Config} {models : List Model} {c : Compilation}

theorem mem_sides (built : build config models = .ok c) {s : SideResolver} (member : s ∈ c.sides)
    (subscribed : s.typeName = "Subscription") :
    ∃ mutation, s.mutations = [mutation] ∧ Follows s.fieldName mutation := by
  rw [build_sides built] at member
  rcases List.mem_append.mp member with own | shared
  · obtain ⟨m, _, listed⟩ := List.mem_flatMap.mp own
    rcases List.mem_append.mp listed with changes | served
    · unfold Model.subscriptions at changes
      split at changes
      · obtain ⟨field, _, rfl⟩ := List.mem_map.mp changes
        exact ⟨_, rfl, .change m.name field⟩
      · cases changes
    · unfold Model.jobResultLookup at served
      split at served
      · obtain rfl := List.mem_singleton.mp served
        exact absurd subscribed (by decide : "Query" ≠ "Subscription")
      · cases served
  · unfold sharedResolvers at shared
    split at shared
    · simp only [List.mem_cons, List.not_mem_nil, or_false] at shared
      rcases shared with rfl | rfl
      · exact absurd subscribed (by decide : "Mutation" ≠ "Subscription")
      · exact ⟨_, rfl, .result⟩
    · cases shared

theorem exists_side (built : build config models = .ok c) {f : Schema.Field}
    (declared : f ∈ Schema.subscriptions models) :
    ∃ s ∈ c.sides, s.place = ("Subscription", f.name) := by
  rw [build_sides built]
  rcases List.mem_append.mp declared with own | shared
  · obtain ⟨m, member, listed⟩ := List.mem_flatMap.mp own
    unfold Schema.subscriptionFields at listed
    split at listed
    · next enabled =>
      obtain ⟨field, writes, rfl⟩ := List.mem_map.mp listed
      refine ⟨m.subscription field, List.mem_append_left _ ?_, rfl⟩
      refine List.mem_flatMap.mpr ⟨m, member, List.mem_append_left _ ?_⟩
      rw [Model.subscriptions, if_pos enabled]
      exact List.mem_map_of_mem writes
    · cases listed
  · split at shared
    · next queued =>
      obtain rfl := List.mem_singleton.mp shared
      refine ⟨jobNotification, List.mem_append_right _ ?_, rfl⟩
      rw [sharedResolvers, if_pos queued]
      exact List.mem_cons_of_mem _ (List.mem_singleton_self _)
    · cases shared

end Compilation

/-- The schema and the resolvers agree: each declared field has one resolver and each resolver
stands at one declared field, and a subscription listens to the mutation that it is declared to
follow. -/
theorem surface_agrees {config : Config} {models : List Model} {c : Compilation}
    (built : Compilation.build config models = .ok c) :
    let sorted := Schema.sortedModels models
    c.schema.blocks = sorted.flatMap (Schema.modelBlocks config) ++
        (Schema.rootTypes config sorted).flatMap (fun t => Schema.rootBlock t.1 t.2) ++
        (if models.any Model.isRateLimited then [Schema.jobResultBlock] else []) ∧
      (Schema.surface config sorted).Perm c.places ∧
      ∀ f ∈ Schema.subscriptions sorted, ∃ mutation, f.directive = some (.follows mutation) ∧
        mutation ∈ (Schema.mutations sorted).map (·.name) ∧
        (∃ s ∈ c.sides, s.place = ("Subscription", f.name)) ∧
        ∀ s ∈ c.sides, s.place = ("Subscription", f.name) → s.mutations = [mutation] := by
  intro sorted
  have order : sorted.Perm models := Schema.perm_sortedModels models
  refine ⟨?_, ?_, fun f declared => ?_⟩
  · rw [(Compilation.build_schema built).2, Schema.document, Schema.documentOf_blocks,
      Schema.any_sortedModels]
  · rw [Compilation.build_places built]
    refine (Schema.surface_perm_apiFields config sorted).trans (List.Perm.map _ ?_)
    rw [apiFields, apiFields, sharedFields, sharedFields, Schema.any_sortedModels]
    exact (order.flatMap_right _).append_right _
  · obtain ⟨mutation, directive, follows, known⟩ := Schema.subscriptions_follow declared
    have given : f ∈ Schema.subscriptions models := by
      rw [Schema.subscriptions, Schema.any_sortedModels] at declared
      exact ((order.flatMap_right _).append_right _).mem_iff.mp declared
    refine ⟨mutation, directive, known, Compilation.exists_side built given,
      fun s member placed => ?_⟩
    obtain ⟨type, name⟩ := Prod.mk.inj placed
    obtain ⟨other, heard, same⟩ := Compilation.mem_sides built member type
    rw [heard, follows.unique (name ▸ same)]

def queuedReport : Value := .object [
  ("name", .text "Report"),
  ("properties", .object [("id", .object [("type", .text "ID")])]),
  ("dataSource", .object [
    ("type", .text "thirdPartyApi"), ("endpoint", .text "https://reports.example"),
    ("limits", .object [("limit", .int 1), ("frequencyInSeconds", .int 1)])]),
  ("enableSubscriptions", .bool true)]

theorem surface_agrees_queuedReport :
    ∃ m c, Model.decode queuedReport = .ok m ∧ Compilation.build .default [m] = .ok c ∧
      (Schema.surface .default [m]).Perm c.places ∧
      ∃ s ∈ c.sides, s.place = ("Subscription", "onCreateReport") ∧
        s.mutations = ["createReport"] := by
  obtain ⟨m, read, named, enabled⟩ : ∃ m, Model.decode queuedReport = .ok m ∧
      m.name = "Report" ∧ m.enableSubscriptions = true := ⟨_, rfl, rfl, rfl⟩
  have generates : ((Model.decode queuedReport).toOption.any fun m =>
      (Compilation.build .default [m]).isOk) = true := by decide +kernel
  rw [read] at generates
  obtain ⟨c, built⟩ : ∃ c, Compilation.build .default [m] = .ok c := exists_of_isOk generates
  have sorted : Schema.sortedModels [m] = [m] := List.mergeSort_singleton m
  obtain ⟨_, same, changes⟩ := surface_agrees built
  rw [sorted] at same changes
  have declared : Schema.subscriptionField m .create ∈ Schema.subscriptions [m] := by
    simp [Schema.subscriptions, Schema.subscriptionFields, enabled, RootField.writes]
  obtain ⟨mutation, directive, _, ⟨s, member, placed⟩, all⟩ := changes _ declared
  have followed : mutation = "createReport" := by
    rw [Schema.subscriptionField, named] at directive
    exact (Schema.Directive.follows.inj (Option.some.inj directive)).symm
  refine ⟨m, c, read, built, same, s, member, ?_, ?_⟩
  · rw [placed, Schema.subscriptionField, named]
    rfl
  · rw [all s member placed, followed]

end ApiLoom
