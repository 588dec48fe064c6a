import ApiLoom.Proofs.Keys
import ApiLoom.Proofs.Reviewed
import ApiLoom.Proofs.Surface

/-!
# Fields that meet

Where two fields of the API stand at one place.  In a reviewed set that happens in two
ways only: the lists of two models with one plural have one name, and so have the field
for the results of a queued model and the read of a model that is named for it.
-/

namespace ApiLoom

/-- No two root fields of the set have one name. -/
structure RootNamesApart (models : List Model) : Prop where
  plurals : (models.map fun m => Naming.plural m.name).Nodup
  results : ∀ m ∈ models, m.isRateLimited = true → ∀ n ∈ models, n.name ≠ m.name ++ "JobResult"

/-! ### Two fields -/

def rootTypeNames : List String := ["Query", "Mutation", "Subscription"]

namespace ApiField

/-- A relationship does not belong to a root type. -/
def IsProper : ApiField → Prop
  | link model _ => model ∉ rootTypeNames
  | _ => True

/-- Different fields with one name. -/
inductive Meets : ApiField → ApiField → Prop where
  | plurals {a b : String} (same : Naming.plural a = Naming.plural b) :
    Meets (root a .list) (root b .list)
  | result (a : String) : Meets (root (a ++ "JobResult") .get) (jobResult a)

theorem root_meets {a b : String} {f g : RootField}
    (same : Naming.rootField a f = Naming.rootField b g) :
    root a f = root b g ∨ Meets (root a f) (root b g) := by
  obtain ⟨rfl, stems⟩ := Naming.rootField_inj.mp same
  cases f with
  | list => exact Or.inr (.plurals stems)
  | get | create | update | delete =>
    obtain rfl : a = b := stems
    exact Or.inl rfl

theorem parentType_ne (f : RootField) : f.parentType ≠ "Subscription" := by
  cases f <;> decide

theorem place_rooted {x : ApiField} (unlinked : ∀ model field, x ≠ link model field) :
    x.place.1 ∈ rootTypeNames := by
  cases x with
  | root a f => cases f <;> simp [place, RootField.parentType, rootTypeNames]
  | link a x => exact absurd rfl (unlinked a x)
  | subscription a f => simp [place, rootTypeNames]
  | jobResult a => simp [place, rootTypeNames]
  | publication => decide
  | completion => decide

theorem place_ne_link {x : ApiField} {model field : String}
    (proper : (link model field).IsProper) (unlinked : ∀ model field, x ≠ link model field) :
    x.place.1 ≠ (link model field).place.1 := by
  have rooted := place_rooted unlinked
  intro same
  rw [same] at rooted
  exact proper rooted

/-- Two fields with one place are the same field, or they meet. -/
theorem meets_of_place {x y : ApiField} (proper : x.IsProper) (sound : y.IsProper)
    (same : x.place = y.place) : x = y ∨ Meets x y ∨ Meets y x := by
  have types : x.place.1 = y.place.1 := congrArg Prod.fst same
  have names : x.place.2 = y.place.2 := congrArg Prod.snd same
  cases x with
  | root a f =>
    cases y with
    | root b g => exact (root_meets names).imp_right Or.inl
    | link b x => exact absurd types (place_ne_link sound (by simp))
    | subscription b g => exact absurd types (parentType_ne f)
    | jobResult b =>
      obtain ⟨rfl, rfl⟩ := Naming.rootField_eq_jobResultField.mp names
      exact Or.inr (Or.inl (.result b))
    | publication => exact absurd names Naming.rootField_ne_publish
    | completion => exact absurd types (parentType_ne f)
  | link a x =>
    cases y with
    | link b y =>
      obtain ⟨rfl, rfl⟩ : a = b ∧ x = y := ⟨types, names⟩
      exact Or.inl rfl
    | _ => exact absurd types.symm (place_ne_link proper (by simp))
  | subscription a f =>
    cases y with
    | root b g => exact absurd types.symm (parentType_ne g)
    | link b x => exact absurd types (place_ne_link sound (by simp))
    | subscription b g =>
      obtain ⟨rfl, rfl⟩ := Naming.subscriptionField_inj.mp names
      exact Or.inl rfl
    | jobResult b => exact absurd types (by simp [place])
    | publication => exact absurd types (by simp [place])
    | completion => exact absurd names Naming.subscriptionField_ne_completed
  | jobResult a =>
    cases y with
    | root b g =>
      obtain ⟨rfl, rfl⟩ := Naming.rootField_eq_jobResultField.mp names.symm
      exact Or.inr (Or.inr (.result a))
    | link b x => exact absurd types (place_ne_link sound (by simp))
    | jobResult b =>
      obtain rfl := Naming.jobResultField_inj.mp names
      exact Or.inl rfl
    | _ => exact absurd types (by simp [place])
  | publication =>
    cases y with
    | root b g => exact absurd names.symm Naming.rootField_ne_publish
    | link b x => exact absurd types (place_ne_link sound (by simp))
    | publication => exact Or.inl rfl
    | _ => exact absurd types (by simp [place])
  | completion =>
    cases y with
    | root b g => exact absurd types.symm (parentType_ne g)
    | link b x => exact absurd types (place_ne_link sound (by simp))
    | subscription b g => exact absurd names.symm Naming.subscriptionField_ne_completed
    | completion => exact Or.inl rfl
    | _ => exact absurd types (by simp [place])

end ApiField

/-! ### Fields of a set -/

namespace ApiField

/-- The model that a field belongs to, unless it is shared. -/
def model? : ApiField → Option String
  | root model _ | link model _ | subscription model _ | jobResult model => some model
  | publication | completion => none

end ApiField

namespace Model

variable {m : Model} {x : ApiField}

theorem mem_apiFields : x ∈ m.apiFields ↔
    (∃ f, x = .root m.name f) ∨ (∃ r ∈ m.relationships, x = .link m.name r.1) ∨
      (m.enableSubscriptions = true ∧ ∃ f ∈ RootField.writes, x = .subscription m.name f) ∨
        m.isRateLimited = true ∧ x = .jobResult m.name := by
  have every (f : RootField) : f ∈ RootField.all := by cases f <;> decide
  unfold apiFields rootFields links subscribed jobResults
  cases m.enableSubscriptions <;> cases m.isRateLimited <;>
    simp [every, eq_comm (a := x)]

theorem model?_of_mem (member : x ∈ m.apiFields) : x.model? = some m.name := by
  rcases mem_apiFields.mp member with ⟨f, rfl⟩ | ⟨r, _, rfl⟩ | ⟨_, f, _, rfl⟩ | ⟨_, rfl⟩
  all_goals rfl

theorem apiFields_nodup (apart : (m.relationships.map fun r => r.1).Nodup) :
    m.apiFields.Nodup := by
  have roots : m.rootFields.Nodup :=
    List.Nodup.map (fun f g same => (ApiField.root.inj same).2) (by decide)
  have links : m.links.Nodup := by
    have named := List.Nodup.map (f := ApiField.link m.name)
      (fun a b same => (ApiField.link.inj same).2) apart
    rwa [List.map_map] at named
  have subscribed : m.subscribed.Nodup := by
    unfold subscribed
    split
    · exact List.Nodup.map (fun f g same => (ApiField.subscription.inj same).2) (by decide)
    · exact List.nodup_nil
  have jobResults : m.jobResults.Nodup := by
    unfold jobResults
    split
    · exact List.nodup_singleton _
    · exact List.nodup_nil
  -- the parts hold fields of different kinds
  refine ((roots.append links ?_).append subscribed ?_).append jobResults ?_
  · intro x root link
    obtain ⟨f, _, rfl⟩ := List.mem_map.mp root
    obtain ⟨r, _, same⟩ := List.mem_map.mp link
    cases same
  · intro x earlier change
    have kind : ∃ f, x = .subscription m.name f := by
      unfold Model.subscribed at change
      split at change
      · obtain ⟨f, _, rfl⟩ := List.mem_map.mp change
        exact ⟨f, rfl⟩
      · cases change
    obtain ⟨f, rfl⟩ := kind
    simp [Model.rootFields, Model.links] at earlier
  · intro x earlier result
    have kind : x = .jobResult m.name := by
      unfold Model.jobResults at result
      split at result
      · exact List.mem_singleton.mp result
      · cases result
    subst kind
    unfold Model.subscribed at earlier
    split at earlier <;> simp [Model.rootFields, Model.links] at earlier

end Model

/-! ### Fields of a set -/

section Sets

variable {models : List Model}

theorem mem_sharedFields {x : ApiField} (member : x ∈ sharedFields models) :
    x = .publication ∨ x = .completion := by
  unfold sharedFields at member
  split at member
  · simpa using member
  · cases member

theorem apiFields_nodup (names : (models.map (·.name)).Nodup)
    (apart : ∀ m ∈ models, (m.relationships.map fun r => r.1).Nodup) :
    (apiFields models).Nodup := by
  have own : (models.flatMap Model.apiFields).Nodup := by
    refine List.nodup_flatMap.mpr ⟨fun m member => Model.apiFields_nodup (apart m member), ?_⟩
    refine (List.pairwise_map.mp names).imp fun {m n} different x first second => different ?_
    have same := (Model.model?_of_mem first).symm.trans (Model.model?_of_mem second)
    exact Option.some.inj same
  have shared : (sharedFields models).Nodup := by
    unfold sharedFields
    split <;> decide
  refine own.append shared fun x first second => ?_
  obtain ⟨m, _, listed⟩ := List.mem_flatMap.mp first
  have owned := Model.model?_of_mem listed
  rcases mem_sharedFields second with rfl | rfl <;> cases owned

theorem root_mem_apiFields {m : Model} (member : m ∈ models) (field : RootField) :
    .root m.name field ∈ apiFields models := by
  refine List.mem_append_left _ (List.mem_flatMap.mpr ⟨m, member, ?_⟩)
  exact Model.mem_apiFields.mpr (Or.inl ⟨field, rfl⟩)

theorem exists_of_model? {a : String} {x : ApiField} (member : x ∈ apiFields models)
    (owned : x.model? = some a) : ∃ m ∈ models, m.name = a ∧ x ∈ m.apiFields := by
  rcases List.mem_append.mp member with own | shared
  · obtain ⟨m, listed, field⟩ := List.mem_flatMap.mp own
    exact ⟨m, listed, Option.some.inj ((Model.model?_of_mem field).symm.trans owned), field⟩
  · rcases mem_sharedFields shared with rfl | rfl <;> cases owned

theorem exists_of_jobResult {a : String} (member : .jobResult a ∈ apiFields models) :
    ∃ m ∈ models, m.isRateLimited = true ∧ m.name = a := by
  obtain ⟨m, listed, named, field⟩ := exists_of_model? member rfl
  rcases Model.mem_apiFields.mp field with
    ⟨f, same⟩ | ⟨r, _, same⟩ | ⟨_, f, _, same⟩ | ⟨queued, same⟩
  · cases same
  · cases same
  · cases same
  · exact ⟨m, listed, queued, named⟩

theorem isProper_of_mem (unreserved : ∀ m ∈ models, m.name ∉ Review.reservedTypes) {x : ApiField}
    (member : x ∈ apiFields models) : x.IsProper := by
  cases x with
  | link a field =>
    obtain ⟨m, listed, rfl, _⟩ := exists_of_model? member rfl
    intro rooted
    have reserved : ∀ name ∈ rootTypeNames, name ∈ Review.reservedTypes := by decide
    exact unreserved m listed (reserved _ rooted)
  | _ => trivial

/-- In a set whose root names are apart, no two fields stand at one place. -/
theorem place_injective (unreserved : ∀ m ∈ models, m.name ∉ Review.reservedTypes)
    (apart : RootNamesApart models)
    {x y : ApiField} (first : x ∈ apiFields models) (second : y ∈ apiFields models)
    (same : x.place = y.place) : x = y := by
  have unmet {x y : ApiField} (first : x ∈ apiFields models) (second : y ∈ apiFields models)
      (meets : x.Meets y) : x = y := by
    cases meets with
    | plurals plural =>
      obtain ⟨m, listed, rfl, _⟩ := exists_of_model? first rfl
      obtain ⟨n, member, rfl, _⟩ := exists_of_model? second rfl
      rw [List.inj_on_of_nodup_map apart.plurals listed member plural]
    | result a =>
      obtain ⟨n, member, named, _⟩ := exists_of_model? first rfl
      obtain ⟨m, listed, queued, rfl⟩ := exists_of_jobResult second
      exact absurd named (apart.results m listed queued n member)
  rcases ApiField.meets_of_place (isProper_of_mem unreserved first)
    (isProper_of_mem unreserved second) same with same | meets | meets
  · exact same
  · exact unmet first second meets
  · exact (unmet second first meets).symm

/-- Two different places for each two fields are as much as root names that are apart. -/
theorem rootNamesApart_of_injective (names : (models.map (·.name)).Nodup)
    (injective : ∀ x ∈ apiFields models, ∀ y ∈ apiFields models, x.place = y.place → x = y) :
    RootNamesApart models := by
  constructor
  · refine (List.nodup_map_iff_inj_on (List.Nodup.of_map _ names)).mpr ?_
    intro m listed n member same
    have placed : (ApiField.root m.name .list).place = (ApiField.root n.name .list).place := by
      simp [ApiField.place, Naming.rootField, same]
    have one := injective _ (root_mem_apiFields listed _) _ (root_mem_apiFields member _) placed
    exact List.inj_on_of_nodup_map names listed member (ApiField.root.inj one).1
  · intro m listed queued n member named
    have served : .jobResult m.name ∈ apiFields models := by
      refine List.mem_append_left _ (List.mem_flatMap.mpr ⟨m, listed, ?_⟩)
      exact Model.mem_apiFields.mpr (Or.inr (Or.inr (Or.inr ⟨queued, rfl⟩)))
    have placed : (ApiField.root n.name .get).place = (ApiField.jobResult m.name).place := by
      rw [ApiField.place, ApiField.place, named,
        Naming.rootField_eq_jobResultField.mpr ⟨rfl, rfl⟩]
      rfl
    cases injective _ (root_mem_apiFields member _) _ served placed

end Sets

end ApiLoom
