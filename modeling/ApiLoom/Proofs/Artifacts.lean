import ApiLoom.Compilation.Artifact
import ApiLoom.Proofs.Collisions
import Mathlib.Data.List.Dedup

/-!
# Artifacts that are kept

A later artifact takes the place of an earlier one with the same path.  Which templates
of a reviewed set get lost that way: none, as long as the names of its root fields are
apart, and some otherwise.
-/

namespace ApiLoom

/-! ### The last of each path -/

namespace Compilation

theorem any_path_iff {a : Artifact} {rest : List Artifact} :
    (rest.any fun b => b.path = a.path) = true ↔ a.path ∈ rest.map (·.path) := by
  rw [List.any_eq_true, List.mem_map]
  simp only [decide_eq_true_eq]

theorem lastOfEach_paths (files : List Artifact) :
    (lastOfEach files).map (·.path) = (files.map (·.path)).dedup := by
  induction files with
  | nil => rfl
  | cons a rest ih =>
    unfold lastOfEach
    rw [List.map_cons]
    by_cases later : a.path ∈ rest.map (·.path)
    · rw [if_pos (any_path_iff.mpr later), List.dedup_cons_of_mem later, ih]
    · rw [if_neg (mt any_path_iff.mp later), List.dedup_cons_of_notMem later, List.map_cons, ih]

theorem lastOfEach_of_nodup {files : List Artifact} (apart : (files.map (·.path)).Nodup) :
    lastOfEach files = files := by
  induction files with
  | nil => rfl
  | cons a rest ih =>
    obtain ⟨last, others⟩ := List.nodup_cons.mp apart
    rw [lastOfEach, if_neg (mt any_path_iff.mp last), ih others]

/-- The last file of its path is kept. -/
theorem mem_lastOfEach {a : Artifact} {before behind : List Artifact}
    (last : a.path ∉ behind.map (·.path)) : a ∈ lastOfEach (before ++ a :: behind) := by
  induction before with
  | nil =>
    rw [List.nil_append, lastOfEach, if_neg (mt any_path_iff.mp last)]
    exact List.mem_cons_self
  | cons b rest ih =>
    rw [List.cons_append, lastOfEach]
    split
    · exact ih
    · exact List.mem_cons_of_mem _ ih

end Compilation

theorem dedup_filter {α : Type} [DecidableEq α] (p : α → Bool) (xs : List α) :
    xs.dedup.filter p = (xs.filter p).dedup := by
  induction xs with
  | nil => rfl
  | cons x rest ih =>
    by_cases later : x ∈ rest
    · rw [List.dedup_cons_of_mem later, ih]
      cases kept : p x with
      | true =>
        rw [List.filter_cons_of_pos kept,
          List.dedup_cons_of_mem (List.mem_filter.mpr ⟨later, kept⟩)]
      | false => rw [List.filter_cons_of_neg (by simp [kept])]
    · rw [List.dedup_cons_of_notMem later]
      cases kept : p x with
      | true =>
        have last : x ∉ rest.filter p := fun member => later (List.mem_of_mem_filter member)
        rw [List.filter_cons_of_pos kept, List.filter_cons_of_pos kept,
          List.dedup_cons_of_notMem last, ih]
      | false =>
        have dropped : ¬ p x = true := by simp [kept]
        rw [List.filter_cons_of_neg dropped, List.filter_cons_of_neg dropped, ih]

/-- Each element of a list is counted once, so all are counted only where they are apart. -/
theorem length_dedup {α : Type} [DecidableEq α] (xs : List α) :
    (xs.dedup.length = xs.length ↔ xs.Nodup) ∧ (¬ xs.Nodup → xs.dedup.length < xs.length) := by
  have shorter := (List.dedup_sublist xs).length_le
  have same : xs.dedup.length = xs.length ↔ xs.Nodup := by
    constructor
    · intro full
      rw [← List.dedup_eq_self]
      exact (List.dedup_sublist xs).eq_of_length full
    · intro apart
      rw [List.dedup_eq_self.mpr apart]
  refine ⟨same, fun repeated => ?_⟩
  have differ : xs.dedup.length ≠ xs.length := fun full => repeated (same.mp full)
  omega

/-! ### Template files -/

/-- The path ends like those of templates. -/
def isTemplatePath (path : String) : Bool := ".vtl".toList.isSuffixOf path.toList

def Artifact.isTemplate (a : Artifact) : Bool := isTemplatePath a.path

namespace Compilation

variable {c : Compilation}

def templateFiles (c : Compilation) : List Artifact := c.artifacts.filter Artifact.isTemplate

def templatePaths (c : Compilation) : List String := c.templateArtifacts.map (·.path)

def exchangePaths (c : Compilation) : List String := c.exchanges.map fun e => e.1

theorem templatePaths_eq (c : Compilation) :
    c.templatePaths = c.exchangePaths.flatMap fun path =>
      [path ++ ".request.vtl", path ++ ".response.vtl"] := by
  rw [templatePaths, templateArtifacts, exchangePaths, List.map_flatMap, List.flatMap_map]
  rfl

theorem length_templatePaths (c : Compilation) : c.templatePaths.length = c.countTemplates := by
  rw [templatePaths_eq, countTemplates, exchangePaths, List.flatMap_map]
  induction c.exchanges with
  | nil => rfl
  | cons e rest ih =>
    rw [List.flatMap_cons, List.length_append, ih, List.length_cons]
    simp only [List.length_cons, List.length_nil]
    omega

theorem request_ne_response (s t : String) : s ++ ".request.vtl" ≠ t ++ ".response.vtl" := by
  intro same
  have ends := congrArg (fun s => s.toList.reverse) same
  simp at ends

theorem templatePaths_nodup : c.templatePaths.Nodup ↔ c.exchangePaths.Nodup := by
  rw [templatePaths_eq, List.nodup_flatMap]
  constructor
  · rintro ⟨_, apart⟩
    refine apart.imp fun {s t} disjoint same => ?_
    subst same
    exact disjoint List.mem_cons_self List.mem_cons_self
  · intro apart
    refine ⟨fun path _ => ?_, List.Pairwise.imp (fun {s t} different x first second => ?_) apart⟩
    · rw [List.nodup_cons]
      refine ⟨?_, List.nodup_singleton _⟩
      rw [List.mem_singleton]
      exact request_ne_response _ _
    · simp only [List.mem_cons, List.not_mem_nil, or_false] at first second
      rcases first with rfl | rfl
      · rcases second with same | same
        · exact different ((String.append_left_inj _).mp same)
        · exact request_ne_response _ _ same
      · rcases second with same | same
        · exact request_ne_response _ _ same.symm
        · exact different ((String.append_left_inj _).mp same)

/-- All artifacts before any is replaced. -/
def candidates (c : Compilation) : List Artifact :=
  ⟨schemaPath, c.schema.text⟩ :: c.templateArtifacts ++ [c.resolversArtifact, c.indexesArtifact]

theorem artifacts_perm (c : Compilation) : c.artifacts.Perm (lastOfEach c.candidates) :=
  List.mergeSort_perm ..

theorem isTemplate_of_mem {a : Artifact} (member : a ∈ c.templateArtifacts) :
    a.isTemplate = true := by
  obtain ⟨e, _, listed⟩ := List.mem_flatMap.mp member
  simp only [List.mem_cons, List.not_mem_nil, or_false] at listed
  rcases listed with rfl | rfl
  · exact List.isSuffixOf_iff_suffix.mpr ⟨e.1.toList ++ ".request".toList, by simp⟩
  · exact List.isSuffixOf_iff_suffix.mpr ⟨e.1.toList ++ ".response".toList, by simp⟩

/-- The files beside the templates have other paths. -/
theorem otherPaths : isTemplatePath schemaPath = false ∧ isTemplatePath resolversPath = false ∧
    isTemplatePath indexesPath = false := by
  decide

theorem candidates_paths (c : Compilation) : c.candidates.map (·.path) =
    schemaPath :: c.templatePaths ++ [resolversPath, indexesPath] := by
  rw [candidates, List.map_append, List.map_cons]
  rfl

theorem candidates_templates (c : Compilation) :
    (c.candidates.map (·.path)).filter isTemplatePath = c.templatePaths := by
  have kept : c.templatePaths.filter isTemplatePath = c.templatePaths := by
    refine List.filter_eq_self.mpr fun path member => ?_
    obtain ⟨a, listed, rfl⟩ := List.mem_map.mp member
    exact isTemplate_of_mem listed
  obtain ⟨schema, resolvers, indexes⟩ := otherPaths
  rw [candidates_paths, List.filter_append, List.filter_cons, schema, kept, List.filter_cons,
    resolvers, List.filter_cons, indexes]
  exact List.append_nil _

/-- There are as many template files as there are different paths of templates. -/
theorem length_templateFiles (c : Compilation) :
    c.templateFiles.length = c.templatePaths.dedup.length := by
  have sorted : c.templateFiles.length =
      ((lastOfEach c.candidates).filter Artifact.isTemplate).length :=
    (c.artifacts_perm.filter _).length_eq
  have paths : ((lastOfEach c.candidates).filter Artifact.isTemplate).map (·.path) =
      c.templatePaths.dedup := by
    rw [← candidates_templates, ← dedup_filter, ← lastOfEach_paths, List.filter_map]
    rfl
  rw [sorted, ← paths, List.length_map]

/-- Where no two templates have one path, no two artifacts have. -/
theorem candidates_nodup (apart : c.templatePaths.Nodup) : (c.candidates.map (·.path)).Nodup := by
  have foreign {path : String} (other : isTemplatePath path = false) :
      path ∉ c.templatePaths := by
    intro member
    rw [← candidates_templates] at member
    rw [(List.mem_filter.mp member).2] at other
    cases other
  obtain ⟨schema, resolvers, indexes⟩ := otherPaths
  rw [candidates_paths, List.cons_append, List.nodup_cons]
  constructor
  · intro member
    rcases List.mem_append.mp member with template | descriptor
    · exact foreign schema template
    · exact absurd descriptor (by decide)
  · refine apart.append (by decide) fun path template descriptor => ?_
    simp only [List.mem_cons, List.not_mem_nil, or_false] at descriptor
    rcases descriptor with rfl | rfl
    · exact foreign resolvers template
    · exact foreign indexes template

/-- Then all of them are kept. -/
theorem artifacts_perm_candidates (apart : c.templatePaths.Nodup) :
    c.artifacts.Perm c.candidates := by
  have kept := c.artifacts_perm
  rwa [lastOfEach_of_nodup (candidates_nodup apart)] at kept

theorem templateArtifacts_subset (apart : c.templatePaths.Nodup) :
    ∀ a ∈ c.templateArtifacts, a ∈ c.artifacts := fun _ member =>
  (artifacts_perm_candidates apart).mem_iff.mpr
    (List.mem_append_left _ (List.mem_cons_of_mem _ member))

end Compilation

/-! ### Paths -/

namespace StageKind

/-- How the name of a stage goes on behind that of its field. -/
def suffix : StageKind → String
  | beforeHook => "BeforeHook"
  | preFetch => "PreFetch"
  | main => "Main"
  | afterHook => "AfterHook"

theorem suffix_inj {s t : String} {k l : StageKind} (same : s ++ k.suffix = t ++ l.suffix) :
    k = l ∧ s = t := by
  have letters := congrArg (fun s => s.toList.reverse) same
  have kinds : k = l := by
    cases k <;> cases l <;> first | rfl | simp [suffix] at letters
  subst kinds
  exact ⟨rfl, (String.append_left_inj _).mp same⟩

end StageKind

/-- What a pair of templates is for. -/
inductive Slot where
  | field (field : ApiField)
  | stage (model : String) (field : RootField) (kind : StageKind)
deriving DecidableEq, Repr

def FieldPlace.path (p : FieldPlace) : String := s!"resolvers/{p.1}.{p.2}"

def Slot.path : Slot → String
  | field x => FieldPlace.path x.place
  | stage model root kind => s!"functions/{Naming.rootField model root ++ kind.suffix}"

/-- The first sign of a kind tells where a text that stands before it ends. -/
theorem append_sign_inj {sign : Char} {a b c d : List Char} (first : sign ∉ a)
    (second : sign ∉ b) (same : a ++ sign :: c = b ++ sign :: d) : a = b ∧ c = d := by
  induction a generalizing b with
  | nil =>
    cases b with
    | nil => exact ⟨rfl, (List.cons.inj same).2⟩
    | cons y ys =>
      obtain ⟨rfl, _⟩ := List.cons.inj same
      exact absurd List.mem_cons_self second
  | cons x xs ih =>
    cases b with
    | nil =>
      obtain ⟨rfl, _⟩ := List.cons.inj same
      exact absurd List.mem_cons_self first
    | cons y ys =>
      obtain ⟨rfl, rest⟩ := List.cons.inj same
      obtain ⟨rfl, rfl⟩ := ih (fun member => first (List.mem_cons_of_mem _ member))
        (fun member => second (List.mem_cons_of_mem _ member)) rest
      exact ⟨rfl, rfl⟩

theorem FieldPlace.path_inj {p q : FieldPlace} (first : '.' ∉ p.1.toList)
    (second : '.' ∉ q.1.toList) (same : FieldPlace.path p = FieldPlace.path q) : p = q := by
  have letters := congrArg String.toList same
  simp only [FieldPlace.path, toString, String.toList_append, List.append_assoc,
    List.append_cancel_left_eq] at letters
  obtain ⟨types, fields⟩ := append_sign_inj first second letters
  exact Prod.ext (String.toList_inj.mp types) (String.toList_inj.mp fields)

theorem Slot.path_field_ne_stage {x : ApiField} {model : String} {root : RootField}
    {kind : StageKind} : Slot.path (.field x) ≠ Slot.path (.stage model root kind) := by
  intro same
  have letters := congrArg String.toList same
  simp [Slot.path, FieldPlace.path, toString] at letters

theorem Slot.path_stage_inj {a b : String} {f g : RootField} {k l : StageKind}
    (same : Slot.path (.stage a f k) = Slot.path (.stage b g l)) :
    k = l ∧ Naming.rootField a f = Naming.rootField b g := by
  have letters := congrArg String.toList same
  simp only [Slot.path, toString, String.toList_append, List.append_cancel_left_eq] at letters
  rw [← String.toList_append, ← String.toList_append, String.toList_inj] at letters
  exact StageKind.suffix_inj letters

/-! ### Stages -/

namespace Model

variable {m : Model} {config : Config} {cluster : Option Cluster} {field : RootField}
  {binding : Binding}

def hookKind (m : Model) (field : RootField) (phase : HookPhase) : List StageKind :=
  if (nonEmpty (m.hooks.hookFor phase field.operation)).isSome then [phase.stageKind] else []

/-- The stages of a root field; a field that runs as a unit has none. -/
def stageKinds (m : Model) (field : RootField) : List StageKind :=
  if m.isUnit field then [] else
    m.hookKind field .before ++ (if m.isGated field then [.preFetch] else []) ++ [.main] ++
      m.hookKind field .after

theorem stageKinds_nodup (m : Model) (field : RootField) : (m.stageKinds field).Nodup := by
  unfold stageKinds hookKind
  split
  · exact List.nodup_nil
  · split <;> split <;> split <;> decide

/-- The name of a stage is that of the field and its kind. -/
def stageName (m : Model) (field : RootField) (kind : StageKind) : String :=
  Naming.rootField m.name field ++ kind.suffix

theorem hookStage_names (phase : HookPhase) :
    (m.hookStage field phase).map (·.name) =
      (m.hookKind field phase).map (m.stageName field) := by
  unfold hookStage hookKind
  cases nonEmpty (m.hooks.hookFor phase field.operation) with
  | none => rfl
  | some function =>
    cases phase with
    | before => exact congrArg (fun name => [name]) String.append_assoc
    | after => exact congrArg (fun name => [name]) String.append_assoc

theorem preFetchStage_names {fetch : List Stage}
    (fetched : m.preFetchStage config field binding = .ok fetch) :
    fetch.map (·.name) =
      (if m.isGated field then [StageKind.preFetch] else []).map (m.stageName field) := by
  cases gated : m.isGated field with
  | false =>
    simp only [preFetchStage, gated, Except.ok.injEq] at fetched
    rw [← fetched]
    rfl
  | true =>
    obtain ⟨owner, guarded⟩ := guardedOwner_of_isGated gated
    simp only [preFetchStage, gated, preFetch, guarded, Option.map_some] at fetched
    split at fetched
    · cases fetched
    · rw [← Except.ok.inj fetched]
      rfl

theorem resolver_stageNames {r : RootResolver}
    (resolved : m.resolver config cluster field = .ok r) :
    r.stages.map (·.name) = (m.stageKinds field).map (m.stageName field) := by
  obtain ⟨_, _, _, ⟨unit, rfl⟩ | ⟨staged, fetch, fetched, rfl⟩⟩ := resolver_ok resolved
  · rw [stageKinds, if_pos unit]
    rfl
  · have stages (binding : Binding) : (m.pipelineResolver config field binding fetch).stages =
      m.hookStage field .before ++ fetch ++ [m.mainStage config field binding] ++
        m.hookStage field .after := rfl
    rw [stageKinds, if_neg (by simp [staged]), stages]
    simp only [List.map_append, hookStage_names, preFetchStage_names fetched]
    rfl

def stageSlots (m : Model) : List Slot :=
  RootField.all.flatMap fun field => (m.stageKinds field).map (.stage m.name field)

theorem mem_stageSlots {x : Slot} (member : x ∈ m.stageSlots) :
    ∃ field kind, x = .stage m.name field kind := by
  obtain ⟨field, _, staged⟩ := List.mem_flatMap.mp member
  obtain ⟨kind, _, rfl⟩ := List.mem_map.mp staged
  exact ⟨field, kind, rfl⟩

theorem stageSlots_nodup (m : Model) : m.stageSlots.Nodup := by
  refine List.nodup_flatMap.mpr ⟨fun field _ => ?_, ?_⟩
  · exact (m.stageKinds_nodup field).map fun k l same => (Slot.stage.inj same).2.2
  · have fields : RootField.all.Nodup := by decide
    refine List.Pairwise.imp (fun {f g} different x first second => different ?_) fields
    obtain ⟨k, _, rfl⟩ := List.mem_map.mp first
    obtain ⟨l, _, same⟩ := List.mem_map.mp second
    exact (Slot.stage.inj same).2.1.symm

end Model

/-! ### Paths of a set -/

def slots (models : List Model) : List Slot :=
  (apiFields models).map .field ++ models.flatMap Model.stageSlots

section Sets

variable {models : List Model}

theorem slots_nodup (names : (models.map (·.name)).Nodup)
    (apart : ∀ m ∈ models, (m.relationships.map fun r => r.1).Nodup) :
    (slots models).Nodup := by
  have fields := (apiFields_nodup names apart).map fun x y same => Slot.field.inj same
  have stages : (models.flatMap Model.stageSlots).Nodup := by
    refine List.nodup_flatMap.mpr ⟨fun m _ => m.stageSlots_nodup, ?_⟩
    refine (List.pairwise_map.mp names).imp fun {m n} different x first second => different ?_
    obtain ⟨f, k, rfl⟩ := Model.mem_stageSlots first
    obtain ⟨g, l, same⟩ := Model.mem_stageSlots second
    exact (Slot.stage.inj same).1
  refine fields.append stages fun x first second => ?_
  obtain ⟨field, _, rfl⟩ := List.mem_map.mp first
  obtain ⟨m, _, staged⟩ := List.mem_flatMap.mp second
  obtain ⟨g, l, same⟩ := Model.mem_stageSlots staged
  cases same

theorem place_undotted (undotted : ∀ m ∈ models, '.' ∉ m.name.toList) {x : ApiField}
    (member : x ∈ apiFields models) : '.' ∉ x.place.1.toList := by
  cases x with
  | link a field =>
    obtain ⟨m, listed, rfl, _⟩ := exists_of_model? member rfl
    exact undotted m listed
  | _ =>
    have plain : ∀ name ∈ rootTypeNames, '.' ∉ name.toList := by decide
    exact plain _ (ApiField.place_rooted (by simp))

theorem field_mem_apiFields {x : ApiField} (member : .field x ∈ slots models) :
    x ∈ apiFields models := by
  rcases List.mem_append.mp member with field | stage
  · obtain ⟨y, listed, same⟩ := List.mem_map.mp field
    exact Slot.field.inj same ▸ listed
  · obtain ⟨m, _, owned⟩ := List.mem_flatMap.mp stage
    obtain ⟨g, l, same⟩ := Model.mem_stageSlots owned
    cases same

theorem stage_root_mem_apiFields {a : String} {f : RootField} {k : StageKind}
    (member : .stage a f k ∈ slots models) : .root a f ∈ apiFields models := by
  rcases List.mem_append.mp member with field | stage
  · obtain ⟨x, _, same⟩ := List.mem_map.mp field
    cases same
  · obtain ⟨m, listed, owned⟩ := List.mem_flatMap.mp stage
    obtain ⟨g, l, same⟩ := Model.mem_stageSlots owned
    obtain ⟨rfl, rfl, rfl⟩ := Slot.stage.inj same
    exact root_mem_apiFields listed _

/-- The paths are as different as the places of the fields. -/
theorem slots_paths_nodup (names : (models.map (·.name)).Nodup)
    (apart : ∀ m ∈ models, (m.relationships.map fun r => r.1).Nodup)
    (unreserved : ∀ m ∈ models, m.name ∉ Review.reservedTypes)
    (undotted : ∀ m ∈ models, '.' ∉ m.name.toList) :
    ((slots models).map Slot.path).Nodup ↔ RootNamesApart models := by
  rw [List.nodup_map_iff_inj_on (slots_nodup names apart)]
  constructor
  · intro injective
    refine rootNamesApart_of_injective names fun x first y second same => ?_
    have placed : Slot.path (.field x) = Slot.path (.field y) := congrArg FieldPlace.path same
    exact Slot.field.inj (injective _ (List.mem_append_left _ (List.mem_map_of_mem first)) _
      (List.mem_append_left _ (List.mem_map_of_mem second)) placed)
  · intro roots x first y second same
    cases x with
    | field x =>
      cases y with
      | field y =>
        have own := field_mem_apiFields first
        have other := field_mem_apiFields second
        have placed := FieldPlace.path_inj (place_undotted undotted own)
          (place_undotted undotted other) same
        rw [place_injective unreserved roots own other placed]
      | stage b g l => exact absurd same Slot.path_field_ne_stage
    | stage a f k =>
      cases y with
      | field y => exact absurd same.symm Slot.path_field_ne_stage
      | stage b g l =>
        obtain ⟨rfl, named⟩ := Slot.path_stage_inj same
        obtain ⟨rfl, _⟩ := Naming.rootField_inj.mp named
        have placed : (ApiField.root a f).place = (ApiField.root b f).place :=
          congrArg (Prod.mk f.parentType) named
        obtain ⟨rfl, _⟩ := ApiField.root.inj
          (place_injective unreserved roots (stage_root_mem_apiFields first)
            (stage_root_mem_apiFields second) placed)
        rfl

end Sets

/-! ### Compiled sets -/

def CompiledModel.stagePaths (c : CompiledModel) : List String :=
  c.resolvers.flatMap fun r => r.stages.map fun s => s!"functions/{s.name}"

namespace Model

variable {m : Model} {config : Config} {cluster : Option Cluster}
  {lookup : String → Option Model} {indexes : List SecondaryIndex} {c : CompiledModel}

theorem compileWith_stagePaths (compiled : m.compileWith config cluster lookup indexes = .ok c) :
    c.stagePaths = m.stageSlots.map Slot.path := by
  have each := map_eq_of_mapM_ok (fun field r resolved =>
    congrArg (List.map fun name => s!"functions/{name}") (resolver_stageNames resolved))
    (compileWith_ok compiled).1
  rw [CompiledModel.stagePaths, stageSlots, List.map_flatMap, List.flatMap_def, List.flatMap_def]
  simp only [List.map_map] at each ⊢
  exact congrArg List.flatten each

end Model

namespace Compilation

variable {config : Config} {models : List Model} {c : Compilation}

theorem modelExchanges_paths (m : CompiledModel) :
    ((modelExchanges m).map fun e => e.1).Perm (m.places.map FieldPlace.path ++ m.stagePaths) := by
  have roots := List.map_append_flatMap_perm m.resolvers (fun r => FieldPlace.path r.place)
    fun r => r.stages.map fun s => s!"functions/{s.name}"
  have exchanges : (modelExchanges m).map (fun e => e.1) =
      (m.resolvers.flatMap fun r => FieldPlace.path r.place ::
        r.stages.map fun s => s!"functions/{s.name}") ++
      (m.traversals.map fun r => FieldPlace.path r.place) ++
      m.sides.map fun r => FieldPlace.path r.place := by
    simp only [modelExchanges, List.map_append, List.map_flatMap, List.map_cons, List.map_map,
      CompiledModel.sides]
    rfl
  rw [exchanges, CompiledModel.places, List.map_append, List.map_append, List.map_map,
    List.map_map, List.map_map]
  refine List.Perm.trans (((roots.symm.append_right _).append_right _)) ?_
  refine List.perm_iff_count.mpr fun path => ?_
  simp only [List.count_append, CompiledModel.stagePaths, Function.comp_def]
  omega

theorem exchangePaths_perm (built : build config models = .ok c) :
    c.exchangePaths.Perm ((slots models).map Slot.path) := by
  obtain ⟨compiled, _⟩ := build_ok built
  have fields : c.places.map FieldPlace.path =
      (apiFields models).map fun x => Slot.path (.field x) := by
    rw [build_places built, List.map_map]
    rfl
  have stages : c.models.flatMap CompiledModel.stagePaths =
      models.flatMap fun m => m.stageSlots.map Slot.path := by
    rw [List.flatMap_def, List.flatMap_def,
      map_eq_of_mapM_ok (fun m c compiled => Model.compileWith_stagePaths compiled) compiled]
  have own : (c.models.flatMap fun m => (modelExchanges m).map fun e => e.1).Perm
      ((c.models.flatMap CompiledModel.places).map FieldPlace.path ++
        c.models.flatMap CompiledModel.stagePaths) := by
    rw [List.map_flatMap]
    exact (List.Perm.flatMap_left c.models fun m _ => modelExchanges_paths m).trans
      (List.flatMap_append_perm c.models (fun m => m.places.map FieldPlace.path) _).symm
  have paths : c.exchangePaths = (c.models.flatMap fun m => (modelExchanges m).map fun e => e.1) ++
      c.shared.map fun r => FieldPlace.path r.place := by
    rw [exchangePaths, exchanges, List.map_append, List.map_flatMap, List.map_map]
    rfl
  rw [slots, List.map_append, List.map_map, List.map_flatMap, ← stages]
  have listed : c.places.map FieldPlace.path = _ := List.map_append
  rw [paths, Function.comp_def, ← fields, listed, List.map_map]
  refine (own.append_right _).trans (List.perm_iff_count.mpr fun path => ?_)
  simp only [List.count_append, Function.comp_def]
  omega

end Compilation

/-- Each template of a reviewed set is kept under its own path where the names of its root fields
are apart; where they are not, there are fewer template files than templates.  There are none at
all where generation breaks off. -/
theorem templates_kept_iff {config : Config} {models : List Model} {seeds : Review.SeedData}
    (read : ∀ m ∈ models, m.IsRead) (passes : Review.Passes config models seeds) :
    Compilation.BreaksOff config models ∨ ∃ c, Compilation.build config models = .ok c ∧
      (c.templateFiles.length = c.countTemplates ∧ (∀ a ∈ c.templateArtifacts, a ∈ c.artifacts) ↔
        RootNamesApart models) ∧
      (¬ RootNamesApart models → c.templateFiles.length < c.countTemplates) := by
  refine passes.builds.imp id fun ⟨c, built⟩ => ?_
  obtain ⟨names, unreserved⟩ := passes.names
  have undotted : ∀ m ∈ models, '.' ∉ m.name.toList := fun m member =>
    (Text.isWord_of_isIdentifier (read m member).isDecoded.parts.1).undotted
  have apart := slots_paths_nodup names (fun m member => (read m member).relationships_nodup)
    unreserved undotted
  have paths : c.templatePaths.Nodup ↔ RootNamesApart models := by
    rw [Compilation.templatePaths_nodup, (Compilation.exchangePaths_perm built).nodup_iff, apart]
  obtain ⟨all, fewer⟩ := length_dedup c.templatePaths
  rw [← c.length_templateFiles, c.length_templatePaths, paths] at all fewer
  refine ⟨c, built, ⟨fun kept => all.mp kept.1, fun roots => ⟨all.mpr roots, ?_⟩⟩, fewer⟩
  exact Compilation.templateArtifacts_subset (paths.mpr roots)

theorem templates_lost_reportResult :
    ∃ m n c, Model.decode queuedReport = .ok m ∧
      Model.decode (storedModel "ReportJobResult") = .ok n ∧ Review.Passes .default [m, n] [] ∧
      Compilation.build .default [m, n] = .ok c ∧ c.templateFiles.length < c.countTemplates := by
  obtain ⟨m, n, first, second, queued, named, other, harmless, written⟩ : ∃ m n,
      Model.decode queuedReport = .ok m ∧ Model.decode (storedModel "ReportJobResult") = .ok n ∧
      m.isRateLimited = true ∧ m.name = "Report" ∧ n.name = "ReportJobResult" ∧
      (∀ f ∈ Review.all .default [m, n] [], f.level ≠ .error) ∧ ∀ x ∈ [m, n], ¬ x.HasLongLimit :=
    ⟨_, _, rfl, rfl, rfl, rfl, rfl, by decide +kernel, by decide +kernel⟩
  have keyed : queuedReport.Keyed := by
    simp [queuedReport]
  have read : ∀ x ∈ [m, n], x.IsRead := by
    intro x member
    simp only [List.mem_cons, List.not_mem_nil, or_false] at member
    rcases member with rfl | rfl
    · exact ⟨_, keyed, first⟩
    · exact ⟨_, storedModel_keyed _, second⟩
  have passes : Review.Passes .default [m, n] [] := Report.isValid_ofFindings.mpr harmless
  obtain ⟨c, built, _, lost⟩ :=
    (templates_kept_iff read passes).resolve_left (Compilation.not_breaksOff written)
  refine ⟨m, n, c, first, second, passes, built, lost fun apart => ?_⟩
  refine apart.results m List.mem_cons_self queued n (List.mem_cons_of_mem _ List.mem_cons_self) ?_
  rw [named, other]
  rfl

end ApiLoom
