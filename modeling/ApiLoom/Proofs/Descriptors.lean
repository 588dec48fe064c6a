import ApiLoom.Proofs.Exports
import ApiLoom.Proofs.JsonDocuments
import ApiLoom.Proofs.Stores

/-!
# Descriptors

What a reader of the descriptors gets from them.  The one of the resolvers tells of each resolver
where it is attached, what it runs against and which stages it has, and the one of the indexes has
the whole plan.  The templates of all that they tell of are among the artifacts.
-/

namespace ApiLoom

/-! ### Members in the order of their names -/

section Members

variable {members : List (String × Value)}

theorem Entries.get?_eq_some_iff (apart : (members.map (·.1)).Nodup) {key : String} {v : Value} :
    (memberEntries members).get? key = some v ↔ (key, v) ∈ members := by
  induction members with
  | nil => simp [memberEntries, Entries.get?]
  | cons m rest ih =>
    obtain ⟨new, apart⟩ := List.nodup_cons.mp apart
    have split : memberEntries (m :: rest) = (.text m.1, m.2) :: memberEntries rest := rfl
    rw [Entries.get?, split, List.mem_cons]
    by_cases first : m.1 = key
    · rw [List.find?_cons_of_pos (by simp [first]), Option.map_some]
      have absent : (key, v) ∉ rest := by
        intro member
        subst first
        exact new (List.mem_map_of_mem (f := (·.1)) member)
      simp [absent, Prod.ext_iff, first, eq_comm]
    · rw [List.find?_cons_of_neg (by simp [first])]
      exact (ih apart).trans (by simp [Prod.ext_iff, Ne.symm first])

namespace Json

/-- The members that are read where these were printed. -/
def sortedMembers (members : List (String × Value)) : List (String × Value) :=
  (members.map fun m => (m.1, sorted m.2)).mergeSort byName

theorem sortedMembers_perm (members : List (String × Value)) :
    (sortedMembers members).Perm (members.map fun m => (m.1, sorted m.2)) :=
  List.mergeSort_perm ..

theorem sortedMembers_names (members : List (String × Value)) :
    ((sortedMembers members).map (·.1)).Perm (members.map (·.1)) := by
  have names := (sortedMembers_perm members).map (·.1)
  rwa [List.map_map] at names

/-- The order of the members does not matter to a look-up. -/
theorem get?_sortedMembers (apart : (members.map (·.1)).Nodup) (key : String) :
    (memberEntries (sortedMembers members)).get? key =
      ((memberEntries members).get? key).map sorted := by
  have still := (sortedMembers_names members).nodup_iff.mpr apart
  ext v
  rw [Entries.get?_eq_some_iff still, (sortedMembers_perm members).mem_iff, Option.map_eq_some_iff,
    List.mem_map]
  constructor
  · rintro ⟨m, member, same⟩
    obtain ⟨rfl, rfl⟩ := Prod.mk.inj same
    exact ⟨m.2, (Entries.get?_eq_some_iff apart).mpr member, rfl⟩
  · rintro ⟨w, found, rfl⟩
    exact ⟨_, (Entries.get?_eq_some_iff apart).mp found, rfl⟩

theorem sorted_object_map {α : Type} (f : α → Value) (pairs : List (String × α)) :
    sorted (.object (pairs.map fun p => (p.1, f p.2))) =
      .object ((pairs.mergeSort byName).map fun p => (p.1, sorted (f p.2))) := by
  have order := List.map_mergeSort (f := fun p : String × α => (p.1, sorted (f p.2)))
    (r := byName) (s := byName) (l := pairs) fun a _ b _ => rfl
  rw [sorted_object, List.map_map, order]
  rfl

end Json

end Members

/-! ### Decoding what was printed -/

section Decoding

variable {α β : Type} {decoder : Decoder α}

theorem Checked.all_map {f : β → Checked α} {g : β → α} {xs : List β}
    (each : ∀ x ∈ xs, f x = .ok (g x)) : Checked.all (xs.map f) = .ok (xs.map g) := by
  induction xs with
  | nil => rfl
  | cons x rest ih =>
    obtain ⟨first, later⟩ := List.forall_mem_cons.mp each
    rw [List.map_cons, Checked.all, first, ih later]
    rfl

theorem Decoder.list_map {f : β → Value} {g : β → α} {xs : List β}
    (each : ∀ x ∈ xs, decoder (f x) = .ok (g x)) :
    Decoder.list decoder (.list (xs.map f)) = .ok (xs.map g) := by
  have items : ∀ position, Checked.all (Decoder.itemsFrom decoder position (xs.map f)) =
      .ok (xs.map g) := by
    induction xs with
    | nil => exact fun _ => rfl
    | cons x rest ih =>
      intro position
      obtain ⟨first, later⟩ := List.forall_mem_cons.mp each
      rw [List.map_cons, Decoder.itemsFrom, Checked.all, first, ih later]
      rfl
  exact items 0

theorem Decoder.list_sorted (f : β → Value) (g : β → α) {xs : List β}
    (each : ∀ x ∈ xs, decoder (Json.sorted (f x)) = .ok (g x)) :
    Decoder.list decoder (Json.sorted (.list (xs.map f))) = .ok (xs.map g) := by
  rw [Json.sorted_list, List.map_map]
  exact Decoder.list_map each

theorem Decoder.mapping_sorted (f : β → Value) (g : β → α) {pairs : List (String × β)}
    (each : ∀ p ∈ pairs, decoder (Json.sorted (f p.2)) = .ok (g p.2)) :
    Decoder.mapping decoder (Json.sorted (.object (pairs.map fun p => (p.1, f p.2)))) =
      .ok ((pairs.mergeSort Json.byName).map fun p => (p.1, g p.2)) := by
  rw [Json.sorted_object_map, Value.object, Decoder.mapping, List.map_map, List.map_map]
  apply Checked.all_map
  intro p member
  have read := each p (List.mem_mergeSort.mp member)
  simp only [Function.comp_apply, Decoder.entry, read]
  rfl

namespace FieldName

variable {members : List (String × Value)} {key : String} {v : Value} {a : α}

theorem find_sorted (apart : (members.map (·.1)).Nodup) (key : String) :
    (plain key).find (memberEntries (Json.sortedMembers members)) =
      ((memberEntries members).get? key).map fun v => (key, Json.sorted v) := by
  rw [find_plain, Json.get?_sortedMembers apart, Option.map_map]
  rfl

theorem required_sorted (apart : (members.map (·.1)).Nodup)
    (there : (memberEntries members).get? key = some v) (read : decoder (Json.sorted v) = .ok a) :
    (plain key).required decoder (memberEntries (Json.sortedMembers members)) = .ok a := by
  rw [required, find_sorted apart, there]
  simp only [Option.map_some, read]
  rfl

theorem withDefault_sorted (apart : (members.map (·.1)).Nodup) {default : α}
    (there : (memberEntries members).get? key = some v) (read : decoder (Json.sorted v) = .ok a) :
    (plain key).withDefault default decoder (memberEntries (Json.sortedMembers members)) =
      .ok a := by
  rw [withDefault, find_sorted apart, there]
  simp only [Option.map_some, read]
  rfl

theorem withDefault_absent (apart : (members.map (·.1)).Nodup) {default : α}
    (absent : (memberEntries members).get? key = none) :
    (plain key).withDefault default decoder (memberEntries (Json.sortedMembers members)) =
      .ok default := by
  rw [withDefault, find_sorted apart, absent]
  rfl

end FieldName

theorem unknownKeys_of_known {names : List FieldName} {record : Entries}
    (known : ∀ e ∈ record, ∃ n ∈ names, e.1 = .text n.key) : unknownKeys names record = .ok () := by
  have found {e : Scalar × Value} {n : FieldName} (listed : e ∈ record) (same : e.1 = .text n.key) :
      ∃ v, n.find record = some (n.key, v) := by
    cases there : record.get? n.key with
    | some v => exact ⟨v, by rw [FieldName.find, there]⟩
    | none =>
      have absent := List.find?_eq_none.mp (Option.map_eq_none_iff.mp there) e listed
      simp [same] at absent
  unfold unknownKeys
  dsimp only
  rw [if_pos]
  rw [List.isEmpty_iff, List.filterMap_eq_nil_iff]
  intro e listed
  obtain ⟨n, named, same⟩ := known e listed
  obtain ⟨v, there⟩ := found listed same
  have taken : n.key ∈ names.filterMap fun n => (n.find record).map (·.1) :=
    List.mem_filterMap.mpr ⟨n, named, by rw [there, Option.map_some]⟩
  simp only [same, List.contains_iff_mem.mpr taken, if_true]

/-- A mapping of these fields only is a record, in whichever order they were given. -/
theorem Decoder.record_sorted {className : String} {names : List FieldName}
    {fields : Entries → Checked α} {members : List (String × Value)} {a : α}
    (known : members.map (·.1) ⊆ names.map (·.key))
    (read : fields (memberEntries (Json.sortedMembers members)) = .ok a) :
    Decoder.record className names fields (Json.sorted (.object members)) = .ok a := by
  have keys : ∀ e ∈ memberEntries (Json.sortedMembers members),
      ∃ n ∈ names, e.1 = .text n.key := by
    intro e listed
    obtain ⟨m, member, rfl⟩ := List.mem_map.mp listed
    have name : m.1 ∈ members.map (·.1) :=
      (Json.sortedMembers_names members).mem_iff.mp (List.mem_map_of_mem (f := (·.1)) member)
    obtain ⟨n, named, same⟩ := List.mem_map.mp (known name)
    exact ⟨n, named, congrArg _ same.symm⟩
  have whole : Json.sorted (.object members) = .map (memberEntries (Json.sortedMembers members)) :=
    Json.sorted_object members
  rw [whole, Decoder.record, read, unknownKeys_of_known keys]
  rfl

end Decoding

/-! ### Values of descriptors -/

namespace Descriptor

def bindingMembers (b : Binding) : List (String × Value) :=
  [("kind", .text b.kind.word), ("name", .text b.name),
    ("details", .object (b.details.map fun d => (d.1, .text d.2)))]

def stageMembers (s : Stage) : List (String × Value) :=
  [("name", .text s.name), ("kind", .text s.kind.word), ("dataSource", bindingValue s.binding)]

def members (d : Descriptor) : List (String × Value) :=
  [("typeName", .text d.typeName), ("fieldName", .text d.fieldName),
    ("kind", .text (if d.stages.isEmpty then "UNIT" else "PIPELINE")),
    ("dataSource", (d.binding.map bindingValue).getD .null)] ++
      if d.stages.isEmpty then [] else [("functions", .list (d.stages.map stageValue))]

theorem bindingValue_eq (b : Binding) : bindingValue b = .object (bindingMembers b) := rfl

theorem stageValue_eq (s : Stage) : stageValue s = .object (stageMembers s) := rfl

theorem value_eq (d : Descriptor) : d.value = .object d.members := rfl

theorem bindingMembers_apart (b : Binding) : ((bindingMembers b).map (·.1)).Nodup := by
  change ["kind", "name", "details"].Nodup
  decide

theorem stageMembers_apart (s : Stage) : ((stageMembers s).map (·.1)).Nodup := by
  change ["name", "kind", "dataSource"].Nodup
  decide

theorem members_names (d : Descriptor) : d.members.map (·.1) =
    ["typeName", "fieldName", "kind", "dataSource"] ++
      if d.stages.isEmpty then [] else ["functions"] := by
  rw [members, List.map_append]
  cases d.stages <;> rfl

theorem members_apart (d : Descriptor) : (d.members.map (·.1)).Nodup := by
  rw [members_names]
  cases d.stages.isEmpty <;> decide

end Descriptor

def SecondaryIndex.members (i : SecondaryIndex) : List (String × Value) :=
  [("indexName", .text i.indexName), ("partitionKey", .text i.partitionKey)]

theorem SecondaryIndex.value_eq (i : SecondaryIndex) : i.value = .object i.members := rfl

theorem SecondaryIndex.members_apart (i : SecondaryIndex) : (i.members.map (·.1)).Nodup := by
  change ["indexName", "partitionKey"].Nodup
  decide

/-! ### What a reader gets -/

theorem Decoder.text_sorted (s : String) : Decoder.text (Json.sorted (.text s)) = .ok s := by
  rw [Json.sorted]
  rfl

namespace Binding

def kinds : List BindingKind :=
  [.documentTable, .relationalCluster, .httpEndpoint, .requestQueue, .function, .none]

def decode : Decoder Binding :=
  Decoder.record "DataSourceBinding" [.plain "kind", .plain "name", .plain "details"] fun record =>
    ((Checked.map Binding.mk
      ((FieldName.plain "kind").required (Decoder.word kinds BindingKind.word) record)).apply
      ((FieldName.plain "name").required Decoder.text record)).apply
      ((FieldName.plain "details").required (Decoder.mapping Decoder.text) record)

/-- The binding with its details in the order of their keys. -/
def inOrder (b : Binding) : Binding := { b with details := b.details.mergeSort Json.byName }

theorem decode_sorted (b : Binding) :
    decode (Json.sorted (Descriptor.bindingValue b)) = .ok b.inOrder := by
  have apart := Descriptor.bindingMembers_apart b
  have kind : Decoder.word kinds BindingKind.word (Json.sorted (.text b.kind.word)) =
      .ok b.kind := by
    rw [Json.sorted]
    cases b.kind <;> rfl
  have details : Decoder.mapping Decoder.text
      (Json.sorted (.object (b.details.map fun d => (d.1, .text d.2)))) =
        .ok (b.inOrder.details.map id) :=
    Decoder.mapping_sorted Value.text id fun d _ => Decoder.text_sorted d.2
  rw [List.map_id] at details
  rw [Descriptor.bindingValue_eq]
  refine Decoder.record_sorted (fun _ named => named) ?_
  rw [FieldName.required_sorted apart rfl kind,
    FieldName.required_sorted apart rfl (Decoder.text_sorted b.name),
    FieldName.required_sorted apart rfl details]
  rfl

end Binding

/-- A stage as a descriptor tells of it. -/
structure StageEntry where
  name : String
  kind : StageKind
  binding : Binding
deriving DecidableEq, Repr

namespace StageEntry

def kinds : List StageKind := [.beforeHook, .preFetch, .main, .afterHook]

def decode : Decoder StageEntry :=
  Decoder.record "PipelineStage" [.plain "name", .plain "kind", .plain "dataSource"] fun record =>
    ((Checked.map StageEntry.mk
      ((FieldName.plain "name").required Decoder.text record)).apply
      ((FieldName.plain "kind").required (Decoder.word kinds StageKind.word) record)).apply
      ((FieldName.plain "dataSource").required Binding.decode record)

def ofStage (s : Stage) : StageEntry := ⟨s.name, s.kind, s.binding.inOrder⟩

theorem decode_sorted (s : Stage) :
    decode (Json.sorted (Descriptor.stageValue s)) = .ok (ofStage s) := by
  have apart := Descriptor.stageMembers_apart s
  have kind : Decoder.word kinds StageKind.word (Json.sorted (.text s.kind.word)) =
      .ok s.kind := by
    rw [Json.sorted]
    cases s.kind <;> rfl
  rw [Descriptor.stageValue_eq]
  refine Decoder.record_sorted (fun _ named => named) ?_
  rw [FieldName.required_sorted apart rfl (Decoder.text_sorted s.name),
    FieldName.required_sorted apart rfl kind,
    FieldName.required_sorted apart rfl (Binding.decode_sorted s.binding)]
  rfl

end StageEntry

inductive ResolverKind where
  | unit
  | pipeline
deriving DecidableEq, Repr

def ResolverKind.word : ResolverKind → String
  | unit => "UNIT"
  | pipeline => "PIPELINE"

/-- A resolver as a descriptor tells of it. -/
structure ResolverEntry where
  typeName : String
  fieldName : String
  kind : ResolverKind
  binding : Option Binding
  functions : Option (List StageEntry)
deriving DecidableEq, Repr

namespace ResolverEntry

def fields : List FieldName :=
  [.plain "typeName", .plain "fieldName", .plain "kind", .plain "dataSource", .plain "functions"]

def decode : Decoder ResolverEntry :=
  Decoder.record "OperationResolver" fields fun record =>
    ((((Checked.map ResolverEntry.mk
      ((FieldName.plain "typeName").required Decoder.text record)).apply
      ((FieldName.plain "fieldName").required Decoder.text record)).apply
      ((FieldName.plain "kind").required
        (Decoder.word [.unit, .pipeline] ResolverKind.word) record)).apply
      ((FieldName.plain "dataSource").required (Decoder.orNull Binding.decode) record)).apply
      ((FieldName.plain "functions").withDefault none
        (fun v => (Decoder.list StageEntry.decode v).map some) record)

def ofDescriptor (d : Descriptor) : ResolverEntry where
  typeName := d.typeName
  fieldName := d.fieldName
  kind := if d.stages.isEmpty then .unit else .pipeline
  binding := d.binding.map Binding.inOrder
  functions := if d.stages.isEmpty then none else some (d.stages.map StageEntry.ofStage)

theorem binding_sorted (binding : Option Binding) : Decoder.orNull Binding.decode
    (Json.sorted ((binding.map Descriptor.bindingValue).getD .null)) =
      .ok (binding.map Binding.inOrder) := by
  cases binding with
  | none =>
    rw [Option.map_none, Option.getD_none, Json.sorted]
    rfl
  | some b =>
    let members := Json.sortedMembers (Descriptor.bindingMembers b)
    have whole : Json.sorted (Descriptor.bindingValue b) = .object members := Json.sorted_object _
    have read : Binding.decode (.object members) = .ok b.inOrder := whole ▸ b.decode_sorted
    rw [Option.map_some, Option.getD_some, whole]
    calc Decoder.orNull Binding.decode (.object members)
        = (Binding.decode (.object members)).map some := rfl
      _ = _ := by
        rw [read]
        rfl

theorem decode_sorted (d : Descriptor) :
    decode (Json.sorted d.value) = .ok (ofDescriptor d) := by
  have apart := d.members_apart
  have known : d.members.map (·.1) ⊆ fields.map (·.key) := by
    rw [d.members_names]
    cases d.stages.isEmpty <;> decide
  have kind : Decoder.word [.unit, .pipeline] ResolverKind.word
      (Json.sorted (.text (if d.stages.isEmpty then "UNIT" else "PIPELINE"))) =
        .ok (ofDescriptor d).kind := by
    rw [Json.sorted, ofDescriptor]
    cases d.stages.isEmpty <;> rfl
  have functions : (FieldName.plain "functions").withDefault none
      (fun v => (Decoder.list StageEntry.decode v).map some)
        (memberEntries (Json.sortedMembers d.members)) = .ok (ofDescriptor d).functions := by
    cases staged : d.stages.isEmpty with
    | true =>
      have absent : (memberEntries d.members).get? "functions" = none := by
        rw [Descriptor.members, staged]
        rfl
      rw [FieldName.withDefault_absent apart absent, ofDescriptor, staged]
      rfl
    | false =>
      have there : (memberEntries d.members).get? "functions" =
          some (.list (d.stages.map Descriptor.stageValue)) := by
        rw [Descriptor.members, staged]
        rfl
      have read := Decoder.list_sorted Descriptor.stageValue StageEntry.ofStage
        fun s (_ : s ∈ d.stages) => StageEntry.decode_sorted s
      rw [FieldName.withDefault_sorted apart there (by rw [read]; rfl), ofDescriptor, staged]
      rfl
  rw [Descriptor.value_eq]
  refine Decoder.record_sorted known ?_
  rw [FieldName.required_sorted apart rfl (Decoder.text_sorted d.typeName),
    FieldName.required_sorted apart rfl (Decoder.text_sorted d.fieldName),
    FieldName.required_sorted apart rfl kind,
    FieldName.required_sorted apart rfl (binding_sorted d.binding), functions]
  rfl

end ResolverEntry

namespace SecondaryIndex

def decode : Decoder SecondaryIndex :=
  Decoder.record "SecondaryIndexSpec" [.plain "indexName", .plain "partitionKey"] fun record =>
    (Checked.map SecondaryIndex.mk
      ((FieldName.plain "indexName").required Decoder.text record)).apply
      ((FieldName.plain "partitionKey").required Decoder.text record)

theorem decode_sorted (i : SecondaryIndex) : decode (Json.sorted i.value) = .ok i := by
  rw [value_eq]
  refine Decoder.record_sorted (fun _ named => named) ?_
  rw [FieldName.required_sorted i.members_apart rfl (Decoder.text_sorted i.indexName),
    FieldName.required_sorted i.members_apart rfl (Decoder.text_sorted i.partitionKey)]
  rfl

/-- The indexes of one model. -/
def listValue (indexes : List SecondaryIndex) : Value := .list (indexes.map value)

theorem decode_list_sorted (indexes : List SecondaryIndex) :
    Decoder.list decode (Json.sorted (listValue indexes)) = .ok indexes := by
  have read := Decoder.list_sorted value id fun i (_ : i ∈ indexes) => i.decode_sorted
  rwa [List.map_id] at read

end SecondaryIndex

/-! ### All resolvers -/

def Descriptor.bindings (d : Descriptor) : List Binding :=
  d.binding.toList ++ d.stages.map (·.binding)

namespace ResolverEntry

/-- A root resolver is a pipeline if it has stages, which run in their order. -/
def ofRoot (r : RootResolver) : ResolverEntry where
  typeName := r.typeName
  fieldName := r.fieldName
  kind := if r.isPipeline then .pipeline else .unit
  binding := r.execution.binding.map Binding.inOrder
  functions := if r.isPipeline then some (r.stages.map StageEntry.ofStage) else none

/-- Any other resolver runs against its store itself. -/
def ofUnit (typeName fieldName : String) (binding : Binding) : ResolverEntry :=
  ⟨typeName, fieldName, .unit, some binding.inOrder, none⟩

def ofModel (k : CompiledModel) : List ResolverEntry :=
  k.resolvers.map ofRoot ++
    (k.traversals.map fun t => ofUnit t.typeName t.fieldName t.binding) ++
    (k.subscriptions ++ k.jobResultLookup.toList).map fun s =>
      ofUnit s.typeName s.fieldName s.binding

/-- Where the templates of the resolver and of its functions are. -/
def places (e : ResolverEntry) : List String :=
  s!"resolvers/{e.typeName}.{e.fieldName}" ::
    (e.functions.getD []).map fun f => s!"functions/{f.name}"

theorem ofDescriptor_ofRoot (r : RootResolver) : ofDescriptor (.ofRoot r) = ofRoot r := by
  have staged : (Descriptor.ofRoot r).stages = r.stages := rfl
  rw [ofDescriptor, ofRoot, RootResolver.isPipeline, staged]
  cases r.stages.isEmpty <;> rfl

theorem ofDescriptor_ofModel (k : CompiledModel) :
    (Descriptor.ofModel k).map ofDescriptor = ofModel k := by
  rw [Descriptor.ofModel, ofModel, List.map_append, List.map_append, List.map_map, List.map_map,
    List.map_map]
  simp only [Function.comp_def, ofDescriptor_ofRoot]
  rfl

theorem ofRoot_places (r : RootResolver) :
    (ofRoot r).places = s!"resolvers/{r.typeName}.{r.fieldName}" ::
      r.stages.map fun s => s!"functions/{s.name}" := by
  rw [places, ofRoot, RootResolver.isPipeline]
  cases staged : r.stages with
  | nil => rfl
  | cons s rest => simp [StageEntry.ofStage]

theorem ofUnit_places (typeName fieldName : String) (binding : Binding) :
    (ofUnit typeName fieldName binding).places = [s!"resolvers/{typeName}.{fieldName}"] := rfl

theorem ofModel_places (k : CompiledModel) :
    (ofModel k).flatMap places = (Compilation.modelExchanges k).map (·.1) := by
  simp only [ofModel, Compilation.modelExchanges, List.flatMap_append, List.flatMap_map,
    List.map_append, List.map_flatMap, List.map_cons, List.map_map, ofRoot_places,
    ofUnit_places]
  rw [← List.map_eq_flatMap, ← List.map_eq_flatMap, ← List.map_eq_flatMap]
  rfl

end ResolverEntry

namespace Compilation

/-- One entry for each resolver of the compilation. -/
def entries (c : Compilation) : List ResolverEntry :=
  c.models.flatMap ResolverEntry.ofModel ++
    c.shared.map fun s => .ofUnit s.typeName s.fieldName s.binding

theorem entries_eq (c : Compilation) : c.entries = c.unsorted.map ResolverEntry.ofDescriptor := by
  rw [entries, unsorted, List.map_append, List.map_flatMap, List.map_map]
  simp only [ResolverEntry.ofDescriptor_ofModel]
  rfl

theorem entries_places (c : Compilation) :
    c.entries.flatMap ResolverEntry.places = c.exchangePaths := by
  rw [entries, exchangePaths, exchanges, List.flatMap_append, List.map_append, List.flatMap_assoc,
    List.map_flatMap, List.flatMap_map, List.map_map]
  simp only [ResolverEntry.ofModel_places, ResolverEntry.ofUnit_places]
  rw [← List.map_eq_flatMap]
  rfl

end Compilation

/-! ### Mappings with keys -/

/-- Each detail has a key of its own. -/
def Binding.IsKeyed (b : Binding) : Prop := (b.details.map (·.1)).Nodup

/-- What the compilation keeps in mappings stands at keys of its own. -/
structure Compilation.Keyed (c : Compilation) : Prop where
  details : ∀ x ∈ c.requests, x.1.IsKeyed
  plan : (c.indexPlan.map (·.1)).Nodup

namespace Descriptor

theorem ofSide_bindings (s : SideResolver) : (ofSide s).bindings = [s.request.1] := rfl

theorem ofModel_bindings (k : CompiledModel) :
    (ofModel k).flatMap bindings = k.requests.map (·.1) := by
  have root (r : RootResolver) : (ofRoot r).bindings = r.requests.map (·.1) := by
    rw [bindings, ofRoot, RootResolver.stages, RootResolver.requests]
    cases r.execution with
    | unit binding => rfl
    | pipeline stages =>
      dsimp only [Execution.binding, Execution.stages]
      rw [List.map_map]
      rfl
  have traversal (t : TraversalResolver) : (ofTraversal t).bindings = [t.request.1] := rfl
  have sides : k.subscriptions ++ k.jobResultLookup.toList = k.sides := rfl
  rw [ofModel, sides, CompiledModel.requests, List.flatMap_append, List.flatMap_append,
    List.map_append, List.map_append, List.flatMap_map, List.flatMap_map, List.flatMap_map,
    List.map_flatMap, List.map_map, List.map_map]
  simp only [root, traversal, ofSide_bindings]
  rw [← List.map_eq_flatMap, ← List.map_eq_flatMap]
  rfl

end Descriptor

namespace Compilation

variable {c : Compilation}

theorem unsorted_bindings (c : Compilation) :
    c.unsorted.flatMap Descriptor.bindings = c.requests.map (·.1) := by
  rw [unsorted, requests, List.flatMap_append, List.map_append, List.flatMap_assoc,
    List.map_flatMap, List.flatMap_map, List.map_map]
  simp only [Descriptor.ofModel_bindings, Descriptor.ofSide_bindings]
  rw [← List.map_eq_flatMap]
  rfl

theorem Keyed.descriptor (keyed : c.Keyed) {d : Descriptor} (listed : d ∈ c.descriptors) :
    ∀ b ∈ d.bindings, b.IsKeyed := by
  intro b bound
  have among : b ∈ c.requests.map (·.1) := by
    rw [← unsorted_bindings]
    exact List.mem_flatMap.mpr ⟨d, List.mem_mergeSort.mp listed, bound⟩
  obtain ⟨x, asked, rfl⟩ := List.mem_map.mp among
  exact keyed.details x asked

end Compilation

/-! ### Values that are read back -/

namespace Value.IsTextual

variable {α : Type}

theorem list_map {f : α → Value} {xs : List α} (each : ∀ x ∈ xs, (f x).IsTextual) :
    (Value.list (xs.map f)).IsTextual := by
  apply IsTextual.list
  intro v member
  obtain ⟨x, listed, rfl⟩ := List.mem_map.mp member
  exact each x listed

theorem object_map (f : α → Value) {pairs : List (String × α)} (apart : (pairs.map (·.1)).Nodup)
    (each : ∀ p ∈ pairs, (f p.2).IsTextual) :
    (Value.object (pairs.map fun p => (p.1, f p.2))).IsTextual := by
  apply IsTextual.object
  · rw [List.map_map]
    exact apart
  · intro m member
    obtain ⟨p, listed, rfl⟩ := List.mem_map.mp member
    exact each p listed

end Value.IsTextual

theorem Descriptor.bindingValue_isTextual {b : Binding} (keyed : b.IsKeyed) :
    (bindingValue b).IsTextual := by
  have details : (Value.object (b.details.map fun d => (d.1, Value.text d.2))).IsTextual :=
    .object_map Value.text keyed fun d _ => .text d.2
  apply Value.IsTextual.object (bindingMembers_apart b)
  simp only [bindingMembers, List.forall_mem_cons]
  exact ⟨.text _, .text _, details, List.forall_mem_nil _⟩

theorem Descriptor.stageValue_isTextual {s : Stage} (keyed : s.binding.IsKeyed) :
    (stageValue s).IsTextual := by
  apply Value.IsTextual.object (stageMembers_apart s)
  simp only [stageMembers, List.forall_mem_cons]
  exact ⟨.text _, .text _, bindingValue_isTextual keyed, List.forall_mem_nil _⟩

theorem Descriptor.value_isTextual {d : Descriptor} (keyed : ∀ b ∈ d.bindings, b.IsKeyed) :
    d.value.IsTextual := by
  obtain ⟨own, staged⟩ := List.forall_mem_append.mp keyed
  have source : ((d.binding.map bindingValue).getD .null).IsTextual := by
    cases bound : d.binding with
    | none => exact .null
    | some b => exact bindingValue_isTextual (own b (by simp [bound]))
  have functions : (Value.list (d.stages.map stageValue)).IsTextual :=
    .list_map fun s listed => stageValue_isTextual (staged _ (List.mem_map_of_mem listed))
  apply Value.IsTextual.object d.members_apart
  intro m member
  rcases List.mem_append.mp member with fixed | further
  · simp only [List.mem_cons, List.not_mem_nil, or_false] at fixed
    rcases fixed with rfl | rfl | rfl | rfl
    · exact .text _
    · exact .text _
    · exact .text _
    · exact source
  · split at further
    · cases further
    · obtain rfl := List.mem_singleton.mp further
      exact functions

theorem SecondaryIndex.value_isTextual (i : SecondaryIndex) : i.value.IsTextual := by
  apply Value.IsTextual.object i.members_apart
  simp only [members, List.forall_mem_cons]
  exact ⟨.text _, .text _, List.forall_mem_nil _⟩

/-! ### Files -/

namespace Compilation

variable {c : Compilation}

theorem descriptorFiles_kept (c : Compilation) :
    c.resolversArtifact ∈ c.artifacts ∧ c.indexesArtifact ∈ c.artifacts := by
  rw [c.artifacts_perm.mem_iff, c.artifacts_perm.mem_iff, candidates]
  constructor
  · apply mem_lastOfEach
    change resolversPath ∉ [indexesPath]
    decide
  · rw [List.append_cons]
    exact mem_lastOfEach List.not_mem_nil

theorem mem_artifacts_paths {path : String} : path ∈ c.artifacts.map (·.path) ↔
    path = schemaPath ∨ path ∈ c.templatePaths ∨ path = resolversPath ∨ path = indexesPath := by
  rw [(c.artifacts_perm.map _).mem_iff, lastOfEach_paths, List.mem_dedup, candidates_paths]
  simp

/-- A manifest is none of the artifacts that it lists. -/
theorem manifest_notMem_artifacts (c : Compilation) :
    Manifest.fileName ∉ c.artifacts.map (·.path) := by
  rw [mem_artifacts_paths]
  rintro (schema | template | resolvers | indexes)
  · exact absurd schema (by decide)
  · obtain ⟨a, listed, same⟩ := List.mem_map.mp template
    have ends := isTemplate_of_mem listed
    rw [Artifact.isTemplate, same] at ends
    exact absurd ends (by decide)
  · exact absurd resolvers (by decide)
  · exact absurd indexes (by decide)

/-- The artifact of this path is a document that is decoded as this. -/
def Tells {α : Type} (c : Compilation) (path : String) (decoder : Decoder α) (a : α) : Prop :=
  ∃ content v, (⟨path, content⟩ : Artifact) ∈ c.artifacts ∧ Json.read content = .ok v ∧
    decoder v = .ok a

theorem tells_descriptors (keyed : c.Keyed) :
    c.Tells resolversPath (Decoder.list ResolverEntry.decode)
      (c.descriptors.map ResolverEntry.ofDescriptor) := by
  have textual : (Value.list (c.descriptors.map Descriptor.value)).IsTextual :=
    .list_map fun d listed => Descriptor.value_isTextual (keyed.descriptor listed)
  refine ⟨_, _, c.descriptorFiles_kept.1, Json.read_printSorted textual, ?_⟩
  exact Decoder.list_sorted _ _ fun d _ => ResolverEntry.decode_sorted d

theorem tells_indexPlan (keyed : c.Keyed) :
    c.Tells indexesPath (Decoder.mapping (Decoder.list SecondaryIndex.decode))
      (c.indexPlan.mergeSort Json.byName) := by
  have textual :
      (Value.object (c.indexPlan.map fun p => (p.1, SecondaryIndex.listValue p.2))).IsTextual :=
    .object_map _ keyed.plan fun p _ => .list_map fun i _ => i.value_isTextual
  refine ⟨_, _, c.descriptorFiles_kept.2, Json.read_printSorted textual, ?_⟩
  have read := Decoder.mapping_sorted SecondaryIndex.listValue id
    fun p (_ : p ∈ c.indexPlan) => SecondaryIndex.decode_list_sorted p.2
  exact read.trans (congrArg Checked.ok (List.map_id _))

end Compilation

/-! ### Built sets -/

namespace Binding

theorem forModel_isKeyed {m : Model} {cluster : Option Cluster} {config : Config} {b : Binding}
    (bound : forModel m cluster config = .ok b) : b.IsKeyed := by
  cases forModel_ok bound with
  | table | endpoint => exact List.nodup_singleton _
  | cluster =>
    change ["database", "secretRef", "table"].Nodup
    decide
  | queue =>
    change ["endpoint", "limit", "frequencyInSeconds", "queueUrlStashKey"].Nodup
    decide

end Binding

/-- Whatever a request is bound to, its details are at keys of their own. -/
theorem StoreRequest.IsAside.isKeyed {x : StoreRequest} {config : Config}
    (aside : x.IsAside config) : x.1.IsKeyed := by
  rcases aside.bound with same | same | ⟨function, same⟩ <;> rw [same]
  · exact List.nodup_nil
  · exact List.nodup_singleton _
  · exact List.nodup_nil

theorem Compilation.build_keyed {config : Config} {models : List Model} {c : Compilation}
    (built : build config models = .ok c) : c.Keyed := by
  constructor
  · intro x member
    rcases request_runsFor built member with ⟨m, _, runs⟩ | aside
    · exact Binding.forModel_isKeyed runs.bound
    · exact aside.isKeyed
  · have keys : c.indexPlan.map (·.1) = (models.map (·.name)).eraseDups := by
      rw [build_indexPlan built, ApiLoom.indexPlan, List.map_map]
      exact List.map_id _
    rw [keys]
    exact nodup_eraseDups _

/-- What the descriptors tell is decoded as one entry for each resolver, in the order of places, and
as the plan of the indexes.  The templates of each entry and of each function that it lists are
among the artifacts, which are in the order of their paths, and a manifest is not. -/
theorem descriptors_decode (c : Compilation) (keyed : c.Keyed) :
    (∃ entries, c.Tells Compilation.resolversPath (Decoder.list ResolverEntry.decode) entries ∧
      entries.Perm c.entries ∧
      entries.Pairwise (fun a b => a.typeName < b.typeName ∨
        a.typeName = b.typeName ∧ a.fieldName ≤ b.fieldName) ∧
      ∀ e ∈ entries, ∀ place ∈ e.places,
        place ++ ".request.vtl" ∈ c.artifacts.map (·.path) ∧
        place ++ ".response.vtl" ∈ c.artifacts.map (·.path)) ∧
    (∃ plan, c.Tells Compilation.indexesPath
        (Decoder.mapping (Decoder.list SecondaryIndex.decode)) plan ∧
      plan.Perm c.indexPlan) ∧
    (c.artifacts.map (·.path)).Pairwise (· < ·) ∧
    Manifest.fileName ∉ c.artifacts.map (·.path) := by
  have same : (c.descriptors.map ResolverEntry.ofDescriptor).Perm c.entries := by
    rw [c.entries_eq]
    exact (List.mergeSort_perm ..).map _
  refine ⟨⟨_, Compilation.tells_descriptors keyed, same, ?_, fun e listed place within => ?_⟩,
    ⟨_, Compilation.tells_indexPlan keyed, List.mergeSort_perm ..⟩, c.artifacts_paths_increase,
    c.manifest_notMem_artifacts⟩
  · have sorted :=
      List.pairwise_mergeSort Descriptor.before_trans Descriptor.before_total c.unsorted
    exact List.pairwise_map.mpr (sorted.imp Descriptor.before_iff.mp)
  · have exchanged : place ∈ c.exchangePaths := by
      rw [← c.entries_places]
      exact List.mem_flatMap.mpr ⟨e, same.mem_iff.mp listed, within⟩
    have templates : ∀ path ∈ [place ++ ".request.vtl", place ++ ".response.vtl"],
        path ∈ c.artifacts.map (·.path) := by
      intro path among
      rw [Compilation.mem_artifacts_paths, Compilation.templatePaths_eq]
      exact Or.inr (Or.inl (List.mem_flatMap.mpr ⟨place, exchanged, among⟩))
    exact ⟨templates _ List.mem_cons_self, templates _ (List.mem_cons_of_mem _ List.mem_cons_self)⟩

/-- Two resolvers at one place are told of one by one, though only one has its templates kept. -/
theorem descriptors_decode_reportResult :
    ∃ m n c entries, Model.decode queuedReport = .ok m ∧
      Model.decode (storedModel "ReportJobResult") = .ok n ∧
      Compilation.build .default [m, n] = .ok c ∧
      c.Tells Compilation.resolversPath (Decoder.list ResolverEntry.decode) entries ∧
      (entries.countP fun e => e.typeName = "Query" && e.fieldName = "getReportJobResult") = 2 := by
  obtain ⟨m, n, first, second⟩ : ∃ m n, Model.decode queuedReport = .ok m ∧
      Model.decode (storedModel "ReportJobResult") = .ok n := ⟨_, _, rfl, rfl⟩
  have twice : ((Model.decode queuedReport).toOption.any fun m =>
      (Model.decode (storedModel "ReportJobResult")).toOption.any fun n =>
        (Compilation.build .default [m, n]).toOption.any fun c =>
          (c.entries.countP fun e =>
            e.typeName = "Query" && e.fieldName = "getReportJobResult") = 2) = true := by
    decide +kernel
  rw [first, second] at twice
  change (Compilation.build .default [m, n]).toOption.any _ = true at twice
  cases built : Compilation.build .default [m, n] with
  | error failure =>
    rw [built] at twice
    cases twice
  | ok c =>
    rw [built] at twice
    obtain ⟨⟨entries, told, same, _⟩, _⟩ := descriptors_decode c (Compilation.build_keyed built)
    exact ⟨m, n, c, entries, first, second, built, told, same.countP_eq _ ▸ of_decide_eq_true twice⟩

end ApiLoom
