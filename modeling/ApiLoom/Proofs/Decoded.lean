import ApiLoom.Config
import ApiLoom.Model.Decode

/-!
# Decoded definitions

What holds of every model and of every configuration that was read from a
document: names are there, and the names that become part of the generated code
are identifiers.
-/

namespace ApiLoom

/-! ### Values without faults -/

namespace Checked

variable {α β : Type}

theorem ok_inj {a b : α} (same : Checked.ok a = Checked.ok b) : a = b :=
  Except.ok.inj same

theorem map_ok {f : α → β} {a : Checked α} {b : β} (read : a.map f = .ok b) :
    ∃ x, a = .ok x ∧ f x = b := by
  cases a with
  | error fs => cases read
  | ok x => exact ⟨x, rfl, ok_inj read⟩

theorem apply_ok {f : Checked (α → β)} {a : Checked α} {b : β} (read : f.apply a = .ok b) :
    ∃ g x, f = .ok g ∧ a = .ok x ∧ g x = b := by
  cases f with
  | error fs => cases a <;> cases read
  | ok g =>
    cases a with
    | error fs => cases read
    | ok x => exact ⟨g, x, rfl, rfl, ok_inj read⟩

theorem also_ok {a : Checked α} {c : Checked β} {x : α} (read : a.also c = .ok x) :
    a = .ok x := by
  obtain ⟨g, y, kept, _, same⟩ := apply_ok read
  obtain ⟨z, rfl, rfl⟩ := map_ok kept
  rw [← same]

theorem bind_ok {a : Checked α} {f : α → Checked β} {b : β} (read : a.bind f = .ok b) :
    ∃ x, a = .ok x ∧ f x = .ok b := by
  cases a with
  | error fs => cases read
  | ok x => exact ⟨x, rfl, read⟩

theorem below_ok {step : Step} {a : Checked α} {x : α} (read : a.below step = .ok x) :
    a = .ok x := by
  cases a with
  | error fs => cases read
  | ok y => exact read

theorem require_ok {test : α → Bool} {text : α → String} {a : Checked α} {x : α}
    (read : a.require test text = .ok x) : a = .ok x ∧ test x = true := by
  obtain ⟨y, found, tested⟩ := bind_ok read
  split at tested
  · next passed =>
    obtain rfl := ok_inj tested
    exact ⟨found, passed⟩
  · cases tested

theorem all_ok {as : List (Checked α)} {xs : List α} (read : all as = .ok xs) :
    ∀ x ∈ xs, Checked.ok x ∈ as := by
  induction as generalizing xs with
  | nil =>
    obtain rfl := ok_inj read
    simp
  | cons a rest ih =>
    obtain ⟨g, tail, first, later, rfl⟩ := apply_ok read
    obtain ⟨x, rfl, rfl⟩ := map_ok first
    intro y member
    rcases List.mem_cons.mp member with rfl | member
    · exact List.mem_cons_self
    · exact List.mem_cons_of_mem _ (ih later y member)

end Checked

open Checked

/-! ### Fields -/

namespace Decoder

variable {α : Type}

theorem name_ok {v : Value} {s : String} (read : name v = .ok s) : s ≠ "" := by
  unfold name at read
  split at read
  · split at read
    · cases read
    · next filled =>
      obtain rfl := ok_inj read
      rintro rfl
      exact filled rfl
  · cases read

theorem orNull_ok {decoder : Decoder α} {v : Value} {a : α}
    (read : orNull decoder v = .ok (some a)) : decoder v = .ok a := by
  unfold orNull at read
  split at read
  · cases ok_inj read
  · obtain ⟨x, found, same⟩ := map_ok read
    obtain rfl := Option.some.inj same
    exact found

theorem atLeast_ok {bound : Int} {decoder : Decoder Int} {v : Value} {i : Int}
    (read : atLeast bound decoder v = .ok i) : decoder v = .ok i ∧ bound ≤ i := by
  obtain ⟨_, found, tested⟩ := bind_ok read
  split at tested
  · next least =>
    obtain rfl := ok_inj tested
    exact ⟨found, least⟩
  · cases tested

theorem atMost_ok {bound : Int} {decoder : Decoder Int} {v : Value} {i : Int}
    (read : atMost bound decoder v = .ok i) : decoder v = .ok i ∧ i ≤ bound := by
  obtain ⟨_, found, tested⟩ := bind_ok read
  split at tested
  · next most =>
    obtain rfl := ok_inj tested
    exact ⟨found, most⟩
  · cases tested

theorem record_ok {className : String} {names : List FieldName} {fields : Entries → Checked α}
    {v : Value} {a : α} (read : Decoder.record className names fields v = .ok a) :
    ∃ entries, fields entries = .ok a := by
  unfold Decoder.record at read
  split at read
  · exact ⟨_, also_ok read⟩
  · cases read

theorem entry_ok {decoder : Decoder α} {e : Scalar × Value} {p : String × α}
    (read : entry decoder e = .ok p) : decoder e.2 = .ok p.2 := by
  obtain ⟨g, x, key, found, rfl⟩ := apply_ok (below_ok read)
  obtain ⟨_, _, rfl⟩ := map_ok key
  exact found

theorem mapping_ok {decoder : Decoder α} {v : Value} {ps : List (String × α)}
    (read : mapping decoder v = .ok ps) : ∀ p ∈ ps, ∃ w, decoder w = .ok p.2 := by
  unfold mapping at read
  split at read
  · intro p member
    obtain ⟨e, _, found⟩ := List.mem_map.mp (all_ok read p member)
    exact ⟨e.2, entry_ok found⟩
  · cases read

end Decoder

namespace FieldName

variable {α : Type}

theorem required_ok {n : FieldName} {decoder : Decoder α} {record : Entries} {a : α}
    (read : n.required decoder record = .ok a) : ∃ v, decoder v = .ok a := by
  unfold required at read
  split at read
  · exact ⟨_, below_ok read⟩
  · cases read

theorem withDefault_ok {n : FieldName} {default : α} {decoder : Decoder α} {record : Entries}
    {a : α} (read : n.withDefault default decoder record = .ok a) :
    a = default ∨ ∃ v, decoder v = .ok a := by
  unfold withDefault at read
  split at read
  · exact Or.inr ⟨_, below_ok read⟩
  · exact Or.inl (ok_inj read).symm

end FieldName

theorem identifierOf_ok {what : String} {decoder : Decoder String} {v : Value} {s : String}
    (read : identifierOf what decoder v = .ok s) : Text.isIdentifier s = true :=
  (require_ok read).2

/-! ### Definitions -/

/-- The model was read from a document. -/
def Model.IsDecoded (m : Model) : Prop := ∃ raw, Model.decode raw = .ok m

def Config.IsDecoded (config : Config) : Prop := ∃ raw, Config.decode raw = .ok config

theorem Property.decode_identifier {raw : Value} {p : Property}
    (read : Property.decode raw = .ok p) : Text.isIdentifier p.name = true := by
  unfold Property.decode at read
  split at read
  · obtain ⟨record, _, fields⟩ := bind_ok read
    obtain ⟨entries, owner⟩ := Decoder.record_ok fields
    obtain ⟨_, _, default, _, rfl⟩ := apply_ok owner
    obtain ⟨_, _, required, _, rfl⟩ := apply_ok default
    obtain ⟨_, _, scalar, _, rfl⟩ := apply_ok required
    obtain ⟨_, _, kind, _, rfl⟩ := apply_ok scalar
    obtain ⟨_, _, name, _, rfl⟩ := apply_ok kind
    obtain ⟨_, named, rfl⟩ := map_ok name
    obtain ⟨_, named⟩ := FieldName.required_ok named
    exact identifierOf_ok named
  · cases read

/-- No part of the cluster is empty. -/
structure Cluster.WellFormed (c : Cluster) : Prop where
  name : c.name ≠ ""
  secret : c.secretRef ≠ ""
  database : c.database ≠ ""

theorem Cluster.decode_wellFormed {raw : Value} {c : Cluster} (read : Cluster.decode raw = .ok c) :
    c.WellFormed := by
  obtain ⟨entries, fields⟩ := Decoder.record_ok read
  obtain ⟨_, _, toSecret, database, rfl⟩ := apply_ok fields
  obtain ⟨_, _, toName, secret, rfl⟩ := apply_ok toSecret
  obtain ⟨_, name, rfl⟩ := map_ok toName
  obtain ⟨_, name⟩ := FieldName.required_ok name
  obtain ⟨_, secret⟩ := FieldName.required_ok secret
  obtain ⟨_, database⟩ := FieldName.required_ok database
  exact ⟨Decoder.name_ok name, Decoder.name_ok secret, Decoder.name_ok database⟩

theorem RateLimit.decode_positive {raw : Value} {l : RateLimit}
    (read : RateLimit.decode raw = .ok l) :
    1 ≤ l.limit ∧ 1 ≤ l.frequencyInSeconds := by
  obtain ⟨entries, fields⟩ := Decoder.record_ok read
  obtain ⟨_, _, toLimit, frequency, rfl⟩ := apply_ok fields
  obtain ⟨_, limit, rfl⟩ := map_ok toLimit
  obtain ⟨_, limit⟩ := FieldName.required_ok limit
  obtain ⟨_, frequency⟩ := FieldName.required_ok frequency
  exact ⟨(Decoder.atLeast_ok limit).2, (Decoder.atLeast_ok frequency).2⟩

namespace DataSource

/-- Only a relational store has a cluster, and nothing that is given is empty. -/
def WellFormed : DataSource → Prop
  | database engine cluster => ∀ c, cluster = some c → engine = .sql ∧ c.WellFormed
  | thirdPartyApi endpoint limits =>
    endpoint ≠ "" ∧ ∀ l, limits = some l → 1 ≤ l.limit ∧ 1 ≤ l.frequencyInSeconds

theorem decodeDatabase_wellFormed {raw : Value} {d : DataSource}
    (read : decodeDatabase raw = .ok d) : d.WellFormed := by
  obtain ⟨⟨engine, cluster⟩, decoded, rfl⟩ := map_ok read
  obtain ⟨decoded, relational⟩ := require_ok decoded
  obtain ⟨entries, fields⟩ := Decoder.record_ok decoded
  obtain ⟨_, _, toEngine, found, same⟩ := apply_ok fields
  obtain ⟨_, _, toTag, _, rfl⟩ := apply_ok toEngine
  obtain ⟨_, _, rfl⟩ := map_ok toTag
  obtain ⟨rfl, rfl⟩ := Prod.mk.inj same
  rintro c rfl
  rcases FieldName.withDefault_ok found with absent | ⟨v, found⟩
  · cases absent
  · exact ⟨by simpa using relational, Cluster.decode_wellFormed (Decoder.orNull_ok found)⟩

theorem decodeThirdParty_wellFormed {raw : Value} {d : DataSource}
    (read : decodeThirdParty raw = .ok d) : d.WellFormed := by
  obtain ⟨entries, fields⟩ := Decoder.record_ok read
  obtain ⟨_, _, toEndpoint, limits, rfl⟩ := apply_ok fields
  obtain ⟨_, _, toTag, endpoint, rfl⟩ := apply_ok toEndpoint
  obtain ⟨_, _, rfl⟩ := map_ok toTag
  obtain ⟨_, endpoint⟩ := FieldName.required_ok endpoint
  refine ⟨Decoder.name_ok endpoint, ?_⟩
  rintro l rfl
  rcases FieldName.withDefault_ok limits with absent | ⟨v, found⟩
  · cases absent
  · exact RateLimit.decode_positive (Decoder.orNull_ok found)

theorem decode_wellFormed {raw : Value} {d : DataSource} (read : DataSource.decode raw = .ok d) :
    d.WellFormed := by
  unfold DataSource.decode at read
  split at read
  · split at read
    · cases read
    · split at read
      · split at read
        · exact decodeDatabase_wellFormed (below_ok read)
        · split at read
          · exact decodeThirdParty_wellFormed (below_ok read)
          · cases read
      · cases read
  · cases read

theorem WellFormed.cluster {d : DataSource} (wellFormed : d.WellFormed) {c : Cluster}
    (declared : d.cluster? = some c) : d.engine = .relational ∧ c.WellFormed := by
  cases d with
  | database engine cluster =>
    obtain ⟨rfl, named⟩ := wellFormed c declared
    exact ⟨rfl, named⟩
  | thirdPartyApi endpoint limits => cases declared

end DataSource

theorem Model.decodeProperties_identifier {raw : Value} {properties : List Property}
    (read : decodeProperties raw = .ok properties) :
    ∀ p ∈ properties, Text.isIdentifier p.name = true := by
  obtain ⟨entries, mapped, kept⟩ := bind_ok read
  split at kept
  · cases kept
  · obtain rfl := ok_inj kept
    intro p member
    obtain ⟨entry, listed, rfl⟩ := List.mem_map.mp member
    obtain ⟨_, decoded⟩ := Decoder.mapping_ok mapped entry listed
    exact Property.decode_identifier decoded

namespace Model

variable {m : Model}

/-- Every part of the model is what its field holds in the record. -/
structure ReadFrom (record : Entries) (m : Model) : Prop where
  name : nameField.required (identifierOf "Model name" Decoder.name) record = .ok m.name
  properties : propertiesField.required decodeProperties record = .ok m.properties
  dataSource : dataSourceField.required DataSource.decode record = .ok m.dataSource
  accessControl : accessControlField.withDefault none (Decoder.orNull AccessControl.decode) record =
    .ok m.accessControl
  relationships : relationshipsField.withDefault [] decodeRelationships record = .ok m.relationships
  hooks : hooksField.withDefault Hooks.none Hooks.decode record = .ok m.hooks
  subscriptions : subscriptionsField.withDefault false Decoder.truth record =
    .ok m.enableSubscriptions
  source : sourceField.withDefault none (Decoder.orNull Decoder.text) record = .ok m.source

theorem decodeFields_ok {record : Entries} (read : decodeFields record = .ok m) :
    m.ReadFrom record := by
  obtain ⟨_, _, toSubscriptions, source, rfl⟩ := apply_ok read
  obtain ⟨_, _, toHooks, subscriptions, rfl⟩ := apply_ok toSubscriptions
  obtain ⟨_, _, toRelationships, hooks, rfl⟩ := apply_ok toHooks
  obtain ⟨_, _, toAccess, relationships, rfl⟩ := apply_ok toRelationships
  obtain ⟨_, _, toDataSource, access, rfl⟩ := apply_ok toAccess
  obtain ⟨_, _, toProperties, dataSource, rfl⟩ := apply_ok toDataSource
  obtain ⟨_, _, toName, properties, rfl⟩ := apply_ok toProperties
  obtain ⟨_, name, rfl⟩ := map_ok toName
  exact ⟨name, properties, dataSource, access, relationships, hooks, subscriptions, source⟩

/-- The record that is read has the names of the properties in them. -/
theorem decode_ok {entries : Entries} (read : Model.decode (.map entries) = .ok m) :
    m.ReadFrom (dropNull "relationships" (dropNull "hooks" (nameProperties entries))) ∧
      m.owners.length ≤ 1 := by
  obtain ⟨read, single⟩ := require_ok read
  exact ⟨decodeFields_ok (also_ok read), of_decide_eq_true single⟩

theorem IsDecoded.readFrom (decoded : m.IsDecoded) : ∃ record, m.ReadFrom record := by
  obtain ⟨raw, read⟩ := decoded
  cases raw with
  | map entries => exact ⟨_, (decode_ok read).1⟩
  | _ => cases read

theorem IsDecoded.parts (decoded : m.IsDecoded) :
    Text.isIdentifier m.name = true ∧ (∃ v, decodeProperties v = .ok m.properties) ∧
      ∃ v, DataSource.decode v = .ok m.dataSource := by
  obtain ⟨record, readFrom⟩ := decoded.readFrom
  obtain ⟨_, named⟩ := FieldName.required_ok readFrom.name
  exact ⟨identifierOf_ok named, FieldName.required_ok readFrom.properties,
    FieldName.required_ok readFrom.dataSource⟩

theorem IsDecoded.property_identifier (decoded : m.IsDecoded) {p : Property}
    (member : p ∈ m.properties) : Text.isIdentifier p.name = true := by
  obtain ⟨_, ⟨_, read⟩, _⟩ := decoded.parts
  exact decodeProperties_identifier read p member

theorem IsDecoded.owner_identifier (decoded : m.IsDecoded) {owner : String}
    (owned : m.ownerField = some owner) : Text.isIdentifier owner = true := by
  obtain ⟨p, found, rfl⟩ := Option.map_eq_some_iff.mp owned
  exact decoded.property_identifier (List.mem_of_find?_eq_some found)

theorem IsDecoded.declared_identifier (decoded : m.IsDecoded) {name : String}
    (declared : m.hasProperty name = true) : Text.isIdentifier name = true := by
  obtain ⟨p, member, rfl⟩ := List.mem_map.mp (List.contains_iff_mem.mp declared)
  exact decoded.property_identifier member

theorem IsDecoded.cluster_named (decoded : m.IsDecoded) {c : Cluster}
    (declared : m.dataSource.cluster? = some c) : c.name ≠ "" := by
  obtain ⟨_, _, _, read⟩ := decoded.parts
  exact ((DataSource.decode_wellFormed read).cluster declared).2.name

end Model

namespace Config

variable {c : Config}

/-- Every setting is what the record gives it, or its default. -/
structure ReadFrom (record : Entries) (c : Config) : Prop where
  stage : setting "stage" default.stage Decoder.name record = .ok c.stage
  debug : setting "debug_instrumentation" default.debugInstrumentation Decoder.truth record =
    .ok c.debugInstrumentation
  pages : setting "default_page_size" default.defaultPageSize (pageSize 1000) record =
    .ok c.defaultPageSize
  largest : setting "max_page_size" default.maxPageSize (pageSize 10000) record = .ok c.maxPageSize
  identifier : setting "identifier_field" default.identifierField Decoder.name record =
    .ok c.identifierField
  created : setting "created_at_field" default.createdAtField Decoder.name record =
    .ok c.createdAtField
  updated : setting "updated_at_field" default.updatedAtField Decoder.name record =
    .ok c.updatedAtField
  groups : setting "groups_claim" default.groupsClaim Decoder.name record = .ok c.groupsClaim
  scalars : setting "scalars" default.scalars (Decoder.list Decoder.text) record = .ok c.scalars
  version : setting "template_version" default.templateVersion Decoder.text record =
    .ok c.templateVersion
  cluster : setting "relational_cluster" default.relationalCluster (Decoder.orNull Cluster.decode)
    record = .ok c.relationalCluster
  queue : setting "queue_url_stash_key" default.queueUrlStashKey Decoder.name record =
    .ok c.queueUrlStashKey
  results : setting "job_results_table" default.jobResultsTable Decoder.name record =
    .ok c.jobResultsTable
  timezone : setting "timezone_header" default.timezoneHeader (Decoder.orNull Decoder.text) record =
    .ok c.timezoneHeader

theorem decodeFields_ok {record : Entries} (read : decodeFields record = .ok c) :
    c.ReadFrom record := by
  obtain ⟨_, _, toResults, timezone, rfl⟩ := apply_ok read
  obtain ⟨_, _, toQueue, results, rfl⟩ := apply_ok toResults
  obtain ⟨_, _, toCluster, queue, rfl⟩ := apply_ok toQueue
  obtain ⟨_, _, toVersion, cluster, rfl⟩ := apply_ok toCluster
  obtain ⟨_, _, toScalars, version, rfl⟩ := apply_ok toVersion
  obtain ⟨_, _, toGroups, scalars, rfl⟩ := apply_ok toScalars
  obtain ⟨_, _, toUpdated, groups, rfl⟩ := apply_ok toGroups
  obtain ⟨_, _, toCreated, updated, rfl⟩ := apply_ok toUpdated
  obtain ⟨_, _, toIdentifier, created, rfl⟩ := apply_ok toCreated
  obtain ⟨_, _, toLargest, identifier, rfl⟩ := apply_ok toIdentifier
  obtain ⟨_, _, toPages, largest, rfl⟩ := apply_ok toLargest
  obtain ⟨_, _, toDebug, pages, rfl⟩ := apply_ok toPages
  obtain ⟨_, _, toStage, debug, rfl⟩ := apply_ok toDebug
  obtain ⟨_, stage, rfl⟩ := map_ok toStage
  exact ⟨stage, debug, pages, largest, identifier, created, updated, groups, scalars, version,
    cluster, queue, results, timezone⟩

/-- The names and sizes that settings may have. -/
structure WellFormed (c : Config) : Prop where
  stage : c.stage ≠ ""
  pages : 1 ≤ c.defaultPageSize ∧ c.defaultPageSize ≤ 1000
  largest : 1 ≤ c.maxPageSize ∧ c.maxPageSize ≤ 10000
  identifier : c.identifierField ≠ ""
  created : c.createdAtField ≠ ""
  updated : c.updatedAtField ≠ ""
  groups : c.groupsClaim ≠ ""
  cluster : ∀ cluster, c.relationalCluster = some cluster → cluster.WellFormed
  queue : c.queueUrlStashKey ≠ ""
  results : c.jobResultsTable ≠ ""
  ordered : c.defaultPageSize ≤ c.maxPageSize

theorem pageSize_ok {most size : Int} {v : Value} (read : pageSize most v = .ok size) :
    1 ≤ size ∧ size ≤ most := by
  obtain ⟨bounded, least⟩ := Decoder.atLeast_ok read
  exact ⟨least, (Decoder.atMost_ok bounded).2⟩

theorem setting_name {name fallback text : String} {record : Entries} (given : fallback ≠ "")
    (read : setting name fallback Decoder.name record = .ok text) : text ≠ "" := by
  rcases FieldName.withDefault_ok read with rfl | ⟨_, found⟩
  · exact given
  · exact Decoder.name_ok found

theorem setting_pageSize {name : String} {fallback most size : Int} {record : Entries}
    (given : 1 ≤ fallback ∧ fallback ≤ most)
    (read : setting name fallback (pageSize most) record = .ok size) : 1 ≤ size ∧ size ≤ most := by
  rcases FieldName.withDefault_ok read with rfl | ⟨_, found⟩
  · exact given
  · exact pageSize_ok found

theorem IsDecoded.wellFormed (decoded : c.IsDecoded) : c.WellFormed := by
  obtain ⟨raw, read⟩ := decoded
  obtain ⟨accepted, ordered⟩ := require_ok read
  obtain ⟨record, fields⟩ := Decoder.record_ok accepted
  have readFrom := decodeFields_ok fields
  exact {
    stage := setting_name (by decide) readFrom.stage
    pages := setting_pageSize (by decide) readFrom.pages
    largest := setting_pageSize (by decide) readFrom.largest
    identifier := setting_name (by decide) readFrom.identifier
    created := setting_name (by decide) readFrom.created
    updated := setting_name (by decide) readFrom.updated
    groups := setting_name (by decide) readFrom.groups
    queue := setting_name (by decide) readFrom.queue
    results := setting_name (by decide) readFrom.results
    ordered := of_decide_eq_true ordered
    cluster := by
      intro cluster given
      have read := readFrom.cluster
      rw [given] at read
      rcases FieldName.withDefault_ok read with absent | ⟨v, found⟩
      · cases absent
      · exact Cluster.decode_wellFormed (Decoder.orNull_ok found) }

theorem IsDecoded.cluster_named (decoded : c.IsDecoded) {cluster : Cluster}
    (declared : c.relationalCluster = some cluster) : cluster.name ≠ "" :=
  (decoded.wellFormed.cluster cluster declared).name

/-- The default page holds something, and is no larger than the largest one. -/
theorem IsDecoded.pageSizes (decoded : c.IsDecoded) :
    1 ≤ c.defaultPageSize ∧ c.defaultPageSize ≤ c.maxPageSize :=
  ⟨decoded.wellFormed.pages.1, decoded.wellFormed.ordered⟩

end Config

/-! ### Identifiers -/

namespace Text

/-- The text is a word in a statement, a name in a path, and no reference. -/
structure IsWord (s : String) : Prop where
  filled : s ≠ ""
  whole : ' ' ∉ s.toList
  undotted : '.' ∉ s.toList
  plain : '$' ∉ s.toList
  uncalled : '(' ∉ s.toList

theorem mem_withoutLastFeed {cs : List Char} {c : Char} (member : c ∈ cs) :
    c ∈ withoutLastFeed cs ∨ c = '\n' := by
  unfold withoutLastFeed
  split
  · next last found =>
    split
    · next feed =>
      subst feed
      obtain ⟨lead, rfl⟩ := List.getLast?_eq_some_iff.mp found
      simpa using member
    · exact Or.inl member
  · exact Or.inl member

theorem isIdentifier_char {s : String} (identifier : isIdentifier s = true) {c : Char}
    (member : c ∈ s.toList) : (isLetterOrDigit c || c = '_' || c = '\n') = true := by
  unfold isIdentifier hasForm at identifier
  split at identifier
  · cases identifier
  · next first rest form =>
    simp only [Bool.and_eq_true, List.all_eq_true] at identifier
    rcases mem_withoutLastFeed member with listed | feed
    · rw [form] at listed
      rcases List.mem_cons.mp listed with rfl | later
      · have letter := identifier.1
        simp only [Bool.or_eq_true, isLetterOrDigit] at letter ⊢
        rcases letter with letter | underscore
        · exact Or.inl (Or.inl (Or.inl letter))
        · exact Or.inl (Or.inr underscore)
      · simp [identifier.2 c later]
    · simp [feed]

theorem isWord_of_isIdentifier {s : String} (identifier : isIdentifier s = true) : IsWord s := by
  constructor
  · rintro rfl
    simp [isIdentifier, hasForm, withoutLastFeed] at identifier
  all_goals
    intro member
    exact absurd (isIdentifier_char identifier member) (by decide)

end Text

end ApiLoom
