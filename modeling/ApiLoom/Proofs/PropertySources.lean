import ApiLoom.Proofs.CreatedRecords
import ApiLoom.Proofs.InputFields

/-!
# Property sources

Where the value of a property comes from when a record is created.  The client gives it in the
input of the create, or the server sets it: the key and the times in the request, the owner in
the check before it.  The review warns where nothing would: of an owner property that no rule
for creates stamps.
-/

namespace ApiLoom

open Template Template.Script

/-! ### A review without findings -/

namespace Review

variable {config : Config} {models : List Model} {seeds : SeedData}

/-- The review finds neither an error nor anything to warn of. -/
def Clean (config : Config) (models : List Model) (seeds : SeedData) : Prop :=
  (Report.ofFindings (all config models seeds)).issues = []

theorem Clean.not_found (clean : Clean config models seeds) (f : Finding) :
    f ∉ all config models seeds := by
  have none : all config models seeds = [] := List.map_eq_nil_iff.mp clean
  rw [none]
  exact List.not_mem_nil

theorem Clean.passes (clean : Clean config models seeds) : Passes config models seeds :=
  Report.isValid_ofFindings.mpr fun f found => absurd found (clean.not_found f)

/-- Where there is an owner, there is a rule for creates, and with it a check that stamps. -/
theorem Clean.rulesCreate (clean : Clean config models seeds) {m : Model} (member : m ∈ models)
    {owner : String} (owned : m.ownerField = some owner) : m.RulesCreate := by
  have reported (f : Finding) : f ∉ accessControl models :=
    fun found => clean.not_found f (mem_all (.inl found))
  cases controlled : m.accessControl with
  | none =>
    exact absurd (List.mem_flatMap.mpr ⟨m, member, by simp [controlled, owned]⟩)
      (reported (.ownerWithoutAccess m.name owner))
  | some access =>
    refine ⟨access, controlled, fun unruled => ?_⟩
    refine reported (.ownerNotStamped m.name owner) (List.mem_flatMap.mpr ⟨m, member, ?_⟩)
    simp [controlled, ruleFindings, owned, unruled]

end Review

/-! ### What a request sets -/

namespace Store

/-- The request is for a new record that has the property. -/
def fills (name : String) (request : Binding × Value) : Prop :=
  match request.1.kind with
  | .documentTable => request.2.field "operation" = .text "PutItem" ∧
      ((request.2.field "key").field? name).or
        ((request.2.field "attributeValues").field? name) ≠ none
  | .relationalCluster => ∃ statement, .text statement ∈ (request.2.field "statements").items ∧
      ∃ table columns bound, Reads statement (.insert table columns bound) ∧ name ∈ columns
  | _ => False

theorem fills_kind {name : String} {request : Binding × Value} (filled : fills name request) :
    request.1.kind ≠ .function := by
  intro function
  simp [fills, function] at filled

end Store

namespace Model

variable {m : Model} {config : Config} {cluster : Option Cluster} {binding : Binding}
  {input : Entries} {name : String}

/-- The request of a create sets each property that the record of its input has. -/
theorem create_fills {caller : Caller} {w : World} {s : State} (gated : Bool)
    (kept : m.KeptAt config cluster binding) (typesMaps : w.library.TypesMaps)
    (told : w.context.identity = caller.identity config)
    (given : s.args.field "input" = .map input)
    (held : (m.newRecord config w.library input).get? name ≠ none) :
    ((perform config (m.mainOperation config .create gated).1).exec w s).Reaches fun t =>
      Store.fills name (binding, t.output) := by
  obtain ⟨ofDocument, ofRelational⟩ := Binding.forModel_kind kept.bound
  by_cases relational : m.engine = .relational
  · have key : Text.IsFilledName config.identifierField :=
      Text.isFilledName_of_isIdentifier (kept.decoded.declared_identifier kept.declared)
    have column : name ∈ m.insertColumns config := by
      by_contra absent
      rw [newRecord_row relational, if_neg absent] at held
      exact held rfl
    rw [mainOperation, relational]
    refine (sqlInsert_sendsFirst kept.decoded key w s).mono fun t sent => ?_
    obtain ⟨statement, rest, query, statements, reads, rfl⟩ := sent
    simp only [Store.fills, ofRelational relational]
    exact ⟨statement, by simp [statements, Value.texts, Value.items], _, _, _, reads, column⟩
  · refine (create_reaches gated kept typesMaps told given).mono fun t made => ?_
    have put := (made (m.newRecord config w.library input)).mpr
      ⟨fun row => absurd row relational, fun _ => rfl⟩
    have document : m.engine = .document := by
      have stored := kept.stored
      cases engine : m.engine <;> simp_all [EngineKind.isStored]
    simp only [Store.creates, Store.fills, ofDocument document] at put ⊢
    exact ⟨put.1, by rw [← put.2 name]; simpa using held⟩

end Model

/-! ### Where the value of a property comes from -/

/-- The call is a create that the rules grant, and gives a record as the input. -/
structure Host.CallsCreate (host : Host) (m : Model) (config : Config) (input : Entries) :
    Prop where
  configured : host.config = config
  typesMaps : host.library.TypesMaps
  granted : m.Grants .create host.call.caller fun _ => host.call.caller.isIdentified = true
  given : host.call.args.field "input" = .map input

namespace Model

variable {m : Model} {config : Config} {resolver : RootResolver}

/-- Every create that is granted asks for a record with the property, and any record that it
makes holds this value in it. -/
def Sets (m : Model) (config : Config) (resolver : RootResolver) (name : String)
    (value : Host → Value) : Prop :=
  ∀ (host : Host) input, host.CallsCreate m config input →
    (host.run resolver).Sends (Store.fills name) ∧
      ∀ r, (host.run resolver).creates r → r.get? name = some (value host)

/-- A property has a value from the client, from the request of the create or from the check
before it. -/
inductive Sourced (m : Model) (config : Config) (resolver : RootResolver) (p : Property) : Prop
  | given (offered : Schema.propertyField p ∈ (Schema.createInput config m).fields)
      (kept : ∀ (host : Host) input, host.CallsCreate m config input →
        ∀ r : Record, (host.run resolver).creates r →
          (r.get? p.name).getD .null = (Value.map input).field p.name)
  | generated (key : p.name = config.identifierField)
      (set : m.Sets config resolver p.name fun host => m.newKey host.library)
  | timed (time : p.name ∈ config.managedTimestamps)
      (set : m.Sets config resolver p.name fun host => m.newTime host.library)
  | stamped (owned : m.ownerField = some p.name)
      (stamps : ∃ check, resolver.exchange.request.auth = some (.rules check) ∧
        check.stamp = some p.name)
      (set : m.Sets config resolver p.name fun host => subValue host.call.caller)

/-- Every property has a source. -/
structure SourcesAll (m : Model) (config : Config) (resolver : RootResolver) : Prop where
  sourced : ∀ p ∈ m.properties, m.Sourced config resolver p
  /-- What a client cannot give is in every record. -/
  withheld : ∀ p ∈ m.properties,
    Schema.propertyField p ∉ (Schema.createInput config m).fields →
      ∀ (host : Host) input, host.CallsCreate m config input →
        (host.run resolver).Sends (Store.fills p.name) ∧
          ∀ r : Record, (host.run resolver).creates r → r.get? p.name ≠ none
  /-- A create that is granted makes a record, unless that would be a row with a column twice. -/
  makes : (m.engine = .relational → (m.insertColumns config).Nodup) →
    ∀ (host : Host) input, host.CallsCreate m config input → ∃ r, (host.run resolver).creates r

/-- What the server sets takes the place of what the client gives. -/
theorem Sourced.withheld {p : Property} (sourced : m.Sourced config resolver p)
    (hidden : Schema.propertyField p ∉ (Schema.createInput config m).fields)
    {host : Host} {input : Entries} (calls : host.CallsCreate m config input) :
    (host.run resolver).Sends (Store.fills p.name) ∧
      ∀ r, (host.run resolver).creates r → r.get? p.name ≠ none := by
  have present {value : Host → Value} (set : m.Sets config resolver p.name value) :
      (host.run resolver).Sends (Store.fills p.name) ∧
        ∀ r, (host.run resolver).creates r → r.get? p.name ≠ none := by
    obtain ⟨sent, held⟩ := set host input calls
    exact ⟨sent, fun r made => by rw [held r made]; exact Option.some_ne_none _⟩
  cases sourced with
  | given offered => exact absurd offered hidden
  | generated _ set => exact present set
  | timed _ set => exact present set
  | stamped _ _ set => exact present set

end Model

namespace Host

variable {host : Host} {m : Model} {config : Config} {cluster : Option Cluster}
  {binding : Binding} {resolver : RootResolver} {input : Entries}

/-- What the runs of a granted create ask for, and what they make. -/
theorem CallsCreate.run (calls : host.CallsCreate m config input)
    (kept : m.KeptAt config cluster binding)
    (ruled : ∀ owner, m.ownerField = some owner → m.RulesCreate)
    (resolved : m.resolver config cluster .create = .ok resolver) :
    (∀ r, (host.run resolver).creates r ↔
      m.Makes config host.library (host.ownedInput m input) r) ∧
    ∀ name, (m.newRecord config host.library (host.ownedInput m input)).get? name ≠ none →
      (host.run resolver).Sends (Store.fills name) := by
  obtain ⟨rfl, typesMaps, granted, given⟩ := calls
  obtain ⟨t, begun, stamped⟩ := create_begins kept.decoded ruled granted resolved given
  refine ⟨fun r => run_creates kept typesMaps resolved begun stamped, fun name held => ?_⟩
  have inserts : host.Inserts m binding (host.ownedInput m input) (Store.fills name) True :=
    fun gated q s given => (Model.create_fills gated kept typesMaps (host.told q .null) given
      held).mono fun _ filled => iff_true_intro filled
  exact (run_sends kept.bound inserts (fun _ => Store.fills_kind) resolved begun stamped).mpr
    trivial

/-- The stamp leaves the other properties of the input as the client gave them. -/
theorem ownedInput_field {name : String} (other : m.ownerField ≠ some name) :
    (Value.map (host.ownedInput m input)).field name = (Value.map input).field name := by
  unfold ownedInput
  split
  · next owner owned =>
    have apart : name ≠ owner := by
      rintro rfl
      exact other owned
    rw [Value.field_map, Value.field_map, Entries.get?_put_of_ne apart]
  · rfl

end Host

namespace Model

variable {m : Model} {config : Config} {cluster : Option Cluster} {binding : Binding}
  {resolver : RootResolver} {name : String} {value : Host → Value}

/-- What the record of the input holds is set by every create. -/
theorem sets_of_newRecord (kept : m.KeptAt config cluster binding)
    (ruled : ∀ owner, m.ownerField = some owner → m.RulesCreate)
    (resolved : m.resolver config cluster .create = .ok resolver)
    (held : ∀ (host : Host) input,
      (m.newRecord config host.library (host.ownedInput m input)).get? name =
        some (value host)) : m.Sets config resolver name value := by
  intro host input calls
  obtain ⟨made, fills⟩ := calls.run kept ruled resolved
  refine ⟨fills name ?_, fun r created => ?_⟩
  · rw [held host input]
    exact Option.some_ne_none _
  · rw [((made r).mp created).2 name, held host input]

/-- What the server manages comes from the request. -/
theorem sourced_managed {p : Property} (kept : m.KeptAt config cluster binding)
    (ruled : ∀ owner, m.ownerField = some owner → m.RulesCreate)
    (resolved : m.resolver config cluster .create = .ok resolver)
    (declared : m.hasProperty p.name = true) (managed : isManaged config p.name = true) :
    m.Sourced config resolver p := by
  have held : ∀ (host : Host) input,
      (m.newRecord config host.library (host.ownedInput m input)).get? p.name =
        some (m.managedValue config host.library p.name) :=
    fun host input => newRecord_managed declared managed
  by_cases key : p.name = config.identifierField
  · refine .generated key (sets_of_newRecord kept ruled resolved fun host input => ?_)
    rw [held, managedValue, if_pos key]
  · have time : p.name ∈ config.managedTimestamps := by simpa [isManaged, key] using managed
    refine .timed time (sets_of_newRecord kept ruled resolved fun host input => ?_)
    rw [held, managedValue, if_neg key]

/-- An owner property that is not managed comes from the check. -/
theorem sourced_owner {p : Property} (kept : m.KeptAt config cluster binding)
    (ruled : ∀ owner, m.ownerField = some owner → m.RulesCreate)
    (resolved : m.resolver config cluster .create = .ok resolver)
    (declared : m.hasProperty p.name = true) (unmanaged : isManaged config p.name = false)
    (owned : m.ownerField = some p.name) : m.Sourced config resolver p := by
  obtain ⟨check, rules, stamps⟩ := create_stamps .item owned (ruled p.name owned)
  refine .stamped owned ⟨check, ?_, stamps⟩ ?_
  · rw [(resolver_request resolved).1, ← rules]
    rfl
  · refine sets_of_newRecord kept ruled resolved fun host input => ?_
    rw [Host.ownedInput, owned, newRecord_put _ declared, unmanaged]
    rfl

/-- Anything else comes from the client. -/
theorem sourced_given {p : Property} (kept : m.KeptAt config cluster binding)
    (ruled : ∀ owner, m.ownerField = some owner → m.RulesCreate)
    (resolved : m.resolver config cluster .create = .ok resolver) (property : p ∈ m.properties)
    (unmanaged : isManaged config p.name = false) (unowned : m.ownerField ≠ some p.name) :
    m.Sourced config resolver p := by
  have writable : p ∈ m.writableProperties config :=
    List.mem_filter.mpr ⟨property, by rw [unmanaged]; rfl⟩
  refine .given (List.mem_map_of_mem (List.mem_filter.mpr ⟨writable, by simpa using unowned⟩)) ?_
  intro host input calls r created
  have declared : m.hasProperty p.name = true := hasProperty_of_mem property
  rw [(((calls.run kept ruled resolved).1 r).mp created).2 p.name,
    newRecord_unmanaged declared unmanaged]
  split
  · rw [Option.getD_some, Host.ownedInput_field unowned]
  · rw [← Value.field_map, Host.ownedInput_field unowned]

end Model

/-- Where the review finds nothing at all, each property of a stored model has a source: it is in
the input of the create, or the request or the check of the create sets it. -/
theorem Model.create_sources_all {config : Config} {models : List Model} {seeds : Review.SeedData}
    {m : Model} (clean : Review.Clean config models seeds) (member : m ∈ models)
    (decoded : m.IsDecoded) (stored : m.engine.isStored = true) :
    ∃ c resolver, m.compile config models = .ok c ∧ c.resolver .create = .ok resolver ∧
      m.SourcesAll config resolver := by
  obtain ⟨c, compiled⟩ := clean.passes.compiles member stored
  obtain ⟨resolver, found, resolved⟩ := Model.compile_resolver compiled .create
  obtain ⟨binding, bound, _⟩ := Model.resolver_ok resolved
  have kept : m.KeptAt config (sharedCluster models config) binding :=
    ⟨decoded, clean.passes.identifier_declared member, stored, bound⟩
  have ruled : ∀ owner, m.ownerField = some owner → m.RulesCreate :=
    fun _ owned => clean.rulesCreate member owned
  have sourced : ∀ p ∈ m.properties, m.Sourced config resolver p := by
    intro p property
    have declared : m.hasProperty p.name = true := hasProperty_of_mem property
    cases managed : isManaged config p.name with
    | true => exact sourced_managed kept ruled resolved declared managed
    | false =>
      by_cases owned : m.ownerField = some p.name
      · exact sourced_owner kept ruled resolved declared managed owned
      · exact sourced_given kept ruled resolved property managed owned
  refine ⟨c, resolver, compiled, found, sourced, ?_, ?_⟩
  · exact fun p property hidden host input calls => (sourced p property).withheld hidden calls
  · exact fun apart host input calls =>
      ⟨_, ((calls.run kept ruled resolved).1 _).mpr ⟨apart, fun _ => rfl⟩⟩

/-- A note with a text from its author; whoever writes it is the author. -/
def signedNote : Value := .object [
  ("name", .text "Note"),
  ("properties", .object [
    ("id", .object [("type", .text "ID"), ("required", .bool true)]),
    ("text", .object [("type", .text "String")]),
    ("author", .object [("type", .text "String"), ("required", .bool true),
      ("isOwner", .bool true)]),
    ("createdAt", .object [("type", .text "AWSDateTime")])]),
  ("dataSource", .object [("type", .text "database"), ("engine", .text "nosql")]),
  ("accessControl", .object [("rules", .list [
    .object [("allow", .text "create"), ("owner", .bool true)],
    .object [("allow", .text "read"), ("owner", .bool true)],
    .object [("allow", .text "update"), ("owner", .bool true)],
    .object [("allow", .text "delete"), ("owner", .bool true)]])])]

def annWrites : Host where
  config := .default
  library := oneKey
  call := ⟨⟨some "ann", none⟩, .object [("input", .object [("text", .text "Hello")])], .null, .null⟩
  reply _ := .null

theorem create_sources_all_signedNote :
    ∃ m c resolver r, Model.decode signedNote = .ok m ∧ Review.Clean .default [m] [] ∧
      m.compile .default [m] = .ok c ∧ c.resolver .create = .ok resolver ∧
      m.SourcesAll .default resolver ∧
      (Schema.createInput .default m).fields.map (·.name) = ["text"] ∧
      (annWrites.run resolver).creates r ∧ r.get? "author" ≠ none := by
  obtain ⟨m, read, document, owned, controlled, offered, author, clean⟩ :
      ∃ m, Model.decode signedNote = .ok m ∧ m.engine = .document ∧
      m.ownerField = some "author" ∧
      m.accessControl = some ⟨.deny, [⟨.create, [], true⟩, ⟨.read, [], true⟩,
        ⟨.update, [], true⟩, ⟨.delete, [], true⟩]⟩ ∧
      (Schema.createInput .default m).fields.map (·.name) = ["text"] ∧
      "author" ∈ m.properties.map (·.name) ∧ Review.all .default [m] [] = [] :=
    ⟨_, rfl, rfl, rfl, rfl, rfl, by decide, by decide +kernel⟩
  have clean : Review.Clean .default [m] [] := List.map_eq_nil_iff.mpr clean
  obtain ⟨c, resolver, compiled, found, sources⟩ :=
    Model.create_sources_all clean (List.mem_singleton_self m) ⟨signedNote, read⟩
      (by rw [document]; rfl)
  have calls : annWrites.CallsCreate m .default [(.text "text", .text "Hello")] := by
    refine ⟨rfl, oneKey_typesMaps, ?_, rfl⟩
    have ruled : (⟨.create, [], true⟩ : AccessRule) ∈ (⟨.deny, [⟨.create, [], true⟩,
        ⟨.read, [], true⟩, ⟨.update, [], true⟩, ⟨.delete, [], true⟩]⟩ :
          AccessControl).rulesFor .create := by decide
    exact .toOwner controlled ruled rfl owned (by decide)
  obtain ⟨r, created⟩ := sources.makes (by simp [document]) annWrites _ calls
  obtain ⟨p, property, named⟩ := List.mem_map.mp author
  have hidden : Schema.propertyField p ∉ (Schema.createInput .default m).fields := by
    intro listed
    have among : p.name ∈ (Schema.createInput .default m).fields.map (·.name) :=
      List.mem_map_of_mem (f := (·.name)) listed
    rw [offered, named] at among
    exact absurd among (by decide)
  have held := (sources.withheld p property hidden annWrites _ calls).2 r created
  exact ⟨m, c, resolver, r, read, clean, compiled, found, sources, offered, created,
    named ▸ held⟩

end ApiLoom
