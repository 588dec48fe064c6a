import ApiLoom.Proofs.GuardedWrite
import ApiLoom.Proofs.NewRecords
import ApiLoom.Proofs.Reviewed

/-!
# Created records

A create stamps its caller into the input, and the record is made of that input afterwards.  What
the server sets itself, the key and the times, takes the place of the caller in a property that
is both the owner's and managed; in any other owner property the caller stays.
-/

namespace ApiLoom

open Template Template.Script

/-! ### What a create asks for -/

namespace Trace

variable {t : Trace} {P : Binding × Value → Prop}

/-- Some request of the run is such a one. -/
def Sends (t : Trace) (P : Binding × Value → Prop) : Prop := ∃ request ∈ t.sent, P request

theorem sends_andThen (t : Trace) (next : Progress → Trace) (P : Binding × Value → Prop) :
    (t.andThen next).Sends P ↔ t.Sends P ∨ ∃ p, t.progress = some p ∧ (next p).Sends P := by
  obtain ⟨sent, _ | p⟩ := t <;> simp [andThen, Sends, or_and_right, exists_or]

theorem CallsFunctions.not_sends (calls : t.CallsFunctions)
    (other : ∀ request, P request → request.1.kind ≠ .function) : ¬ t.Sends P :=
  fun ⟨request, member, sent⟩ => other request sent (calls request member)

end Trace

theorem Store.creates_kind {request : Binding × Value} {r : Record}
    (made : Store.creates request r) : request.1.kind ≠ .function := by
  intro function
  simp [Store.creates, function] at made

/-- The records of the model are kept in the store of the binding. -/
structure Model.KeptAt (m : Model) (config : Config) (cluster : Option Cluster)
    (binding : Binding) : Prop where
  decoded : m.IsDecoded
  declared : m.hasProperty config.identifierField = true
  stored : m.engine.isStored = true
  bound : Binding.forModel m cluster config = .ok binding

/-- The record is the one that a create makes of the input.  None is, where it would be a row that
names a column twice. -/
def Model.Makes (m : Model) (config : Config) (library : Library) (input : Entries) (r : Record) :
    Prop :=
  (m.engine = .relational → (m.insertColumns config).Nodup) ∧
    ∀ name, r.get? name = (m.newRecord config library input).get? name

theorem create_reaches {m : Model} {config : Config} {cluster : Option Cluster} {binding : Binding}
    {caller : Caller} {w : World} {s : State} {input : Entries} (gated : Bool)
    (kept : m.KeptAt config cluster binding) (typesMaps : w.library.TypesMaps)
    (told : w.context.identity = caller.identity config)
    (given : s.args.field "input" = .map input) :
    ((perform config (m.mainOperation config .create gated).1).exec w s).Reaches fun t => ∀ r,
      Store.creates (binding, t.output) r ↔ m.Makes config w.library input r := by
  obtain ⟨ofDocument, ofRelational⟩ := Binding.forModel_kind kept.bound
  have stored := kept.stored
  cases engine : m.engine with
  | document =>
    have words : ∀ name ∈ m.timestamps config, Text.IsWord name := fun name member =>
      Text.isWord_of_isIdentifier
        (kept.decoded.declared_identifier (List.mem_filter.mp member).2)
    have puts : ((putItem config config.identifierField (m.timestamps config)
        "$ctx.args.input").exec w s).Reaches _ := putItem_reaches typesMaps words given
    rw [Model.mainOperation, engine]
    refine puts.mono fun t made r => ?_
    simp only [Store.creates, ofDocument engine]
    rw [made r, Model.Makes, Model.newRecord, Model.newFields, Model.newKey, Model.newTime]
    simp [engine]
  | relational =>
    have inserts := sqlInsert_reaches kept.decoded kept.declared engine told given
    rw [Model.mainOperation, engine]
    refine inserts.mono fun t made r => ?_
    simp only [Store.creates, ofRelational engine]
    rw [made r, Model.Makes]
    simp [engine]
  | http => simp [engine, EngineKind.isStored] at stored
  | queued => simp [engine, EngineKind.isStored] at stored

/-! ### Runs of a create -/

namespace Host

section Runs

variable {host : Host} {p : Progress} {t : State} {m : Model} {cluster : Option Cluster}
  {binding : Binding} {resolver : RootResolver} {input : Entries} {r : Record}
  {P : Binding × Value → Prop} {holds : Prop}

/-- The main request of a create of this input is such a one just in case. -/
def Inserts (host : Host) (m : Model) (binding : Binding) (input : Entries)
    (P : Binding × Value → Prop) (holds : Prop) : Prop :=
  ∀ gated p s, s.args.field "input" = .map input →
    ((perform host.config (m.mainOperation host.config .create gated).1).exec
      (host.world p .null) s).Reaches fun t => P (binding, t.output) ↔ holds

theorem mainStage_sends {s : Stage} (gated : Bool)
    (inserts : host.Inserts m s.binding input P holds)
    (begun : host.Begins p s.exchange.request t)
    (operation : s.exchange.request.operation = (m.mainOperation host.config .create gated).1)
    (given : t.args.field "input" = .map input) : (host.runStage p s).Sends P ↔ holds := by
  obtain ⟨u, reached, made⟩ := inserts gated p t given
  have asked : host.ask p s.exchange.request =
      .sent u.output { p with stash := u.stash, args := u.args } := by
    rw [ask, begun, operation, reached]
  have sent : (host.runStage p s).Sends P ↔ P (s.binding, u.output) := by
    simp [runStage_sent asked, Trace.Sends]
  exact sent.trans made

/-- Between the hooks, only the main stage asks a store. -/
theorem staged_sends (inserts : host.Inserts m binding input P holds)
    (other : ∀ request, P request → request.1.kind ≠ .function)
    (given : p.args.field "input" = .map input) :
    (host.runStages p (m.hookStage .create .before ++ [] ++
      [m.mainStage host.config .create binding] ++ m.hookStage .create .after)).Sends P ↔
        holds := by
  obtain ⟨before, q, reached, same⟩ := hookStage_run host p m .create .before
  have after : ∀ u, ¬ (host.runStages u (m.hookStage .create .after)).Sends P :=
    fun u => (hookStage_run host u m .create .after).1.not_sends other
  have begun : host.Begins q (m.mainStage host.config .create binding).exchange.request q.state :=
    ofRequest_open rfl rfl
  have handed : q.args.field "input" = .map input := same.args ▸ given
  have main : (host.runStage q (m.mainStage host.config .create binding)).Sends P ↔ holds :=
    mainStage_sends (m.isGated .create) inserts begun rfl handed
  rw [List.append_nil, runStages_append, Trace.sends_andThen, runStages_append,
    Trace.sends_andThen, reached]
  simp [before.not_sends other, after, runStages_single, main]

theorem run_sends (bound : Binding.forModel m cluster host.config = .ok binding)
    (inserts : host.Inserts m binding input P holds)
    (other : ∀ request, P request → request.1.kind ≠ .function)
    (resolved : m.resolver host.config cluster .create = .ok resolver)
    (begun : host.Begins host.start resolver.exchange.request t)
    (given : t.args.field "input" = .map input) : (host.run resolver).Sends P ↔ holds := by
  obtain ⟨binding, found, _, ⟨_, rfl⟩ | ⟨_, fetch, fetched, rfl⟩⟩ := Model.resolver_ok resolved
  all_goals obtain rfl := Except.ok.inj (bound.symm.trans found)
  · exact mainStage_sends (m.isGated .create) inserts begun rfl given
  · obtain rfl : [] = fetch := Except.ok.inj fetched
    obtain ⟨q, _, args, sent⟩ := run_pipeline begun
    rw [Trace.Sends, sent, ← Trace.Sends, staged_sends inserts other (args ▸ given)]

theorem run_creates (kept : m.KeptAt host.config cluster binding)
    (typesMaps : host.library.TypesMaps)
    (resolved : m.resolver host.config cluster .create = .ok resolver)
    (begun : host.Begins host.start resolver.exchange.request t)
    (given : t.args.field "input" = .map input) :
    (host.run resolver).creates r ↔ m.Makes host.config host.library input r := by
  refine run_sends (P := (Store.creates · r)) kept.bound (fun gated q s given => ?_)
    (fun _ => Store.creates_kind) resolved begun given
  exact (create_reaches gated kept typesMaps (host.told q .null) given).mono fun u made => made r

/-- What the client sends, with the caller as the owner. -/
def ownedInput (host : Host) (m : Model) (input : Entries) : Entries :=
  match m.ownerField with
  | some owner => input.put (.text owner) (subValue host.call.caller)
  | none => input

/-- A create that is granted begins with its caller as the owner in the input. -/
theorem create_begins (decoded : m.IsDecoded)
    (ruled : ∀ owner, m.ownerField = some owner → m.RulesCreate)
    (granted : m.Grants .create host.call.caller fun _ => host.call.caller.isIdentified = true)
    (resolved : m.resolver host.config cluster .create = .ok resolver)
    (given : host.call.args.field "input" = .map input) :
    ∃ t, host.Begins host.start resolver.exchange.request t ∧
      t.args.field "input" = .map (host.ownedInput m input) := by
  obtain ⟨asked, ungated⟩ := Model.resolver_request resolved
  have admitted : ((m.authCheck .create .item).flagsFor host.call.caller).isSome = true :=
    Model.create_flagsFor_iff.mpr granted
  obtain ⟨flags, admitted⟩ := Option.isSome_iff_exists.mp admitted
  have told := host.told host.start .null
  have scope : m.authCheck RootField.create.operation RootField.create.scope =
      m.authCheck .create .item := rfl
  rw [scope] at asked
  cases owned : m.ownerField with
  | none =>
    have unstamped : ∀ c, m.authCheck .create .item = .rules c → c.stamp = none :=
      fun c rules => Model.create_unstamped (.inl owned) rules
    have decided := authorize_exec (s := host.start.state) told unstamped
    rw [admitted] at decided
    obtain ⟨t, reached, same⟩ := decided
    refine ⟨t, ?_, ?_⟩
    · rw [Begins, ofRequest_checked asked ungated, reached, Step.next_andThen]
    · have args : t.args = host.call.args := same.args
      rw [args, given, ownedInput, owned]
  | some owner =>
    obtain ⟨check, rules, stamps⟩ := Model.create_stamps .item owned (ruled owner owned)
    rw [rules] at admitted asked
    have word := Text.isWord_of_isIdentifier (decoded.owner_identifier owned)
    obtain ⟨t, reached, args⟩ :=
      authorize_stamps (s := host.start.state) told stamps word admitted
    refine ⟨t, ?_, ?_⟩
    · rw [Begins, ofRequest_checked asked ungated, reached, Step.next_andThen]
    · have stamped : t.args =
          host.call.args.put "input" (.map (host.ownedInput m input)) := by
        rw [args, ownedInput, owned, ← Value.put, ← given]
        rfl
      cases arguments : host.call.args with
      | map entries =>
        rw [stamped, arguments, Value.put, Value.field_map, Entries.get?_put_self]
        rfl
      | scalar | list =>
        rw [arguments] at given
        cases given

end Runs

end Host

/-! ### Whose the record is -/

namespace Model

/-- What a property holds in a new record if the server sets it. -/
def managedValue (m : Model) (config : Config) (library : Library) (name : String) : Value :=
  if name = config.identifierField then m.newKey library else m.newTime library

section NewRecord

variable {m : Model} {config : Config} {library : Library} {input : Entries} {name : String}

theorem newRecord_managed (declared : m.hasProperty name = true)
    (managed : isManaged config name = true) :
    (m.newRecord config library input).get? name = some (m.managedValue config library name) := by
  have timed : name ≠ config.identifierField → name ∈ m.timestamps config := by
    intro other
    have time : name ∈ config.managedTimestamps := by simpa [isManaged, other] using managed
    exact List.mem_filter.mpr ⟨time, declared⟩
  rw [newRecord_get?, managedValue]
  split
  · rfl
  · next other => rw [if_pos (timed other)]

/-- What the server does not set is that of the input; a row has all its columns. -/
theorem newRecord_unmanaged (declared : m.hasProperty name = true)
    (unmanaged : isManaged config name = false) :
    (m.newRecord config library input).get? name =
      if m.engine = .relational then some ((Value.map input).field name) else input.get? name := by
  obtain ⟨other, untimed⟩ := isManaged_eq_false_iff.mp unmanaged
  have untimed : name ∉ m.timestamps config := fun timed => untimed (List.mem_of_mem_filter timed)
  rw [newRecord_get?, if_neg other, if_neg untimed]
  split
  · next relational =>
    obtain ⟨p, property, named⟩ := List.mem_map.mp (List.contains_iff_mem.mp declared)
    have writable : name ∈ m.writableFields config := by
      refine List.mem_map.mpr ⟨p, List.mem_filter.mpr ⟨property, ?_⟩, named⟩
      rw [named, unmanaged]
      rfl
    rw [newFields_get? relational, if_pos writable]
  · next relational => rw [newFields, if_neg relational]

/-- A property of the input comes into the record, unless the server sets it. -/
theorem newRecord_put (v : Value) (declared : m.hasProperty name = true) :
    (m.newRecord config library (input.put (.text name) v)).get? name =
      some (if isManaged config name then m.managedValue config library name else v) := by
  have put : ((input.put (.text name) v : Entries)).get? name = some v :=
    Entries.get?_put_self _ _ _
  cases managed : isManaged config name with
  | true => rw [newRecord_managed declared managed, if_pos rfl]
  | false =>
    rw [newRecord_unmanaged declared managed, Value.field_map, put, Option.getD_some, ite_self,
      if_neg (by decide)]

end NewRecord

end Model

/-- A create that is granted makes a record, unless that would be a row with a column twice.  The
record is its creator's as long as the server does not set the owner property itself: there, the
key or the time takes the place of the caller. -/
theorem creator_owns {host : Host} {models : List Model} {seeds : Review.SeedData} {m : Model}
    {owner sub : String} {input : Entries} (passes : Review.Passes host.config models seeds)
    (member : m ∈ models) (decoded : m.IsDecoded) (stored : m.engine.isStored = true)
    (owned : m.ownerField = some owner) (ruled : m.RulesCreate)
    (known : host.call.caller.sub = some sub)
    (granted : m.Grants .create host.call.caller fun _ => host.call.caller.isIdentified = true)
    (typesMaps : host.library.TypesMaps) (given : host.call.args.field "input" = .map input) :
    ∃ c resolver, m.compile host.config models = .ok c ∧ c.resolver .create = .ok resolver ∧
      ((m.engine = .relational → (m.insertColumns host.config).Nodup) →
        ∃ r, (host.run resolver).creates r) ∧
      ∀ r, (host.run resolver).creates r →
        r.get? owner = some (if Model.isManaged host.config owner then
          m.managedValue host.config host.library owner else .text sub) ∧
        (host.call.caller.owns owner r = true ↔ (Model.isManaged host.config owner = true →
          m.managedValue host.config host.library owner = .text sub)) := by
  obtain ⟨c, compiled⟩ := passes.compiles member stored
  obtain ⟨resolver, found, resolved⟩ := Model.compile_resolver compiled .create
  obtain ⟨binding, bound, _⟩ := Model.resolver_ok resolved
  have kept : m.KeptAt host.config (sharedCluster models host.config) binding :=
    ⟨decoded, passes.identifier_declared member, stored, bound⟩
  obtain ⟨t, begun, stamped⟩ :=
    Host.create_begins decoded (fun _ _ => ruled) granted resolved given
  have caller : subValue host.call.caller = .text sub := by rw [subValue, known]; rfl
  rw [Host.ownedInput, owned, caller] at stamped
  have makes : ∀ r, (host.run resolver).creates r ↔
      m.Makes host.config host.library (input.put (.text owner) (.text sub)) r :=
    fun r => Host.run_creates kept typesMaps resolved begun stamped
  refine ⟨c, resolver, compiled, found, fun apart => ?_, fun r created => ?_⟩
  · exact ⟨_, (makes _).mpr ⟨apart, fun _ => rfl⟩⟩
  · have held := ((makes r).mp created).2 owner
    rw [Model.newRecord_put _ (Model.ownerField_declared owned)] at held
    refine ⟨held, ?_⟩
    rw [Caller.owns_iff known, held]
    cases Model.isManaged host.config owner <;> simp

/-- A library in which all keys are the same, and only maps are written out. -/
def oneKey : Library where
  call
    | "", "autoId", _ => .text "k1"
    | "dynamodb", "toMapValuesJson", [.map entries] => .map (Value.typedEntries entries)
    | _, _, _ => .null
  written := .text
  print _ := ""

theorem oneKey_typesMaps : oneKey.TypesMaps := by
  intro entries name
  change Entries.get? (Value.typedEntries entries) name = _
  induction entries with
  | nil => rfl
  | cons e rest ih =>
    obtain ⟨key, v⟩ := e
    by_cases same : key = .text name
    · simp [Value.typedEntries, Entries.get?, same]
    · simpa [Value.typedEntries, Entries.get?, same] using ih

/-- Whoever signs up is to own the account by its identifier. -/
def ownAccount : Value := .object [
  ("name", .text "Account"),
  ("properties", .object [
    ("id", .object [("type", .text "ID"), ("isOwner", .bool true)]),
    ("email", .object [("type", .text "String")])]),
  ("dataSource", .object [("type", .text "database"), ("engine", .text "nosql")]),
  ("accessControl", .object [("rules", .list [
    .object [("allow", .text "create"), ("owner", .bool true)],
    .object [("allow", .text "read"), ("owner", .bool true)]])])]

def annSignsUp : Host where
  config := .default
  library := oneKey
  call := ⟨⟨some "ann", none⟩,
    .object [("input", .object [("email", .text "ann@example.com")])], .null, .null⟩
  reply _ := .null

theorem creator_owns_ownAccount :
    ∃ m c resolver r, Model.decode ownAccount = .ok m ∧ Review.Passes .default [m] [] ∧
      m.compile .default [m] = .ok c ∧ c.resolver .create = .ok resolver ∧
      (annSignsUp.run resolver).creates r ∧ r.get? "id" = some (.text "k1") ∧
      annSignsUp.call.caller.owns "id" r = false := by
  obtain ⟨m, read, document, owned, controlled, harmless⟩ : ∃ m, Model.decode ownAccount = .ok m ∧
      m.engine = .document ∧ m.ownerField = some "id" ∧
      m.accessControl = some ⟨.deny, [⟨.create, [], true⟩, ⟨.read, [], true⟩]⟩ ∧
      ∀ f ∈ Review.all .default [m] [], f.level ≠ .error :=
    ⟨_, rfl, rfl, rfl, rfl, by decide +kernel⟩
  have passes : Review.Passes annSignsUp.config [m] [] := Report.isValid_ofFindings.mpr harmless
  have granted : m.Grants .create annSignsUp.call.caller fun _ =>
      annSignsUp.call.caller.isIdentified = true := by
    have ruled : (⟨.create, [], true⟩ : AccessRule) ∈ (⟨.deny, [⟨.create, [], true⟩,
        ⟨.read, [], true⟩]⟩ : AccessControl).rulesFor .create := by decide
    exact .toOwner controlled ruled rfl owned (by decide)
  obtain ⟨c, resolver, compiled, found, makes, each⟩ := creator_owns passes
    (List.mem_singleton_self m) ⟨ownAccount, read⟩ (by rw [document]; rfl) owned
    ⟨_, controlled, by decide⟩ (rfl : annSignsUp.call.caller.sub = some "ann") granted
    oneKey_typesMaps (rfl : annSignsUp.call.args.field "input" =
      .map [(.text "email", .text "ann@example.com")])
  obtain ⟨r, created⟩ := makes (by simp [document])
  obtain ⟨held, owns⟩ := each r created
  have key : m.managedValue annSignsUp.config annSignsUp.library "id" = .text "k1" := by
    rw [Model.managedValue, if_pos (by decide), Model.newKey, if_neg (by simp [document])]
    rfl
  have managed : Model.isManaged annSignsUp.config "id" = true := by decide
  rw [managed, key] at held owns
  refine ⟨m, c, resolver, r, read, passes, compiled, found, created, held, ?_⟩
  rw [Bool.eq_false_iff]
  exact fun mine => absurd (owns.mp mine rfl) (by decide)

end ApiLoom
