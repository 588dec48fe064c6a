import ApiLoom.Proofs.Admission
import ApiLoom.Proofs.ReadAccess
import ApiLoom.Proofs.Safeguards

/-!
# Provisional authorization

A request may let the caller in provisionally, by a flag in the stash.  Wherever a
resolver does so, a later template of it decides by the same owner property, and no
other template touches the flags.
-/

namespace ApiLoom

open Template Script

/-! ### What is decided -/

def AuthCheck.ownerClause? : AuthCheck → Option OwnerClause
  | rules check => check.ownerClause
  | _ => none

/-- The owner property by which a request lets a caller in provisionally. -/
def RequestPlan.owner? (plan : RequestPlan) : Option String :=
  (plan.auth.bind AuthCheck.ownerClause?).map (·.ownerField)

def Exchange.templates (config : Config) (e : Exchange) : List Script :=
  [ofRequest config e.request, ofResponse config e.response]

theorem Exchange.mem_templates {config : Config} {e : Exchange} {script : Script} :
    script ∈ e.templates config ↔
      script = ofRequest config e.request ∨ script = ofResponse config e.response := by
  simp [templates]

namespace RootResolver

variable (config : Config) (r : RootResolver)

/-- The exchange of the operation itself, in a stage of its own where there are stages. -/
def main? : Option Exchange :=
  match r.execution with
  | .unit _ => some r.exchange
  | .pipeline stages => (stages.find? fun s => s.kind = .main).map (·.exchange)

def request : Script := ofRequest config r.exchange.request

def laterTemplates : List Script :=
  r.stages.flatMap (fun s => s.exchange.templates config) ++ [ofResponse config r.exchange.response]

/-- The stored record is fetched right before the write, which waits for the confirmation that
only the response to the fetch can give. -/
def Confirms (owner : String) : Prop :=
  ∃ before fetch main after, r.execution = .pipeline (before ++ fetch :: main :: after) ∧
    fetch.kind = .preFetch ∧ main.kind = .main ∧
    (ofResponse config fetch.exchange.response).Verifies ⟨owner, .deny⟩ ∧
    (ofResponse config fetch.exchange.response).Sets ownershipConfirmed ∧
    (ofRequest config fetch.exchange.request).Spares ownershipConfirmed ∧
    (∀ script ∈ r.exchange.templates config, script.Spares ownershipConfirmed) ∧
    (∀ s ∈ before ++ main :: after, ∀ script ∈ s.exchange.templates config,
      script.Spares ownershipConfirmed) ∧
    (ofRequest config main.exchange.request).WaitsFor ownershipConfirmed

/-- Whatever the request leaves open is decided later, by the owner property that it names. -/
structure Decides : Prop where
  get : r.field = .get → (r.request config).Sets needsOwnershipCheck →
    ∃ owner main, r.exchange.request.owner? = some owner ∧ r.main? = some main ∧
      (ofResponse config main.response).Verifies ⟨owner, .nullResult⟩
  write : r.field = .update ∨ r.field = .delete → (r.request config).Sets needsOwnershipCheck →
    ∃ owner, r.exchange.request.owner? = some owner ∧ r.Confirms config owner
  list : (r.request config).Sets filterByOwner →
    ∃ owner main, r.exchange.request.owner? = some owner ∧ r.main? = some main ∧
      (ofResponse config main.response).KeepsOwn owner
  unchecked : r.field = .list ∨ r.field = .create → (r.request config).Spares needsOwnershipCheck
  unfiltered : r.field ≠ .list → (r.request config).Spares filterByOwner
  later : ∀ script ∈ r.laterTemplates config,
    script.Spares needsOwnershipCheck ∧ script.Spares filterByOwner

end RootResolver

/-- A subscription delivers the records of the caller where its request asks for it. -/
structure SideResolver.DecidesDelivery (config : Config) (r : SideResolver) : Prop where
  narrows : (ofRequest config r.exchange.request).Sets filterByOwner →
    ∃ owner, r.exchange.request.owner? = some owner ∧
      (ofResponse config r.exchange.response).Narrows owner
  unchecked : (ofRequest config r.exchange.request).Spares needsOwnershipCheck

/-! ### Flags and other keys -/

def decisionFlags : List String := [needsOwnershipCheck, filterByOwner, ownershipConfirmed]

/-- The entries on which no decision depends. -/
def otherKeys : List String :=
  ["debug-auth-failed", pageLimitKey, pageOffsetKey, requestIdKey] ++
    HookPhase.all.flatMap fun phase => Operation.all.map fun operation =>
      hookName phase operation ++ "Result"

theorem otherKeys_plain : ∀ key ∈ otherKeys, '$' ∉ key.toList := by decide

theorem decisionFlags_plain : ∀ flag ∈ decisionFlags, '$' ∉ flag.toList := by decide

theorem otherKeys_apart : ∀ flag ∈ decisionFlags, flag ∉ otherKeys := by decide

section Keys

variable {config : Config} {flag : String}

theorem spares_of_otherKeys {script : Script} {keys : List String}
    (written : script.stashKeys = keys.map .plain) (other : ∀ key ∈ keys, key ∈ otherKeys)
    (decides : flag ∈ decisionFlags) : script.Spares flag :=
  spares_of_keys written (fun key member => otherKeys_plain key (other key member))
    fun member => otherKeys_apart flag decides (other flag member)

theorem noteKeys_other : ∀ key ∈ noteKeys config, key ∈ otherKeys := by
  unfold noteKeys
  cases config.debugInstrumentation <;> decide

theorem ownerFlag_decides {mode : OwnerMode} (flags : OwnerMode.flag mode = some flag) :
    flag ∈ decisionFlags := by
  cases mode <;> cases flags <;> decide

theorem authKeys_known (check : AuthCheck) :
    ∀ key ∈ authKeys config check, key ∈ decisionFlags ∨ key ∈ otherKeys := by
  intro key member
  cases check with
  | rules check =>
    simp only [authKeys, List.mem_append, Option.mem_toList, Option.bind_eq_some_iff] at member
    rcases member with ⟨owner, -, flags⟩ | note
    · exact Or.inl (ownerFlag_decides flags)
    · exact Or.inr (noteKeys_other key note)
  | _ => cases member

theorem unasked_spares {plan : RequestPlan} (unasked : plan.auth = none)
    (keeps : ∀ key ∈ operationKeys plan.operation, key ∈ otherKeys)
    (decides : flag ∈ decisionFlags) : (ofRequest config plan).Spares flag := by
  refine spares_of_otherKeys (ofRequest_stashKeys plan) ?_ decides
  simpa [requestKeys, unasked] using keeps

theorem asked_sets_iff {plan : RequestPlan} {check : AuthCheck} (asked : plan.auth = some check)
    (keeps : ∀ key ∈ operationKeys plan.operation, key ∈ otherKeys)
    (decides : flag ∈ decisionFlags) :
    (ofRequest config plan).Sets flag ↔ flag ∈ authKeys config check := by
  have kept : flag ∉ operationKeys plan.operation :=
    fun member => otherKeys_apart flag decides (keeps flag member)
  rw [sets_iff (ofRequest_stashKeys plan)]
  simp [requestKeys, asked, kept]

theorem asked_spares {plan : RequestPlan} {check : AuthCheck} (asked : plan.auth = some check)
    (keeps : ∀ key ∈ operationKeys plan.operation, key ∈ otherKeys)
    (decides : flag ∈ decisionFlags) (unset : flag ∉ authKeys config check) :
    (ofRequest config plan).Spares flag := by
  refine spares_of_keys (ofRequest_stashKeys plan) (fun key member => ?_) ?_
  · simp only [requestKeys, asked, Option.map_some, Option.getD_some, List.mem_append] at member
    rcases member with checked | kept
    · rcases authKeys_known check key checked with flags | other
      · exact decisionFlags_plain key flags
      · exact otherKeys_plain key other
    · exact otherKeys_plain key (keeps key kept)
  · intro member
    have set : (ofRequest config plan).Sets flag := (sets_iff (ofRequest_stashKeys plan)).mpr member
    exact unset ((asked_sets_iff asked keeps decides).mp set)

theorem response_spares {plan : ResponsePlan}
    (keeps : ∀ key ∈ shapeKeys plan.shape, key ∈ otherKeys)
    (decides : flag ∈ decisionFlags) : (ofResponse config plan).Spares flag :=
  spares_of_otherKeys (ofResponse_stashKeys plan) keeps decides

theorem Exchange.templates_spare {e : Exchange} (unasked : e.request.auth = none)
    (keeps : ∀ key ∈ operationKeys e.request.operation, key ∈ otherKeys)
    (notes : ∀ key ∈ shapeKeys e.response.shape, key ∈ otherKeys)
    (decides : flag ∈ decisionFlags) : ∀ script ∈ e.templates config, script.Spares flag := by
  intro script listed
  rcases Exchange.mem_templates.mp listed with rfl | rfl
  · exact unasked_spares unasked keeps decides
  · exact response_spares notes decides

end Keys

namespace Model

variable {m : Model} {config : Config} {cluster : Option Cluster} {field : RootField}
  {binding : Binding} {flag : String}

/-- A check sets a flag only for the owner property of stored records. -/
theorem authCheck_sets {operation : Operation} {scope : AccessScope}
    (decides : flag ∈ decisionFlags)
    (set : flag ∈ authKeys config (m.authCheck operation scope)) :
    OwnerMode.flag (ownerMode operation scope) = some flag ∧
      ∃ owner, m.guardedOwner operation = some owner ∧
        (m.authCheck operation scope).ownerClause? = some ⟨owner, ownerMode operation scope⟩ := by
  unfold authCheck at set ⊢
  cases controlled : m.accessControl with
  | none => simp [controlled, authKeys] at set
  | some access =>
    simp only [controlled] at set ⊢
    split at set
    · cases policy : access.default <;> simp [policy, authKeys] at set
    · next ruled =>
      rw [if_neg ruled]
      have unnoted : flag ∉ noteKeys config :=
        fun member => otherKeys_apart flag decides (noteKeys_other flag member)
      simp only [authKeys, List.mem_append, unnoted, or_false, Option.mem_toList,
        Option.bind_eq_some_iff] at set
      obtain ⟨clause, ⟨owner, declared, ruled⟩, flags⟩ := set
      split at ruled
      · next owned =>
        obtain rfl := Option.some.inj ruled
        have stored : operation ≠ .create := by
          rintro rfl
          cases flags
        refine ⟨flags, owner, ?_, ?_⟩
        · simp [guardedOwner, stored, controlled, owned, declared]
        · simp [AuthCheck.ownerClause?, owned, declared]
      · cases ruled

/-! ### Keys of data operations -/

theorem mainOperation_operationKeys (config : Config) (gated : Bool) :
    operationKeys (m.mainOperation config field gated).1 =
      match m.engine, field with
      | .relational, .list => [pageLimitKey, pageOffsetKey]
      | .queued, _ => [requestIdKey]
      | _, _ => [] := by
  unfold mainOperation
  cases m.engine <;> cases field <;> rfl

theorem mainOperation_keeps (config : Config) (gated : Bool) :
    ∀ key ∈ operationKeys (m.mainOperation config field gated).1, key ∈ otherKeys := by
  rw [mainOperation_operationKeys]
  split <;> decide

theorem shapeKeys_withLocalTimes (shape : ResultShape) (fields : List String) :
    shapeKeys (shape.withLocalTimes fields) = shapeKeys shape := by
  unfold ResultShape.withLocalTimes
  split
  · rfl
  · cases shape <;> rfl

theorem mainOperation_shapeKeys (config : Config) (gated : Bool) :
    shapeKeys (m.mainOperation config field gated).2 = [] := by
  unfold mainOperation
  rw [shapeKeys_withLocalTimes]
  cases m.engine <;> cases field <;> rfl

theorem fetchByKey_keeps {keyExpression : String} {operation : DataOperation}
    {source : RecordSource}
    (fetched : m.fetchByKey config keyExpression = .ok (operation, source)) :
    operationKeys operation = [] := by
  unfold fetchByKey at fetched
  split at fetched <;> cases fetched <;> rfl

/-! ### Templates that set no flag -/

theorem hookStage_spares {phase : HookPhase} {s : Stage} (decides : flag ∈ decisionFlags)
    (member : s ∈ m.hookStage field phase) :
    ∀ script ∈ s.exchange.templates config, script.Spares flag := by
  obtain ⟨function, _, _, rfl⟩ := mem_hookStage member
  refine Exchange.templates_spare rfl (by intro key none; cases none) (fun key noted => ?_) decides
  obtain rfl : key = hookName phase field.operation ++ "Result" := List.mem_singleton.mp noted
  generalize field.operation = operation
  cases phase <;> cases operation <;> decide

theorem hookStage_kind {phase : HookPhase} {s : Stage} (member : s ∈ m.hookStage field phase) :
    s.kind ≠ .main := by
  obtain ⟨function, _, _, rfl⟩ := mem_hookStage member
  change phase.stageKind ≠ .main
  cases phase <;> decide

theorem mainExchange_spares (decides : flag ∈ decisionFlags) :
    ∀ script ∈ (m.mainExchange config field).templates config, script.Spares flag := by
  refine Exchange.templates_spare rfl (mainOperation_keeps config _) (fun key noted => ?_) decides
  rw [mainExchange, mainOperation_shapeKeys] at noted
  cases noted

theorem fetchStage_kind {fetch : List Stage} {s : Stage}
    (fetched : m.preFetchStage config field binding = .ok fetch) (member : s ∈ fetch) :
    s.kind ≠ .main := by
  cases gated : m.isGated field with
  | false =>
    obtain rfl : [] = fetch := by simpa [preFetchStage, gated] using fetched
    cases member
  | true =>
    obtain ⟨stage, _, _, _, rfl, _, kind, _⟩ := preFetchStage_gated gated fetched
    obtain rfl := List.mem_singleton.mp member
    rw [kind]
    decide

theorem fetchStage_spares {fetch : List Stage} {s : Stage} (decides : flag ∈ decisionFlags)
    (provisional : flag ≠ ownershipConfirmed)
    (fetched : m.preFetchStage config field binding = .ok fetch) (member : s ∈ fetch) :
    ∀ script ∈ s.exchange.templates config, script.Spares flag := by
  cases gated : m.isGated field with
  | false =>
    obtain rfl : [] = fetch := by simpa [preFetchStage, gated] using fetched
    cases member
  | true =>
    obtain ⟨stage, _, operation, source, rfl, found, _, _, performs, unasked, _, confirms⟩ :=
      preFetchStage_gated gated fetched
    obtain rfl := List.mem_singleton.mp member
    intro script listed
    rcases Exchange.mem_templates.mp listed with rfl | rfl
    · refine unasked_spares unasked (fun key noted => ?_) decides
      rw [performs, fetchByKey_keeps found] at noted
      cases noted
    · refine spares_of_keys (ofResponse_stashKeys _) ?_ ?_ <;> rw [confirms]
      · intro key noted
        obtain rfl := List.mem_singleton.mp noted
        decide
      · exact fun noted => provisional (List.mem_singleton.mp noted)

/-! ### Root resolvers -/

theorem filtersField_iff (field : RootField) :
    OwnerMode.flag (ownerMode field.operation field.scope) = some filterByOwner ↔
      field = .list := by
  cases field <;> decide

theorem checksField_iff (field : RootField) :
    OwnerMode.flag (ownerMode field.operation field.scope) = some needsOwnershipCheck ↔
      ¬ (field = .list ∨ field = .create) := by
  cases field <;> decide

section Resolvers

variable {r : RootResolver}

theorem resolver_keeps (resolved : m.resolver config cluster field = .ok r) :
    ∀ key ∈ operationKeys r.exchange.request.operation, key ∈ otherKeys := by
  obtain ⟨binding, _, _, ⟨_, rfl⟩ | ⟨_, fetch, _, rfl⟩⟩ := resolver_ok resolved
  · exact mainOperation_keeps config _
  · intro key none
    cases none

theorem resolver_sets (resolved : m.resolver config cluster field = .ok r)
    (decides : flag ∈ decisionFlags) (set : (r.request config).Sets flag) :
    OwnerMode.flag (ownerMode field.operation field.scope) = some flag ∧
      ∃ owner, m.guardedOwner field.operation = some owner ∧
        r.exchange.request.owner? = some owner := by
  obtain ⟨asked, _⟩ := resolver_request resolved
  have checked := (asked_sets_iff asked (resolver_keeps resolved) decides).mp set
  obtain ⟨flags, owner, guarded, clause⟩ := authCheck_sets decides checked
  refine ⟨flags, owner, guarded, ?_⟩
  simp [RequestPlan.owner?, asked, clause]

theorem resolver_spares (resolved : m.resolver config cluster field = .ok r)
    (decides : flag ∈ decisionFlags)
    (other : OwnerMode.flag (ownerMode field.operation field.scope) ≠ some flag) :
    (r.request config).Spares flag := by
  obtain ⟨asked, _⟩ := resolver_request resolved
  exact asked_spares asked (resolver_keeps resolved) decides
    fun set => other (authCheck_sets decides set).1

theorem resolver_main (resolved : m.resolver config cluster field = .ok r) :
    ∃ main, r.main? = some main ∧ main.response = (m.mainExchange config field).response := by
  obtain ⟨binding, _, _, ⟨_, rfl⟩ | ⟨_, fetch, fetched, rfl⟩⟩ := resolver_ok resolved
  · exact ⟨_, rfl, rfl⟩
  · have before : ((m.hookStage field .before).find? fun s => s.kind = .main) = none := by
      simpa using fun s member => hookStage_kind member
    have unmain : (fetch.find? fun s => s.kind = .main) = none := by
      simpa using fun s member => fetchStage_kind fetched member
    refine ⟨m.mainExchange config field, ?_, rfl⟩
    simp [RootResolver.main?, pipelineResolver, List.find?_append, before, unmain, mainStage]

theorem resolver_later (resolved : m.resolver config cluster field = .ok r)
    (decides : flag ∈ decisionFlags) (provisional : flag ≠ ownershipConfirmed) :
    ∀ script ∈ r.laterTemplates config, script.Spares flag := by
  obtain ⟨binding, _, _, ⟨_, rfl⟩ | ⟨_, fetch, fetched, rfl⟩⟩ := resolver_ok resolved
  · intro script listed
    obtain rfl := List.mem_singleton.mp listed
    exact mainExchange_spares decides _ (Exchange.mem_templates.mpr (Or.inr rfl))
  · intro script listed
    rcases List.mem_append.mp listed with staged | own
    · obtain ⟨s, member, templates⟩ := List.mem_flatMap.mp staged
      simp only [pipelineResolver, RootResolver.stages, Execution.stages, List.mem_append,
        List.mem_singleton] at member
      rcases member with ((before | fetch) | rfl) | after
      · exact hookStage_spares decides before script templates
      · exact fetchStage_spares decides provisional fetched fetch script templates
      · exact mainExchange_spares decides script templates
      · exact hookStage_spares decides after script templates
    · obtain rfl := List.mem_singleton.mp own
      exact response_spares (fun key none => by cases none) decides

/-- A write that depends on the stored record fetches it, and waits for its confirmation. -/
theorem resolver_confirms {owner : String} (resolved : m.resolver config cluster field = .ok r)
    (gated : m.isGated field = true) (stored : field.operation ≠ .read)
    (guarded : m.guardedOwner field.operation = some owner) : r.Confirms config owner := by
  have decides : ownershipConfirmed ∈ decisionFlags := by decide
  have unset : (r.request config).Spares ownershipConfirmed :=
    resolver_spares resolved decides (by cases ownerMode field.operation field.scope <;> decide)
  obtain ⟨binding, _, _, ⟨unit, _⟩ | ⟨_, fetch, fetched, rfl⟩⟩ := resolver_ok resolved
  · rw [isGated_of_isUnit unit] at gated
    cases gated
  obtain ⟨stage, _, operation, source, rfl, found, kind, _, performs, unasked, _, confirms⟩ :=
    preFetchStage_gated gated fetched
  rw [verification, guarded, Option.map_some, if_neg stored] at confirms
  refine ⟨m.hookStage field .before, stage, m.mainStage config field binding,
    m.hookStage field .after, ?_, kind, rfl, ofResponse_confirm_verifies confirms, ?_, ?_, ?_, ?_,
    ?_⟩
  · simp [pipelineResolver]
  · rw [sets_iff (ofResponse_stashKeys _), confirms]
    exact List.mem_singleton.mpr rfl
  · refine unasked_spares unasked (fun key noted => ?_) decides
    rw [performs, fetchByKey_keeps found] at noted
    cases noted
  · intro script listed
    rcases Exchange.mem_templates.mp listed with rfl | rfl
    · exact unset
    · exact response_spares (fun key none => by cases none) decides
  · intro s member
    rcases List.mem_append.mp member with before | main
    · exact hookStage_spares decides before
    · rcases List.mem_cons.mp main with rfl | after
      · exact mainExchange_spares decides
      · exact hookStage_spares decides after
  · exact ofRequest_waitsFor rfl (by simp [mainStage, mainExchange, gated]) (by decide)

theorem unqueued_of_guarded {owner : String} (resolved : m.resolver config cluster field = .ok r)
    (guarded : m.guardedOwner field.operation = some owner) : m.isRateLimited = false := by
  obtain ⟨_, _, unowned, _⟩ := resolver_ok resolved
  cases queued : m.isRateLimited with
  | false => rfl
  | true => simp [unowned queued] at guarded

theorem get_verifies {owner : String} (resolved : m.resolver config cluster .get = .ok r)
    (guarded : m.guardedOwner .read = some owner) :
    ∃ main, r.main? = some main ∧
      (ofResponse config main.response).Verifies ⟨owner, .nullResult⟩ := by
  obtain ⟨main, found, answers⟩ := resolver_main resolved
  obtain ⟨source, localTimes, shape, _⟩ :=
    mainOperation_get config (m.isGated .get) (unqueued_of_guarded resolved guarded)
  have verified : m.verification .read = some ⟨owner, .nullResult⟩ := by
    rw [verification, guarded]
    rfl
  refine ⟨main, found, ?_⟩
  rw [answers]
  exact ofResponse_single_verifies (shape.trans (by rw [verified]))

theorem list_keepsOwn {owner : String} (decoded : m.IsDecoded)
    (resolved : m.resolver config cluster .list = .ok r)
    (guarded : m.guardedOwner .read = some owner) :
    ∃ main, r.main? = some main ∧ (ofResponse config main.response).KeepsOwn owner := by
  obtain ⟨main, found, answers⟩ := resolver_main resolved
  obtain ⟨source, localTimes, shape, _⟩ :=
    mainOperation_list config (m.isGated .list) (unqueued_of_guarded resolved guarded)
  have filtered : m.collectionFilter = some ⟨[], some owner, some filterByOwner⟩ := by
    rw [collectionFilter, guarded]
    rfl
  refine ⟨main, found, ?_⟩
  rw [answers]
  exact ofResponse_list_keepsOwn (guardedOwner_identifier decoded guarded)
    (shape.trans (by rw [filtered]; rfl))

theorem resolver_decides (decoded : m.IsDecoded)
    (resolved : m.resolver config cluster field = .ok r) : r.Decides config := by
  have same := resolver_field resolved
  have checks : needsOwnershipCheck ∈ decisionFlags := by decide
  have filters : filterByOwner ∈ decisionFlags := by decide
  refine ⟨?_, ?_, ?_, ?_, ?_, fun script listed =>
    ⟨resolver_later resolved checks (by decide) script listed,
      resolver_later resolved filters (by decide) script listed⟩⟩
  · intro get set
    obtain rfl := same.symm.trans get
    obtain ⟨_, owner, guarded, named⟩ := resolver_sets resolved checks set
    obtain ⟨main, found, verifies⟩ := get_verifies resolved guarded
    exact ⟨owner, main, named, found, verifies⟩
  · rintro changes set
    rw [same] at changes
    obtain ⟨_, owner, guarded, named⟩ := resolver_sets resolved checks set
    refine ⟨owner, named, resolver_confirms resolved ?_ ?_ guarded⟩
    · rcases changes with rfl | rfl <;> exact Option.isSome_iff_exists.mpr ⟨owner, guarded⟩
    · rcases changes with rfl | rfl <;> decide
  · intro set
    obtain ⟨flags, owner, guarded, named⟩ := resolver_sets resolved filters set
    obtain rfl := (filtersField_iff field).mp flags
    obtain ⟨main, found, keeps⟩ := list_keepsOwn decoded resolved guarded
    exact ⟨owner, main, named, found, keeps⟩
  · intro other
    rw [same] at other
    exact resolver_spares resolved checks fun flags => (checksField_iff field).mp flags other
  · intro other
    rw [same] at other
    exact resolver_spares resolved filters fun flags => other ((filtersField_iff field).mp flags)

end Resolvers

/-! ### Other resolvers -/

theorem subscription_decides (decoded : m.IsDecoded) (config : Config) (field : RootField) :
    (m.subscription field).DecidesDelivery config := by
  have keeps : ∀ key ∈ operationKeys (m.subscription field).exchange.request.operation,
      key ∈ otherKeys := by
    intro key none
    cases none
  refine ⟨fun set => ?_, asked_spares rfl keeps (by decide) fun set => ?_⟩
  · have checked := (asked_sets_iff rfl keeps (by decide)).mp set
    obtain ⟨_, owner, guarded, clause⟩ := authCheck_sets (by decide) checked
    refine ⟨owner, ?_, ?_⟩
    · simp [RequestPlan.owner?, subscription, clause]
    · refine ofResponse_subscription_narrows (guardedOwner_identifier decoded guarded) ?_
      simp [subscription, collectionFilter, guarded]
  · have never : OwnerMode.flag (ownerMode .read .collection) ≠ some needsOwnershipCheck := by
      decide
    exact never (authCheck_sets (by decide) set).1

theorem jobResultLookup_spares {s : SideResolver}
    (unowned : m.isRateLimited = true → m.guardedOwner .read = none)
    (served : m.jobResultLookup config = some s) (decides : flag ∈ decisionFlags) :
    (ofRequest config s.exchange.request).Spares flag := by
  unfold jobResultLookup at served
  split at served
  · next queued =>
    obtain rfl := Option.some.inj served
    refine asked_spares rfl (fun key none => by cases none) decides fun set => ?_
    obtain ⟨_, owner, guarded, _⟩ := authCheck_sets decides set
    rw [unowned queued] at guarded
    cases guarded
  · cases served

end Model

/-- Where a caller is let in provisionally, a later template decides by the same owner
property; nothing is left open, and no flag is set where nobody reads it.  This is said of the
scripts.  Raw texts with line breaks in them can make a line of a template look like another
action, which is no matter of `Sets`, `Verifies` and `Spares`. -/
theorem provisional_decided {config : Config} {models : List Model} {m : Model} {c : CompiledModel}
    (decoded : m.IsDecoded) (compiled : m.compile config models = .ok c) :
    (∀ r ∈ c.resolvers, r.Decides config) ∧
      (∀ s ∈ c.subscriptions, s.DecidesDelivery config) ∧
      ∀ s, c.jobResultLookup = some s →
        (ofRequest config s.exchange.request).Spares needsOwnershipCheck ∧
          (ofRequest config s.exchange.request).Spares filterByOwner := by
  obtain ⟨resolved, _, subscribed, served⟩ := Model.compileWith_ok compiled
  refine ⟨fun r member => ?_, fun s member => ?_, fun s found => ?_⟩
  · obtain ⟨field, _, resolves⟩ := mem_of_mapM_ok resolved r member
    exact Model.resolver_decides decoded resolves
  · rw [subscribed, Model.subscriptions] at member
    split at member
    · obtain ⟨field, _, rfl⟩ := List.mem_map.mp member
      exact Model.subscription_decides decoded config field
    · cases member
  · obtain ⟨get, _, resolves⟩ := Model.compile_resolver compiled .get
    obtain ⟨_, _, unowned, _⟩ := Model.resolver_ok resolves
    rw [served] at found
    exact ⟨Model.jobResultLookup_spares unowned found (by decide),
      Model.jobResultLookup_spares unowned found (by decide)⟩

theorem provisional_decided_authoredNote :
    ∃ m c get main, Model.decode authoredNote = .ok m ∧ m.compile .default [m] = .ok c ∧
      get ∈ c.resolvers ∧ (get.request .default).Sets needsOwnershipCheck ∧
      get.main? = some main ∧
      (ofResponse .default main.response).Verifies ⟨"author", .nullResult⟩ := by
  obtain ⟨m, c, get, read, compiled, first, field, named, keys⟩ :
      ∃ m c get, Model.decode authoredNote = .ok m ∧ m.compile .default [m] = .ok c ∧
        c.resolvers.head? = some get ∧ get.field = .get ∧
        get.exchange.request.owner? = some "author" ∧
        requestKeys .default get.exchange.request = [needsOwnershipCheck] :=
    ⟨_, _, _, rfl, rfl, rfl, rfl, rfl, rfl⟩
  have member : get ∈ c.resolvers := List.mem_of_mem_head? first
  have set : (get.request .default).Sets needsOwnershipCheck := by
    rw [RootResolver.request, sets_iff (ofRequest_stashKeys _), keys]
    exact List.mem_singleton.mpr rfl
  obtain ⟨decides, _⟩ := provisional_decided ⟨authoredNote, read⟩ compiled
  obtain ⟨owner, main, owned, found, verifies⟩ := (decides get member).get field set
  obtain rfl := Option.some.inj (owned.symm.trans named)
  exact ⟨m, c, get, main, read, compiled, member, set, found, verifies⟩

end ApiLoom
