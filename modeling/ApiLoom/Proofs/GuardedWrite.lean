import ApiLoom.Proofs.Admission
import ApiLoom.Proofs.Stages

/-!
# Guarded writes

An update or a delete is decided in pieces: provisionally by the request, on the
stored record that is fetched first, by a gate, and by the condition of the write
itself.  Together they let a write land only for callers to whom the rules grant it,
whatever happens to the record between the two reads.
-/

namespace ApiLoom

open Template Script

/-! ### Owners in stores -/

section Owners

variable {caller : Caller} {owner : String} {r : Record}

theorem typed_owner_eq (identified : caller.isIdentified = true) :
    ((r.get? owner).any fun v => v.typed = (subValue caller).typed) = caller.owns owner r := by
  obtain ⟨sub, known⟩ := Caller.exists_sub identified
  have same : subValue caller = .text sub := by simp [subValue, known]
  rw [Bool.eq_iff_iff, Caller.owns_iff known, same]
  simp only [Value.typed_eq_iff]
  cases r.get? owner <;> simp

theorem columnIs_owner_eq (identified : caller.isIdentified = true) :
    Store.columnIs r owner (subValue caller) = caller.owns owner r := by
  obtain ⟨sub, known⟩ := Caller.exists_sub identified
  have same : subValue caller = .text sub := by simp [subValue, known]
  rw [Bool.eq_iff_iff, Caller.owns_iff known, same]
  simp [Store.columnIs]

theorem columnIs_key_eq {name : String} {key v : Value} (stored : r.get? name = some key)
    (present : key ≠ .null) : Store.columnIs r name v = decide (v = key) := by
  rw [Store.columnIs, stored]
  by_cases same : v = key
  · simp [same, present]
  · simp [same, Ne.symm same]

end Owners

/-! ### The write itself -/

section Writes

variable {m : Model} {w : World} {s : State} {config : Config} {caller : Caller}
  {cluster : Option Cluster} {field : RootField} {binding : Binding} {gated : Bool}

def inputKey (config : Config) (args : Value) : Value :=
  (args.field "input").field config.identifierField

/-- The key by which a write finds its record; it is that of the input unless a relational
request binds the placeholder of the key once more. -/
def Model.writeKey (m : Model) (config : Config) (field : RootField) (active : Option String)
    (sub now key : Value) : Value :=
  if m.engine = .relational then
    keyBinding config.identifierField active sub
      (if field = .update ∧ config.updatedAtField = config.identifierField then now else key)
  else key

def timeOfUpdate (library : Library) : Value := library.written "$util.time.nowISO8601()"

def activeGuard (m : Model) (gated : Bool) (s : State) : Option String :=
  if s.flagged needsOwnershipCheck then m.ownerGuard gated else none

theorem activeGuard_all {r : Record} {test : String → Bool}
    (same : s.flagged needsOwnershipCheck = true → ∀ owner, test owner = caller.owns owner r) :
    (activeGuard m gated s).all test =
      (activeGuard m gated s).all fun owner => caller.owns owner r := by
  unfold activeGuard
  split
  · next flagged => rw [funext (same flagged)]
  · rfl

structure Model.Writes (m : Model) (config : Config) (cluster : Option Cluster) (field : RootField)
    (binding : Binding) : Prop where
  decoded : m.IsDecoded
  declared : m.hasProperty config.identifierField = true
  stored : m.engine.isStored = true
  bound : Binding.forModel m cluster config = .ok binding
  changes : field = .update ∨ field = .delete

/-- The key and the owner property are words in statements and paths. -/
theorem Model.Writes.words (writes : m.Writes config cluster field binding) (gated : Bool) :
    Text.IsWord config.identifierField ∧
      (∀ owner, m.ownerField = some owner → Text.IsWord owner) ∧
      ∀ owner, m.ownerGuard gated = some owner → Text.IsWord owner := by
  have named : ∀ owner, m.ownerField = some owner → Text.IsWord owner :=
    fun owner owned => Text.isWord_of_isIdentifier (writes.decoded.owner_identifier owned)
  exact ⟨Text.isWord_of_isIdentifier (writes.decoded.declared_identifier writes.declared), named,
    fun owner => ownerGuard_word named⟩

theorem Model.Writes.operation_stored (writes : m.Writes config cluster field binding) :
    field.operation ≠ .create := by
  rcases writes.changes with rfl | rfl <;> decide

theorem Model.Writes.isGated_eq (writes : m.Writes config cluster field binding) :
    m.isGated field = (m.guardedOwner field.operation).isSome := by
  rcases writes.changes with rfl | rfl <;> rfl

theorem Model.Writes.ownerGuard_eq {owner : String}
    (writes : m.Writes config cluster field binding)
    (guarded : m.guardedOwner field.operation = some owner) :
    m.ownerGuard (m.isGated field) = some owner := by
  obtain ⟨_, declared, _⟩ := Model.guardedOwner_eq_some_iff.mp guarded
  rw [writes.isGated_eq, guarded, Option.isSome_some, Model.ownerGuard, if_pos rfl, declared]

/-- What a write asks for changes the record of its key, if that is the caller's where the
caller was let in provisionally. -/
def ChangesOwn (m : Model) (config : Config) (field : RootField) (binding : Binding) (gated : Bool)
    (w : World) (caller : Caller) (s t : State) : Prop :=
  ∀ r : Record, r.get? config.identifierField = some (inputKey config s.args) →
    inputKey config s.args ≠ .null →
    Store.changes (binding, t.output) (some r) =
      ((activeGuard m gated s).all (fun owner => caller.owns owner r) &&
        m.writeKey config field (activeGuard m gated s) (subValue caller)
          (timeOfUpdate w.library) (inputKey config s.args) = inputKey config s.args)

theorem documentWrite_reaches (gated : Bool) (told : w.context.identity = caller.identity config)
    (writes : m.Writes config cluster field binding) (engine : m.engine = .document)
    (known : s.flagged needsOwnershipCheck = true → caller.isIdentified = true) :
    ((perform config (m.mainOperation config field gated).1).exec w s).Reaches
      (ChangesOwn m config field binding gated w caller s) := by
  obtain ⟨word, _, guarded⟩ := writes.words gated
  obtain ⟨ofDocument, _⟩ := Binding.forModel_kind writes.bound
  have changed : ((perform config (m.mainOperation config field gated).1).exec w s).Reaches
      (ChangesDocument config.identifierField (m.ownerGuard gated) caller s) := by
    rcases writes.changes with rfl | rfl <;> rw [Model.mainOperation, engine]
    · exact updateItem_reaches told word guarded
    · exact deleteItem_reaches told word guarded
  refine changed.mono ?_
  rintro t ⟨_, _, writes⟩ r keyed present
  have unbound : m.writeKey config field (activeGuard m gated s) (subValue caller)
      (timeOfUpdate w.library) (inputKey config s.args) = inputKey config s.args := by
    simp [Model.writeKey, engine]
  rw [unbound, decide_eq_true rfl, Bool.and_true,
    ← activeGuard_all fun flagged owner => typed_owner_eq (known flagged)]
  simp only [Store.changes, Option.any_some, ofDocument engine]
  exact writes r keyed

theorem relationalWrite_reaches (gated : Bool) (told : w.context.identity = caller.identity config)
    (writes : m.Writes config cluster field binding) (engine : m.engine = .relational)
    (known : s.flagged needsOwnershipCheck = true → caller.isIdentified = true) :
    ((perform config (m.mainOperation config field gated).1).exec w s).Reaches
      (ChangesOwn m config field binding gated w caller s) := by
  obtain ⟨word, named, _⟩ := writes.words gated
  obtain ⟨_, ofRelational⟩ := Binding.forModel_kind writes.bound
  let last := if field = .update ∧ config.updatedAtField = config.identifierField then
    timeOfUpdate w.library else inputKey config s.args
  have changed : ((perform config (m.mainOperation config field gated).1).exec w s).Reaches
      (ChangesRow config.identifierField (m.ownerGuard gated) caller last s) := by
    rcases writes.changes with rfl | rfl <;> rw [Model.mainOperation, engine]
    · have time : updateBinding w config s = last := by
        simp only [updateBinding, last, true_and]
        rfl
      exact time ▸ sqlUpdate_reaches told word writes.declared named
    · exact sqlDelete_reaches told word named
  refine changed.mono ?_
  rintro t ⟨_, _, writes⟩ r keyed present
  have key : m.writeKey config field (activeGuard m gated s) (subValue caller)
      (timeOfUpdate w.library) (inputKey config s.args) =
        keyBinding config.identifierField (activeGuard m gated s) (subValue caller) last := by
    rw [Model.writeKey, if_pos engine]
  rw [key, ← columnIs_key_eq keyed present,
    ← activeGuard_all fun flagged owner => columnIs_owner_eq (known flagged)]
  simp only [Store.changes, Option.any_some, ofRelational engine]
  exact writes r

theorem write_reaches (gated : Bool) (told : w.context.identity = caller.identity config)
    (writes : m.Writes config cluster field binding)
    (known : s.flagged needsOwnershipCheck = true → caller.isIdentified = true) :
    ((perform config (m.mainOperation config field gated).1).exec w s).Reaches
      (ChangesOwn m config field binding gated w caller s) := by
  have stored := writes.stored
  cases engine : m.engine with
  | document => exact documentWrite_reaches gated told writes engine known
  | relational => exact relationalWrite_reaches gated told writes engine known
  | http => simp [engine, EngineKind.isStored] at stored
  | queued => simp [engine, EngineKind.isStored] at stored

end Writes

/-! ### Stages of a write -/

namespace Host

section Stages

variable {host : Host} {p : Progress} {m : Model} {cluster : Option Cluster} {field : RootField}
  {binding : Binding} {r : Record}

def permits (host : Host) (m : Model) (field : RootField) (p : Progress) (r : Record) : Bool :=
  let active := activeGuard m (m.isGated field) p.state
  let key := inputKey host.config p.args
  active.all (fun owner => host.call.caller.owns owner r) &&
    m.writeKey host.config field active (subValue host.call.caller) (timeOfUpdate host.library)
      key = key

/-- Whether the record seen first lets the caller go on to the write. -/
def confirms (host : Host) (m : Model) (field : RootField) (seen : Option Record) (p : Progress) :
    Bool :=
  (m.guardedOwner field.operation).all fun owner =>
    seen.isSome && !mismatched host.call.caller owner seen p.state

theorem runStage_lands {s : Stage} {body : Value} {q : Progress} {r : Option Record}
    (asked : host.ask p s.exchange.request = .sent body q) :
    (host.runStage p s).lands r = Store.changes (s.binding, body) r := by
  simp [runStage_sent asked, Trace.lands]

theorem mainStage_lands (writes : m.Writes host.config cluster field binding)
    (known : p.state.flagged needsOwnershipCheck = true → host.call.caller.isIdentified = true)
    (keyed : r.get? host.config.identifierField = some (inputKey host.config p.args))
    (present : inputKey host.config p.args ≠ .null) :
    (host.runStage p (m.mainStage host.config field binding)).lands (some r) =
      ((!m.isGated field || p.state.flagged ownershipConfirmed) && host.permits m field p r) := by
  obtain ⟨t, performed, changed⟩ := write_reaches (m.isGated field) (host.told p .null)
    writes known
  let plan := (m.mainStage host.config field binding).exchange.request
  have sent : (ofRequest host.config plan).exec (host.world p .null) p.state = .next t →
      (host.runStage p (m.mainStage host.config field binding)).lands (some r) =
        host.permits m field p r := by
    intro run
    have asked : host.ask p plan = .sent t.output { p with stash := t.stash, args := t.args } := by
      rw [ask, run]
    rw [runStage_lands asked]
    exact changed r keyed present
  cases gated : m.isGated field with
  | false =>
    refine sent ?_
    rw [ofRequest_open rfl (by simp [plan, Model.mainStage, Model.mainExchange, gated])]
    exact performed
  | true =>
    have gate : plan.gate = some ownershipConfirmed := by
      simp [plan, Model.mainStage, Model.mainExchange, gated]
    have run : (ofRequest host.config plan).exec (host.world p .null) p.state =
        if p.state.flagged ownershipConfirmed then
          (perform host.config plan.operation).exec (host.world p .null) p.state
        else .stopped p.state := ofRequest_gated rfl gate (by decide)
    cases confirmed : p.state.flagged ownershipConfirmed with
    | true =>
      rw [confirmed, if_pos rfl] at run
      exact sent (run.trans performed)
    | false =>
      rw [confirmed, if_neg (by decide)] at run
      have stopped : host.ask p plan = .returned ⟨p.stash, p.args, .null⟩ := by
        rw [ask, run]
        rfl
      rw [runStage, stopped]
      rfl

/-- The fetch of the stored record changes none; it refuses the caller, or confirms the record
that was there. -/
theorem fetchStage_run {fetch : List Stage} {owner : String} {seen : Option Record}
    (writes : m.Writes host.config cluster field binding) (gated : m.isGated field = true)
    (guarded : m.guardedOwner field.operation = some owner)
    (fetched : m.preFetchStage host.config field binding = .ok fetch)
    (returned : host.reply .preFetch = m.engine.fetched seen) (p : Progress) (r : Option Record) :
    (host.runStages p fetch).lands r = false ∧
      ((p.state.flagged needsOwnershipCheck = true → host.call.caller.isIdentified = true) →
      if mismatched host.call.caller owner seen p.state then
        (host.runStages p fetch).progress = none
      else ∃ q, (host.runStages p fetch).progress = some q ∧ q.args = p.args ∧
        q.state.flagged needsOwnershipCheck = p.state.flagged needsOwnershipCheck ∧
        q.state.flagged ownershipConfirmed =
          (seen.isSome || p.state.flagged ownershipConfirmed)) := by
  obtain ⟨s, keyExpression, operation, source, rfl, asks, kind, bound, performs, unasked, ungated,
    confirms⟩ := Model.preFetchStage_gated gated fetched
  obtain ⟨t, run, stash, args, reads⟩ := fetch_reaches (s := p.state) (host.told p .null) asks
  have asked : host.ask p s.exchange.request = .sent t.output p := by
    rw [ask, ofRequest_open unasked ungated, performs, run]
    simp [stash, args, Progress.state]
  have denies : m.verification field.operation = some ⟨owner, .deny⟩ := by
    have unread : field.operation ≠ .read := by
      rcases writes.changes with rfl | rfl <;> decide
    rw [Model.verification, guarded, Option.map_some, if_neg unread]
  rw [denies] at confirms
  have finds : ((bindRecord source).exec (host.world p (host.reply s.kind)) p.state).Reaches
      (Found seen p.state) :=
    fetch_finds writes.stored asks (kind ▸ returned)
  rw [runStages_single]
  refine ⟨?_, fun known => ?_⟩
  · rw [runStage_lands asked, bound]
    cases r with
    | none => rfl
    | some r =>
      obtain ⟨ofDocument, ofRelational⟩ := Binding.forModel_kind writes.bound
      obtain ⟨document, relational⟩ := reads r
      have stored := writes.stored
      cases engine : m.engine <;> simp_all [Store.changes, EngineKind.isStored]
  · have answered := confirm_exec owner (host.told p (host.reply s.kind)) known finds
    rw [runStage_sent asked, respond, ofResponse_exec rfl, confirms]
    split
    · next other =>
      rw [if_pos other] at answered
      rw [answered]
    · next own =>
      rw [if_neg own] at answered
      obtain ⟨u, run, args, needed, confirmed⟩ := answered
      rw [run]
      exact ⟨⟨u.stash, u.args, u.output⟩, rfl, args, needed, confirmed⟩

/-! ### Runs of a resolver -/

theorem permits_congr {q : Progress} (args : q.args = p.args)
    (needed : q.state.flagged needsOwnershipCheck = p.state.flagged needsOwnershipCheck) :
    host.permits m field q r = host.permits m field p r := by
  have same : activeGuard m (m.isGated field) q.state =
      activeGuard m (m.isGated field) p.state := by
    rw [activeGuard, activeGuard, needed]
  rw [permits, permits, same, args]

/-- Between the hooks, only the last of the stages can change a record. -/
theorem staged_lands (host : Host) (p : Progress) (m : Model) (field : RootField) (s : Stage)
    (r : Option Record) {fetch : List Stage}
    (quiet : ∀ q, (host.runStages q fetch).lands r = false) :
    ∃ q, p.Keeps q ∧ (host.runStages p (m.hookStage field .before ++ fetch ++ [s] ++
      m.hookStage field .after)).lands r =
        (host.runStages q fetch).progress.any fun t => (host.runStage t s).lands r := by
  obtain ⟨before, q, reached, kept⟩ := hookStage_run host p m field .before
  refine ⟨q, kept, ?_⟩
  have after : ∀ t, (host.runStages t (m.hookStage field .after)).lands r = false :=
    fun t => (hookStage_run host t m field .after).1.lands_eq r
  have fetched : (host.runStages p (m.hookStage field .before ++ fetch)).progress =
      (host.runStages q fetch).progress := by
    rw [runStages_append, Trace.progress_andThen, reached, Option.bind_some]
  have unchanged : (host.runStages p (m.hookStage field .before ++ fetch)).lands r = false := by
    rw [runStages_append, Trace.lands_andThen, before.lands_eq, reached, Option.any_some, quiet,
      Bool.or_self]
  rw [runStages_append, Trace.lands_andThen, runStages_append, Trace.lands_andThen, unchanged,
    fetched]
  simp only [after, runStages_single, Bool.false_or]
  simp

/-- The stages of a write change the record if the stored one is confirmed where it has to be,
and the write itself still permits it. -/
theorem pipeline_lands {fetch : List Stage} {seen : Option Record}
    (writes : m.Writes host.config cluster field binding)
    (fetched : m.preFetchStage host.config field binding = .ok fetch)
    (returned : host.reply .preFetch = m.engine.fetched seen)
    (known : p.state.flagged needsOwnershipCheck = true → host.call.caller.isIdentified = true)
    (unconfirmed : p.state.flagged ownershipConfirmed = false)
    (keyed : r.get? host.config.identifierField = some (inputKey host.config p.args))
    (present : inputKey host.config p.args ≠ .null) :
    (host.runStages p (m.hookStage field .before ++ fetch ++
      [m.mainStage host.config field binding] ++ m.hookStage field .after)).lands (some r) =
        (host.confirms m field seen p && host.permits m field p r) := by
  have flag : needsOwnershipCheck ∈ writeFlags := by decide
  cases gated : m.isGated field with
  | false =>
    obtain rfl : [] = fetch := by simpa [Model.preFetchStage, gated] using fetched
    have unguarded : m.guardedOwner field.operation = none := by
      rw [writes.isGated_eq] at gated
      simpa using gated
    obtain ⟨q, kept, lands⟩ := staged_lands host p m field
      (m.mainStage host.config field binding) (some r)
      (fun q => (rfl : (host.runStages q []).lands (some r) = false))
    rw [lands, runStages, Option.any_some, mainStage_lands writes
      (by rwa [kept.flags _ flag]) (by rwa [kept.args]) (by rwa [kept.args]), gated, confirms,
      unguarded, permits_congr kept.args (kept.flags _ flag)]
    rfl
  | true =>
    obtain ⟨owner, guarded⟩ := Model.guardedOwner_of_isGated gated
    have run := fetchStage_run writes gated guarded fetched returned
    obtain ⟨q, kept, lands⟩ := staged_lands host p m field
      (m.mainStage host.config field binding) (some r) fun q => (run q (some r)).1
    have confirmed := (run q (some r)).2 (by rwa [kept.flags _ flag])
    have mismatch : mismatched host.call.caller owner seen q.state =
        mismatched host.call.caller owner seen p.state := by
      rw [mismatched, mismatched, kept.flags _ flag]
    rw [lands, confirms, guarded, Option.all_some, ← mismatch]
    split at confirmed
    · next other => simp [confirmed, other]
    · next own =>
      obtain ⟨t, reached, args, needed, confirmed⟩ := confirmed
      have needed := needed.trans (kept.flags _ flag)
      have args := args.trans kept.args
      rw [reached, Option.any_some, mainStage_lands writes (by rwa [needed]) (by rwa [args])
        (by rwa [args]), gated, confirmed, permits_congr args needed,
        kept.flags _ (by decide : ownershipConfirmed ∈ writeFlags), unconfirmed]
      simp [own]

/-- A request gets as far as its operation, which it begins in the given state. -/
def Begins (host : Host) (p : Progress) (plan : RequestPlan) (s : State) : Prop :=
  (ofRequest host.config plan).exec (host.world p .null) p.state =
    (perform host.config plan.operation).exec (host.world p .null) s

theorem ask_settled (host : Host) (p : Progress) (plan : RequestPlan) {check : AuthCheck}
    (asked : plan.auth = some check)
    (ungated : plan.gate = none) (unstamped : ∀ c, check = .rules c → c.stamp = none) :
    match check.flagsFor host.call.caller with
    | none => host.ask p plan = .aborted
    | some flags => ∃ t, (p.state.raise flags).AgreesOff decisionLocals t ∧
        host.Begins p plan t := by
  have decided := authorize_exec (s := p.state) (host.told p .null) unstamped
  have run : (ofRequest host.config plan).exec (host.world p .null) p.state =
      ((authorize host.config check).exec (host.world p .null) p.state).andThen
        ((perform host.config plan.operation).exec (host.world p .null)) :=
    ofRequest_checked asked ungated
  cases admitted : check.flagsFor host.call.caller with
  | none =>
    rw [admitted] at decided
    rw [decided, Step.refused_andThen] at run
    simp only [ask, run]
  | some flags =>
    rw [admitted] at decided
    obtain ⟨t, reached, same⟩ := decided
    rw [reached, Step.next_andThen] at run
    exact ⟨t, same, run⟩

theorem ask_checked (host : Host) (p : Progress) (plan : RequestPlan) {check : AuthCheck}
    (asked : plan.auth = some check)
    (ungated : plan.gate = none) (unstamped : ∀ c, check = .rules c → c.stamp = none) :
    match check.flagsFor host.call.caller with
    | none => host.ask p plan = .aborted
    | some flags => ∃ t, (∀ flag, t.flagged flag = (p.state.raise flags).flagged flag) ∧
        t.args = p.args ∧ host.Begins p plan t := by
  have settled := ask_settled host p plan asked ungated unstamped
  cases admitted : check.flagsFor host.call.caller with
  | none =>
    rw [admitted] at settled
    exact settled
  | some flags =>
    rw [admitted] at settled
    obtain ⟨t, same, begun⟩ := settled
    exact ⟨t, same.flagged, same.args, begun⟩

theorem start_unflagged (host : Host) (flag : String) : host.start.state.flagged flag = false := rfl

/-- The first request of a field refuses the caller, or goes on with the flags of its check. -/
theorem ask_first {resolver : RootResolver} (host : Host) (stored : field.operation ≠ .create)
    (resolved : m.resolver host.config cluster field = .ok resolver) :
    match (m.authCheck field.operation field.scope).flagsFor host.call.caller with
    | none => host.ask host.start resolver.exchange.request = .aborted
    | some flags => ∃ t, (∀ flag, t.flagged flag = flags.contains flag) ∧
        t.args = host.call.args ∧ host.Begins host.start resolver.exchange.request t := by
  obtain ⟨asked, ungated⟩ := Model.resolver_request resolved
  have asks := ask_checked host host.start resolver.exchange.request asked ungated
    fun _ => Model.authCheck_unstamped stored
  cases admitted : (m.authCheck field.operation field.scope).flagsFor host.call.caller with
  | none =>
    rw [admitted] at asks
    exact asks
  | some flags =>
    rw [admitted] at asks
    obtain ⟨t, flagged, args, begun⟩ := asks
    refine ⟨t, fun flag => ?_, args, begun⟩
    rw [flagged, State.flagged_raise, start_unflagged, Bool.or_false]

theorem run_unit (host : Host) (m : Model) (field : RootField) (binding : Binding) :
    host.run (m.unitResolver host.config field binding) =
      host.runStage host.start ⟨Naming.rootField m.name field, .main, binding,
        (m.unitResolver host.config field binding).exchange⟩ := rfl

/-- A resolver whose first request is refused sends nothing and hands out nothing. -/
theorem run_aborted {resolver : RootResolver}
    (resolved : m.resolver host.config cluster field = .ok resolver)
    (aborted : host.ask host.start resolver.exchange.request = .aborted) :
    host.run resolver = ⟨[], none⟩ := by
  obtain ⟨binding, _, _, ⟨_, rfl⟩ | ⟨_, fetch, _, rfl⟩⟩ := Model.resolver_ok resolved
  · rw [run_unit, runStage, aborted]
  · have asked : host.ask host.start
        (m.pipelineExchange field (m.authCheck field.operation field.scope)).request = .aborted :=
      aborted
    simp only [run, Model.pipelineResolver, asked]

theorem run_refused {resolver : RootResolver} (stored : field.operation ≠ .create)
    (resolved : m.resolver host.config cluster field = .ok resolver)
    (refused : (m.authCheck field.operation field.scope).flagsFor host.call.caller = none)
    (r : Option Record) : (host.run resolver).lands r = false := by
  have aborted := ask_first host stored resolved
  rw [refused] at aborted
  rw [run_aborted resolved aborted]
  rfl

theorem unit_lands {t : State} {seen : Option Record}
    (writes : m.Writes host.config cluster field binding) (unit : m.isUnit field = true)
    (known : t.flagged needsOwnershipCheck = true → host.call.caller.isIdentified = true)
    (begun : host.Begins host.start (m.unitResolver host.config field binding).exchange.request t)
    (keyed : r.get? host.config.identifierField = some (inputKey host.config t.args))
    (present : inputKey host.config t.args ≠ .null) :
    (host.run (m.unitResolver host.config field binding)).lands (some r) =
      (host.confirms m field seen ⟨t.stash, t.args, .null⟩ &&
        host.permits m field ⟨t.stash, t.args, .null⟩ r) := by
  have unguarded : m.guardedOwner field.operation = none := by
    have ungated := Model.isGated_of_isUnit unit
    rw [writes.isGated_eq] at ungated
    simpa using ungated
  obtain ⟨u, reached, changed⟩ := write_reaches (m.isGated field)
    (host.told host.start .null) writes known
  have asked : host.ask host.start (m.unitResolver host.config field binding).exchange.request =
      .sent u.output ⟨u.stash, u.args, .null⟩ := by
    have operation : (m.unitResolver host.config field binding).exchange.request.operation =
      (m.mainOperation host.config field (m.isGated field)).1 := rfl
    rw [ask, begun, operation, reached]
    rfl
  have landed := runStage_lands (r := some r) (s := ⟨Naming.rootField m.name field, .main,
    binding, (m.unitResolver host.config field binding).exchange⟩) asked
  rw [run_unit, landed, confirms, unguarded, Option.all_none, Bool.true_and]
  exact changed r keyed present

theorem run_pipeline {fetch : List Stage} {t : State}
    (begun : host.Begins host.start
      (m.pipelineResolver host.config field binding fetch).exchange.request t) :
    ∃ p : Progress, p.state.stash = t.stash ∧ p.args = t.args ∧
      (host.run (m.pipelineResolver host.config field binding fetch)).sent =
        (host.runStages p (m.hookStage field .before ++ fetch ++
          [m.mainStage host.config field binding] ++ m.hookStage field .after)).sent := by
  obtain ⟨body, sent⟩ : ∃ body, host.ask host.start
      (m.pipelineExchange field (m.authCheck field.operation field.scope)).request =
        .sent body ⟨t.stash, t.args, .null⟩ := by
    simp only [Begins, Model.pipelineResolver] at begun
    rw [ask, begun]
    exact ⟨_, rfl⟩
  refine ⟨⟨t.stash, t.args, body.field "payload"⟩, rfl, rfl, ?_⟩
  simp only [run, Model.pipelineResolver, sent]

/-- Where the request lets the caller in, the record seen first and the write itself decide. -/
theorem run_admitted {resolver : RootResolver} {seen : Option Record} {flags : List String}
    (writes : m.Writes host.config cluster field binding)
    (resolved : m.resolver host.config cluster field = .ok resolver)
    (admitted : (m.authCheck field.operation field.scope).flagsFor host.call.caller = some flags)
    (returned : host.reply .preFetch = m.engine.fetched seen)
    (keyed : r.get? host.config.identifierField = some (inputKey host.config host.call.args))
    (present : inputKey host.config host.call.args ≠ .null) :
    ∃ p : Progress, p.args = host.call.args ∧
      p.state.flagged needsOwnershipCheck = flags.contains needsOwnershipCheck ∧
      (host.run resolver).lands (some r) =
        (host.confirms m field seen p && host.permits m field p r) := by
  obtain ⟨unset, known⟩ := AuthCheck.flagsFor_provisional admitted
  have asks := ask_first host writes.operation_stored resolved
  rw [admitted] at asks
  obtain ⟨t, flagged, args, begun⟩ := asks
  have needed : t.flagged needsOwnershipCheck = flags.contains needsOwnershipCheck := flagged _
  obtain ⟨other, bound, _, ⟨unit, rfl⟩ | ⟨_, fetch, fetched, rfl⟩⟩ := Model.resolver_ok resolved
  all_goals obtain rfl := Except.ok.inj (writes.bound.symm.trans bound)
  · exact ⟨⟨t.stash, t.args, .null⟩, args, needed, unit_lands writes unit
      (fun set => known (needed ▸ set)) begun (by rwa [args]) (by rwa [args])⟩
  · obtain ⟨p, stash, kept, sent⟩ := run_pipeline begun
    have given := kept.trans args
    have same : ∀ flag, p.state.flagged flag = flags.contains flag := by
      intro flag
      rw [← flagged, State.flagged, stash, State.flagged]
    refine ⟨p, given, same _, ?_⟩
    rw [Trace.lands, sent, ← Trace.lands, pipeline_lands writes fetched returned
      (fun set => known (same _ ▸ set)) (by simp [same, unset]) (by rwa [given]) (by rwa [given])]

end Stages

def key (host : Host) : Value := inputKey host.config host.call.args

/-- The placeholder of the key stands for the key of the input, or what is bound to it instead
is the same: the caller, in a write that goes for owners only, if the key is named like the
placeholder of the owner; else the time of an update, if that goes to the column of the key. -/
def KeyStands (host : Host) (m : Model) (field : RootField) : Prop :=
  m.engine = .relational →
    (host.config.identifierField = "owner" → ¬ m.GrantsAny field.operation host.call.caller →
      subValue host.call.caller = host.key) ∧
    (field = .update → host.config.updatedAtField = host.config.identifierField →
      (host.config.identifierField = "owner" → m.GrantsAny field.operation host.call.caller) →
      timeOfUpdate host.library = host.key)

theorem keyStands_of_grantsAny {host : Host} {m : Model} {field : RootField}
    (granted : m.GrantsAny field.operation host.call.caller) :
    host.KeyStands m field ↔ m.writeKey host.config field none (subValue host.call.caller)
      (timeOfUpdate host.library) host.key = host.key := by
  by_cases relational : m.engine = .relational
  · by_cases restamped : field = .update ∧
      host.config.updatedAtField = host.config.identifierField
    · obtain ⟨rfl, same⟩ := restamped
      simp [KeyStands, Model.writeKey, keyBinding, granted, relational, same]
    · have kept : field = .update → host.config.updatedAtField ≠ host.config.identifierField :=
        fun update same => restamped ⟨update, same⟩
      simp +contextual [KeyStands, Model.writeKey, keyBinding, granted, restamped, kept]
  · simp [KeyStands, Model.writeKey, relational]

theorem keyStands_of_not_grantsAny {host : Host} {m : Model} {field : RootField} (owner : String)
    (ungranted : ¬ m.GrantsAny field.operation host.call.caller) :
    host.KeyStands m field ↔ m.writeKey host.config field (some owner) (subValue host.call.caller)
      (timeOfUpdate host.library) host.key = host.key := by
  by_cases relational : m.engine = .relational
  · by_cases clash : host.config.identifierField = "owner"
    · simp [KeyStands, Model.writeKey, keyBinding, ungranted, relational, clash]
    · by_cases restamped : field = .update ∧
        host.config.updatedAtField = host.config.identifierField
      · simp [KeyStands, Model.writeKey, keyBinding, relational, clash, restamped]
      · have kept : field = .update → host.config.updatedAtField ≠ host.config.identifierField :=
          fun update same => restamped ⟨update, same⟩
        simp +contextual [KeyStands, Model.writeKey, keyBinding, clash, restamped, kept]
  · simp [KeyStands, Model.writeKey, relational]

section Callers

variable {host : Host} {m : Model} {cluster : Option Cluster} {field : RootField}
  {binding : Binding} {resolver : RootResolver} {seen : Option Record} {r : Record}

/-- A caller who is granted the operation whatever the record is only kept from it by a record
that was not there at the first read. -/
theorem lands_of_grantsAny (writes : m.Writes host.config cluster field binding)
    (resolved : m.resolver host.config cluster field = .ok resolver)
    (returned : host.reply .preFetch = m.engine.fetched seen)
    (keyed : r.get? host.config.identifierField = some host.key) (present : host.key ≠ .null)
    (granted : m.GrantsAny field.operation host.call.caller) :
    (host.run resolver).lands (some r) = true ↔
      (m.guardedOwner field.operation ≠ none → seen ≠ none) ∧ host.KeyStands m field := by
  obtain ⟨general, _⟩ :=
    Model.authCheck_flagsFor m field.scope host.call.caller writes.operation_stored
  obtain ⟨p, args, unflagged, lands⟩ := run_admitted writes resolved (general granted) returned
    keyed present
  have owners : host.confirms m field seen p = true ↔
      (m.guardedOwner field.operation ≠ none → seen ≠ none) := by
    simp only [confirms, mismatched, unflagged]
    cases m.guardedOwner field.operation <;> cases seen <;> simp
  rw [lands, keyStands_of_grantsAny granted, Bool.and_eq_true, owners]
  simp [permits, activeGuard, unflagged, args, key]

/-- Any other caller has to be known, and to own the record at both reads. -/
theorem lands_of_not_grantsAny (writes : m.Writes host.config cluster field binding)
    (resolved : m.resolver host.config cluster field = .ok resolver)
    (returned : host.reply .preFetch = m.engine.fetched seen)
    (keyed : r.get? host.config.identifierField = some host.key) (present : host.key ≠ .null)
    (ungranted : ¬ m.GrantsAny field.operation host.call.caller) :
    (host.run resolver).lands (some r) = true ↔
      ∃ owner, m.guardedOwner field.operation = some owner ∧
        host.call.caller.isIdentified = true ∧
        (∃ before, seen = some before ∧ host.call.caller.owns owner before = true) ∧
        host.call.caller.owns owner r = true ∧ host.KeyStands m field := by
  have stored := writes.operation_stored
  obtain ⟨_, provisionally⟩ := Model.authCheck_flagsFor m field.scope host.call.caller stored
  have admission := provisionally ungranted
  cases identified : host.call.caller.isIdentified with
  | false =>
    rw [identified] at admission
    simp [run_refused stored resolved admission]
  | true =>
    rw [identified, if_pos rfl] at admission
    cases guarded : m.guardedOwner field.operation with
    | none =>
      rw [guarded] at admission
      simp [run_refused stored resolved admission]
    | some owner =>
      rw [guarded] at admission
      obtain ⟨p, args, flagged, lands⟩ := run_admitted writes resolved admission returned keyed
        present
      have provisional : p.state.flagged needsOwnershipCheck = true := by
        rw [flagged]
        rcases writes.changes with rfl | rfl <;> rfl
      rw [lands, keyStands_of_not_grantsAny owner ungranted, confirms, guarded, Option.all_some,
        mismatched, provisional, permits, activeGuard, provisional, writes.ownerGuard_eq guarded]
      cases seen <;> simp [key, args]

end Callers

end Host

/-- A write lands exactly for the callers to whom the rules grant it: where only owners may
write, the record has to be the caller's at both reads.  That is as long as the placeholder
of the key stands. -/
theorem guarded_write_lands {host : Host} {models : List Model} {m : Model} {c : CompiledModel}
    {field : RootField} {seen now : Option Record} (decoded : m.IsDecoded)
    (declared : m.hasProperty host.config.identifierField = true)
    (stored : m.engine.isStored = true) (compiled : m.compile host.config models = .ok c)
    (changes : field = .update ∨ field = .delete)
    (returned : host.reply .preFetch = m.engine.fetched seen)
    (keyed : ∀ r, now = some r → r.get? host.config.identifierField = some host.key)
    (present : host.key ≠ .null) :
    ∃ resolver, c.resolver field = .ok resolver ∧
      ((host.run resolver).lands now = true ↔ ∃ r, now = some r ∧
        (m.guardedOwner field.operation ≠ none → seen ≠ none) ∧
        m.Grants field.operation host.call.caller (fun owner =>
          host.call.caller.isIdentified = true ∧
          (∃ before, seen = some before ∧ host.call.caller.owns owner before = true) ∧
            host.call.caller.owns owner r = true) ∧
        host.KeyStands m field) := by
  obtain ⟨resolver, found, resolved⟩ := Model.compile_resolver compiled field
  obtain ⟨binding, bound, _⟩ := Model.resolver_ok resolved
  have writes : m.Writes host.config (sharedCluster models host.config) field binding :=
    ⟨decoded, declared, stored, bound, changes⟩
  refine ⟨resolver, found, ?_⟩
  cases now with
  | none => simp [Trace.lands_none]
  | some r =>
    have keyed := keyed r rfl
    simp only [Option.some.injEq, exists_eq_left',
      Model.grants_iff_guardedOwner writes.operation_stored]
    by_cases granted : m.GrantsAny field.operation host.call.caller
    · rw [Host.lands_of_grantsAny writes resolved returned keyed present granted]
      simp only [granted, true_or, true_and]
    · rw [Host.lands_of_not_grantsAny writes resolved returned keyed present granted]
      simp only [granted, false_or]
      constructor
      · rintro ⟨owner, guarded, identified, ⟨before, rfl, owned⟩, owns, stands⟩
        exact ⟨by simp, ⟨owner, guarded, identified, ⟨before, rfl, owned⟩, owns⟩, stands⟩
      · rintro ⟨-, ⟨owner, guarded, identified, owned, owns⟩, stands⟩
        exact ⟨owner, guarded, identified, owned, owns, stands⟩

def sharedNote : Value := .object [
  ("name", .text "Note"),
  ("properties", .object [
    ("id", .object [("type", .text "ID")]),
    ("author", .object [("type", .text "String"), ("isOwner", .bool true)])]),
  ("dataSource", .object [("type", .text "database"), ("engine", .text "sql"),
    ("cluster", .object [("name", .text "main"), ("secretRef", .text "secret"),
      ("database", .text "notes")])]),
  ("accessControl", .object [("rules", .list [
    .object [("allow", .text "delete"), ("groups", .texts ["staff"])],
    .object [("allow", .text "delete"), ("owner", .bool true)]])])]

def annsNote : Record := [(.text "id", .text "n1"), (.text "author", .text "ann")]

def annDeletes : Host where
  config := .default
  library := ⟨fun _ _ _ => .null, .text, fun _ => ""⟩
  call := ⟨⟨some "ann", none⟩, .object [("input", .object [("id", .text "n1")])], .null, .null⟩
  reply
    | .preFetch => EngineKind.relational.fetched (some annsNote)
    | _ => .null

theorem guarded_write_lands_sharedNote :
    ∃ m c resolver, Model.decode sharedNote = .ok m ∧ m.compile .default [m] = .ok c ∧
      c.resolver .delete = .ok resolver ∧
      (annDeletes.run resolver).lands (some annsNote) = true := by
  obtain ⟨m, c, read, compiled, declared, relational, owned, controlled⟩ :
      ∃ m c, Model.decode sharedNote = .ok m ∧ m.compile .default [m] = .ok c ∧
        m.hasProperty "id" = true ∧ m.engine = .relational ∧ m.ownerField = some "author" ∧
        m.accessControl = some ⟨.deny, [⟨.delete, ["staff"], false⟩, ⟨.delete, [], true⟩]⟩ :=
    ⟨_, _, rfl, rfl, rfl, rfl, rfl, rfl⟩
  have keyed : ∀ r, some annsNote = some r → r.get? "id" = some annDeletes.key := by
    rintro r same
    obtain rfl := Option.some.inj same
    decide
  have generated : m.compile annDeletes.config [m] = .ok c := compiled
  have returned : annDeletes.reply .preFetch = m.engine.fetched (some annsNote) := by
    rw [relational]
    rfl
  have ruled : (⟨.delete, [], true⟩ : AccessRule) ∈ (⟨.deny, [⟨.delete, ["staff"], false⟩,
      ⟨.delete, [], true⟩]⟩ : AccessControl).rulesFor .delete := by decide
  obtain ⟨resolver, found, lands⟩ := guarded_write_lands ⟨sharedNote, read⟩ declared
    (by rw [relational]; rfl) generated (.inr rfl) returned keyed (by decide)
  refine ⟨m, c, resolver, read, compiled, found, lands.mpr ?_⟩
  refine ⟨annsNote, rfl, by simp, ?_, ?_⟩
  · exact .toOwner controlled ruled rfl owned ⟨by decide, ⟨annsNote, rfl, by decide⟩, by decide⟩
  · exact fun _ => ⟨fun clash => absurd clash (by decide), fun update => by cases update⟩

end ApiLoom
