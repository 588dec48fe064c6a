import ApiLoom.Proofs.Admission

/-!
# Read access

A record is read by its key, in a list, over a relationship or by a subscription,
and each way decides about the caller by templates of its own.  All of them show a
record to the same callers: those to whom the read rules of its model grant it.
-/

namespace ApiLoom

namespace Model

variable {m : Model} {operation : Operation} {scope : AccessScope} {caller : Caller}

/-! ### Reading one record and reading a page -/

theorem withLocalTimes_single (s : SingleRecord) (fields : List String) :
    ∃ localTimes, (ResultShape.single s).withLocalTimes fields =
      .single { s with localTimeFields := localTimes } := by
  unfold ResultShape.withLocalTimes
  split
  · exact ⟨s.localTimeFields, rfl⟩
  · exact ⟨fields, rfl⟩

theorem withLocalTimes_list (s : RecordList) (fields : List String) :
    ∃ localTimes, (ResultShape.list s).withLocalTimes fields =
      .list { s with localTimeFields := localTimes } := by
  unfold ResultShape.withLocalTimes
  split
  · exact ⟨s.localTimeFields, rfl⟩
  · exact ⟨fields, rfl⟩

theorem mainOperation_get (config : Config) (gated : Bool) (unqueued : m.isRateLimited = false) :
    ∃ source localTimes,
      (m.mainOperation config .get gated).2 =
        .single ⟨source, m.verification .read, none, localTimes⟩ ∧
      ∀ records hooked, source.find
        ((m.mainOperation config .get gated).1.replyWith records hooked) = records.head? := by
  unfold mainOperation
  cases engine : m.engine with
  | document =>
    obtain ⟨localTimes, same⟩ := withLocalTimes_single
      { SingleRecord.plain .result with verification := m.verification .read }
      (m.localTimeFields config)
    exact ⟨.result, localTimes, same, fun _ _ => rfl⟩
  | relational =>
    obtain ⟨localTimes, same⟩ := withLocalTimes_single
      { SingleRecord.plain (.sqlRow 0) with verification := m.verification .read }
      (m.localTimeFields config)
    exact ⟨.sqlRow 0, localTimes, same, fun _ _ => rfl⟩
  | http =>
    obtain ⟨localTimes, same⟩ := withLocalTimes_single
      { SingleRecord.plain .httpBody with verification := m.verification .read }
      (m.localTimeFields config)
    exact ⟨.httpBody, localTimes, same, fun _ _ => rfl⟩
  | queued => simp [isRateLimited, engine] at unqueued

theorem mainOperation_list (config : Config) (gated : Bool) (unqueued : m.isRateLimited = false) :
    ∃ source localTimes,
      (m.mainOperation config .list gated).2 =
        .list ⟨source, m.collectionFilter.map .filter, localTimes⟩ ∧
      ∀ records hooked, source.find
        ((m.mainOperation config .list gated).1.replyWith records hooked) = records := by
  unfold mainOperation
  cases engine : m.engine with
  | document =>
    obtain ⟨localTimes, same⟩ := withLocalTimes_list
      ⟨.pageItems, m.collectionFilter.map .filter, []⟩ (m.localTimeFields config)
    exact ⟨.pageItems, localTimes, same, fun _ _ => rfl⟩
  | relational =>
    obtain ⟨localTimes, same⟩ := withLocalTimes_list
      ⟨.sqlRows 0, m.collectionFilter.map .filter, []⟩ (m.localTimeFields config)
    exact ⟨.sqlRows 0, localTimes, same, fun _ _ => rfl⟩
  | http =>
    obtain ⟨localTimes, same⟩ := withLocalTimes_list
      ⟨.httpBodyItems, m.collectionFilter.map .filter, []⟩ (m.localTimeFields config)
    exact ⟨.httpBodyItems, localTimes, same, fun _ _ => rfl⟩
  | queued => simp [isRateLimited, engine] at unqueued

/-! ### Decisions on records -/

theorem verification_shown {source : RecordSource} {localTimes : List String} {reply : Reply}
    {flow : Flow} {r : Record} (found : source.find reply = some r) :
    Shown r ((ResultShape.single ⟨source, m.verification .read, none, localTimes⟩).answer caller
        reply flow) ↔
      (needsOwnershipCheck ∈ flow.stash →
        ∀ owner, m.guardedOwner .read = some owner → caller.owns owner r = true) := by
  cases guarded : m.guardedOwner .read with
  | none => simp [Shown, ResultShape.answer, found, verification, guarded, visible?, Output.Shows]
  | some owner =>
    by_cases flagged : needsOwnershipCheck ∈ flow.stash
    · cases mine : caller.owns owner r <;>
        simp [Shown, ResultShape.answer, found, verification, guarded, visible?,
          OwnershipVerification.passes, flagged, mine, Output.Shows]
    · simp [Shown, ResultShape.answer, found, verification, guarded, visible?,
        OwnershipVerification.passes, flagged, Output.Shows]

theorem collectionFilter_keeps {stash : Stash} {r : Record} (decoded : m.IsDecoded) :
    ((m.collectionFilter.map ItemAccess.filter).all fun access => access.keeps caller stash r) =
        true ↔
      (filterByOwner ∈ stash →
        ∀ owner, m.guardedOwner .read = some owner → caller.owns owner r = true) := by
  unfold collectionFilter
  cases guarded : m.guardedOwner .read with
  | none => simp
  | some owner =>
    have named := guardedOwner_identifier decoded guarded
    have gate : filterByOwner ≠ "" := by decide
    by_cases flagged : filterByOwner ∈ stash <;>
      simp [ItemAccess.keeps, ItemFilter.keeps, gate, nonEmpty, named, flagged]

theorem collectionFilter_shown {source : ListSource} {localTimes : List String} {reply : Reply}
    {flow : Flow} {r : Record} (decoded : m.IsDecoded) (listed : r ∈ source.find reply) :
    Shown r ((ResultShape.list ⟨source, m.collectionFilter.map .filter, localTimes⟩).answer caller
        reply flow) ↔
      (filterByOwner ∈ flow.stash →
        ∀ owner, m.guardedOwner .read = some owner → caller.owns owner r = true) := by
  rw [← collectionFilter_keeps decoded]
  simp [Shown, ResultShape.answer, Output.Shows, listed]

end Model

/-! ### Runs of a resolver -/

theorem RequestPlan.verdict_ungated {plan : RequestPlan} {caller : Caller} {stash : Stash}
    (ungated : plan.gate = none) :
    plan.verdict caller stash =
      match (plan.auth.map (AuthCheck.flagsFor caller)).getD (some []) with
      | none => .refused
      | some flags => .asks (flags ++ stash) := by
  unfold verdict
  rw [ungated]
  rfl

namespace Model

variable {m : Model} {config : Config} {cluster : Option Cluster} {field : RootField}
  {caller : Caller} {records : List Record} {hooked : Value}

/-- A hook before the operation only adds its result to the stash. -/
theorem hookStage_before_run (m : Model) (field : RootField) (caller : Caller)
    (records : List Record) (hooked : Value) (flow : Flow) :
    ∃ keys before, (∀ key ∈ keys, key = hookName .before field.operation ++ "Result") ∧
      runStages caller (DataOperation.replyWith records hooked) flow (m.hookStage field .before) =
        some ⟨keys ++ flow.stash, before⟩ := by
  unfold hookStage
  split
  · exact ⟨[hookName .before field.operation ++ "Result"], .value hooked, by simp, rfl⟩
  · exact ⟨[], flow.output, by simp, rfl⟩

/-- A reading field authorizes the caller, runs its hook, and then only its main operation. -/
theorem read_run (caller : Caller) (records : List Record) (hooked : Value) {r : RootResolver}
    (reads : field.operation = .read)
    (resolved : m.resolver config cluster field = .ok r) :
    ∃ keys before, needsOwnershipCheck ∉ keys ∧ filterByOwner ∉ keys ∧
      r.run caller (DataOperation.replyWith records hooked) =
        ((m.authCheck .read field.scope).flagsFor caller).bind fun flags =>
          (m.mainOperation config field false).2.answer caller
            ((m.mainOperation config field false).1.replyWith records hooked)
            ⟨keys ++ flags, before⟩ := by
  have ungated : m.isGated field = false := by simp [isGated, reads]
  obtain ⟨binding, _, _, shape⟩ := resolver_ok resolved
  rcases shape with ⟨_, rfl⟩ | ⟨_, fetch, fetched, rfl⟩
  · refine ⟨[], .null, by simp, by simp, ?_⟩
    simp only [RootResolver.run, unitResolver, Exchange.run, mainExchange, ungated, reads,
      RequestPlan.verdict_ungated, Bool.false_eq_true, if_false, Option.map_some, Option.getD_some]
    cases (m.authCheck .read field.scope).flagsFor caller <;> simp [Flow.start]
  · obtain rfl : [] = fetch := by simpa [preFetchStage, ungated] using fetched
    have unhooked : m.hookStage field .after = [] := by
      simp [hookStage, reads, Hooks.hookFor, nonEmpty]
    cases admitted : (m.authCheck .read field.scope).flagsFor caller with
    | none =>
      refine ⟨[], .null, by simp, by simp, ?_⟩
      simp [RootResolver.run, pipelineResolver, pipelineExchange, RequestPlan.verdict_ungated,
        reads, admitted]
    | some flags =>
      obtain ⟨keys, before, named, hooks⟩ := hookStage_before_run m field caller records
        hooked ⟨flags, .null⟩
      rw [reads] at named
      refine ⟨keys, before, fun flagged => ?_, fun flagged => ?_, ?_⟩
      · exact absurd (named _ flagged) (by decide)
      · exact absurd (named _ flagged) (by decide)
      · simp [RootResolver.run, pipelineResolver, pipelineExchange, RequestPlan.verdict_ungated,
          reads, admitted, runStages_append, runStages, hooks, unhooked, Exchange.run, mainStage,
          mainExchange, ungated, ResultShape.answer]

/-! ### The four ways -/

theorem shown_bind {r : Record} {flags : Option (List String)} {next : List String → Option Flow} :
    Shown r (flags.bind next) ↔ ∃ set, flags = some set ∧ Shown r (next set) := by
  cases flags <;> simp [Shown]

theorem get_shows {g : RootResolver} {r : Record} (unqueued : m.isRateLimited = false)
    (identified : caller.isIdentified = true) (resolved : m.resolver config cluster .get = .ok g)
    (first : records.head? = some r) :
    Shown r (g.run caller (DataOperation.replyWith records hooked)) ↔
      m.GrantsRead caller r := by
  obtain ⟨keys, before, unset, _, run⟩ := read_run caller records hooked
    rfl resolved
  obtain ⟨source, localTimes, shape, finds⟩ := mainOperation_get config false
    unqueued
  have found := (finds records hooked).trans first
  rw [run, shown_bind, shape, GrantsRead,
    ← admitted_iff .item keys (by decide) identified rfl unset]
  simp only [verification_shown found, List.mem_append, or_comm, RootField.scope]

theorem list_shows {g : RootResolver} {r : Record} (decoded : m.IsDecoded)
    (unqueued : m.isRateLimited = false) (identified : caller.isIdentified = true)
    (resolved : m.resolver config cluster .list = .ok g) (listed : r ∈ records) :
    Shown r (g.run caller (DataOperation.replyWith records hooked)) ↔
      m.GrantsRead caller r := by
  obtain ⟨keys, before, _, unset, run⟩ := read_run caller records hooked
    rfl resolved
  obtain ⟨source, localTimes, shape, finds⟩ := mainOperation_list config false
    unqueued
  have found : r ∈ source.find _ := (finds records hooked).symm ▸ listed
  rw [run, shown_bind, shape, GrantsRead,
    ← admitted_iff .collection keys (by decide) identified rfl unset]
  simp only [collectionFilter_shown decoded found, List.mem_append, or_comm, RootField.scope]

/-- The filter of a traversal asks for no flag: it knows the groups itself. -/
theorem itemAccess_keeps_iff {stash : Stash} {r : Record} (decoded : m.IsDecoded) :
    m.itemAccess.keeps caller stash r = true ↔
      m.GrantsRead caller r := by
  rw [GrantsRead, grants_iff_guardedOwner (by decide), grantsAny_iff]
  unfold itemAccess
  cases controlled : m.accessControl with
  | none => simp [ItemAccess.keeps]
  | some access =>
    have owned : ∀ owner, m.guardedOwner .read = some owner ↔
        access.hasOwnerRule .read = true ∧ m.ownerField = some owner := by
      simp [guardedOwner, controlled]
    by_cases unruled : access.rulesFor .read = []
    · have ownerless : access.hasOwnerRule .read = false := by
        simp [AccessControl.hasOwnerRule, unruled]
      cases policy : access.default <;>
        simp [unruled, policy, owned, ownerless, ItemAccess.keeps]
    · have grouped : caller.isIn ((access.rulesFor .read).flatMap (·.groups)).eraseDups = true ↔
          ∃ rule ∈ access.rulesFor .read, caller.isIn rule.groups = true := by
        simp only [Caller.isIn_iff, List.mem_eraseDups, List.mem_flatMap]
        constructor
        · rintro ⟨g, ⟨rule, ruled, named⟩, member⟩
          exact ⟨rule, ruled, g, named, member⟩
        · rintro ⟨rule, ruled, g, named, member⟩
          exact ⟨g, ⟨rule, ruled, named⟩, member⟩
      simp only [List.isEmpty_iff, unruled, if_false, ItemAccess.keeps, ItemFilter.keeps,
        Bool.or_eq_true, grouped, reduceCtorEq, false_or, Option.some.injEq, exists_eq_left',
        false_and, owned]
      refine or_congr (by simp [nonEmpty]) ?_
      cases ruled : access.hasOwnerRule .read with
      | false => simp [nonEmpty]
      | true =>
        cases declared : m.ownerField with
        | none => simp [nonEmpty]
        | some owner =>
          have named := guardedOwner_identifier decoded ((owned owner).mpr ⟨ruled, declared⟩)
          simp [nonEmpty, named]

end Model

/-- The records that the store of the target has for a traversal include `r`, as the only one
that is looked at unless the relationship is to many. -/
def RelationshipKind.Reaches (kind : RelationshipKind) (records : List Record) (r : Record) :
    Prop :=
  match kind with
  | hasMany => r ∈ records
  | belongsTo | hasOne => records.head? = some r

namespace Model

variable {m : Model} {config : Config} {cluster : Option Cluster} {caller : Caller}
  {records : List Record} {hooked : Value}

theorem traversalTo_shows {kind : RelationshipKind} {key : String} {operation : DataOperation}
    {shape : ResultShape} {fields : List String} {flow : Flow} {r : Record}
    (planned : traversalTo config m kind key = some (operation, shape))
    (reached : kind.Reaches records r) :
    Shown r ((shape.withLocalTimes fields).answer caller (operation.replyWith records hooked)
        flow) ↔
      m.itemAccess.keeps caller flow.stash r = true := by
  have single : ∀ source, source.find (operation.replyWith records hooked) = some r →
      (Shown r (((ResultShape.single { SingleRecord.plain source with
          access := some m.itemAccess }).withLocalTimes fields).answer caller
          (operation.replyWith records hooked) flow) ↔
        m.itemAccess.keeps caller flow.stash r = true) := by
    intro source found
    obtain ⟨localTimes, same⟩ := withLocalTimes_single
      { SingleRecord.plain source with access := some m.itemAccess } fields
    rw [same]
    cases kept : m.itemAccess.keeps caller flow.stash r <;>
      simp [Shown, ResultShape.answer, SingleRecord.plain, found, visible?, kept, Output.Shows]
  have page : ∀ source, r ∈ source.find (operation.replyWith records hooked) →
      (Shown r (((ResultShape.list ⟨source, some m.itemAccess, []⟩).withLocalTimes fields).answer
          caller (operation.replyWith records hooked) flow) ↔
        m.itemAccess.keeps caller flow.stash r = true) := by
    intro source listed
    obtain ⟨localTimes, same⟩ := withLocalTimes_list ⟨source, some m.itemAccess, []⟩ fields
    rw [same]
    simp [Shown, ResultShape.answer, Output.Shows, listed]
  unfold traversalTo at planned
  cases engine : m.engine <;> simp only [engine, reduceCtorEq, Option.some.injEq] at planned
  all_goals
    cases kind <;>
      simp only [documentTraversal, relationalTraversal, Prod.mk.injEq] at planned <;>
      obtain ⟨rfl, rfl⟩ := planned
  · exact page .pageItems reached
  · exact single .result reached
  · exact single .firstPageItem reached
  · exact page (.sqlRows 0) reached
  · exact single (.sqlRow 0) reached
  · exact single (.sqlRow 0) reached

theorem traversal_shows {source : Model} {lookup : String → Option Model} {name : String}
    {relationship : Relationship} {t : TraversalResolver} {r : Record} (decoded : m.IsDecoded)
    (resolved : source.traversal config cluster lookup name relationship = .ok t)
    (target : lookup t.relationship.target = some m)
    (reached : t.relationship.kind.Reaches records r) :
    Shown r (t.exchange.run caller (DataOperation.replyWith records hooked) .start) ↔
      m.GrantsRead caller r := by
  obtain ⟨found, operation, shape, looked, planned, _, rfl, asked, open', ungated, answered⟩ :=
    traversal_ok resolved
  obtain rfl := Option.some.inj (looked.symm.trans target)
  rw [Exchange.run, RequestPlan.verdict_ungated ungated, open', asked, answered]
  simp only [Option.map_none, Option.getD_none]
  rw [traversalTo_shows planned reached, itemAccess_keeps_iff decoded]

theorem subscription_delivers {field : RootField} {r : Record} (decoded : m.IsDecoded)
    (identified : caller.isIdentified = true) :
    Delivered caller r
        ((m.subscription field).exchange.run caller (DataOperation.replyWith records hooked)
          .start) ↔
      m.GrantsRead caller r := by
  rw [GrantsRead, ← admitted_iff .collection [] (by decide) identified rfl (by simp)]
  cases admitted : (m.authCheck .read .collection).flagsFor caller with
  | none => simp [Delivered, subscription, Exchange.run, RequestPlan.verdict_ungated, admitted]
  | some flags =>
    have narrowed : nonEmpty (m.collectionFilter.bind (·.ownerField)) = m.guardedOwner .read := by
      unfold collectionFilter
      cases guarded : m.guardedOwner .read with
      | none => rfl
      | some owner => simp [nonEmpty, guardedOwner_identifier decoded guarded]
    by_cases flagged : filterByOwner ∈ flags <;>
      simp [Delivered, subscription, Exchange.run, RequestPlan.verdict_ungated, admitted,
        ResultShape.answer, Output.Delivers, Flow.start, narrowed, flagged]

end Model

/-- A record is shown by its key, in a list, over every relationship and by subscription to
the same callers. -/
theorem read_access_agrees {config : Config} {models : List Model} {m : Model} {c : CompiledModel}
    {caller : Caller} {sub : String} (decoded : m.IsDecoded) (unqueued : m.isRateLimited = false)
    (compiled : m.compile config models = .ok c) (known : caller.sub = some sub)
    (filled : sub ≠ "") (r : Record) (hooked : Value) :
    (∃ get, c.resolver .get = .ok get ∧ ∀ records, records.head? = some r →
      (Shown r (get.run caller (DataOperation.replyWith records hooked)) ↔
        m.GrantsRead caller r)) ∧
    (∃ list, c.resolver .list = .ok list ∧ ∀ records, r ∈ records →
      (Shown r (list.run caller (DataOperation.replyWith records hooked)) ↔
        m.GrantsRead caller r)) ∧
    (∀ (source : Model) other, source.compile config models = .ok other →
      ∀ t ∈ other.traversals, modelNamed models t.relationship.target = some m →
      ∀ records, t.relationship.kind.Reaches records r →
      (Shown r (t.exchange.run caller (DataOperation.replyWith records hooked) .start) ↔
        m.GrantsRead caller r)) ∧
    (m.enableSubscriptions = true → c.subscriptions ≠ [] ∧ ∀ s ∈ c.subscriptions,
      (Delivered caller r (s.exchange.run caller (DataOperation.replyWith [] hooked) .start) ↔
        m.GrantsRead caller r)) := by
  have identified := Caller.isIdentified_of_sub known filled
  obtain ⟨_, _, subscribed, _⟩ := Model.compileWith_ok compiled
  refine ⟨?_, ?_, ?_, ?_⟩
  · obtain ⟨get, found, resolved⟩ := Model.compile_resolver compiled .get
    exact ⟨get, found, fun _ first => Model.get_shows unqueued identified resolved first⟩
  · obtain ⟨list, found, resolved⟩ := Model.compile_resolver compiled .list
    exact ⟨list, found, fun _ listed =>
      Model.list_shows decoded unqueued identified resolved listed⟩
  · intro source other traversed t member target records reached
    obtain ⟨_, related, _⟩ := Model.compileWith_ok traversed
    obtain ⟨relationship, _, resolved⟩ := mem_of_mapM_ok related t member
    exact Model.traversal_shows decoded resolved target reached
  · intro enabled
    rw [subscribed, Model.subscriptions, if_pos enabled]
    refine ⟨by simp [RootField.writes], fun s member => ?_⟩
    obtain ⟨field, _, rfl⟩ := List.mem_map.mp member
    exact Model.subscription_delivers decoded identified

def authoredNote : Value := .object [
  ("name", .text "Note"),
  ("properties", .object [
    ("id", .object [("type", .text "ID")]),
    ("author", .object [("type", .text "String"), ("isOwner", .bool true)])]),
  ("dataSource", .object [("type", .text "database"), ("engine", .text "nosql")]),
  ("accessControl", .object [("rules", .list [
    .object [("allow", .text "read"), ("groups", .texts ["staff"])],
    .object [("allow", .text "read"), ("owner", .bool true)]])]),
  ("enableSubscriptions", .bool true)]

theorem read_access_agrees_authoredNote :
    ∃ m c get, Model.decode authoredNote = .ok m ∧ m.compile .default [m] = .ok c ∧
      c.resolver .get = .ok get ∧
      Shown [(.text "author", .text "ann")] (get.run ⟨some "ann", some ["guests"]⟩
        (DataOperation.replyWith [[(.text "author", .text "ann")]] .null)) := by
  obtain ⟨m, c, read, compiled, unqueued, declared, controlled⟩ :
      ∃ m c, Model.decode authoredNote = .ok m ∧ m.compile .default [m] = .ok c ∧
        m.isRateLimited = false ∧ m.ownerField = some "author" ∧
        m.accessControl = some ⟨.deny, [⟨.read, ["staff"], false⟩, ⟨.read, [], true⟩]⟩ :=
    ⟨_, _, rfl, rfl, rfl, rfl, rfl⟩
  have known : (⟨some "ann", some ["guests"]⟩ : Caller).sub = some "ann" := rfl
  have ruled : (⟨.read, [], true⟩ : AccessRule) ∈
      (⟨.deny, [⟨.read, ["staff"], false⟩, ⟨.read, [], true⟩]⟩ : AccessControl).rulesFor .read := by
    decide
  obtain ⟨⟨get, found, shows⟩, _⟩ := read_access_agrees ⟨authoredNote, read⟩ unqueued compiled
    known (by decide) [(.text "author", .text "ann")] .null
  refine ⟨m, c, get, read, compiled, found, (shows _ rfl).mpr ?_⟩
  exact .toOwner controlled ruled rfl declared (by decide)

end ApiLoom
