import ApiLoom.Proofs.RowRequests

/-!
# What stages do

A stage asks for its operation, unless it is kept from it by its check or its gate,
and its response goes on from what was returned.  Hooks change no stored record and
no flag; the fetch of a stored record changes none either and confirms that the
caller may go on.
-/

namespace ApiLoom

open Template Script

/-! ### Requests and responses -/

namespace Template

variable {w : World} {s : State} {config : Config}

theorem ofRequest_open {plan : RequestPlan} (unasked : plan.auth = none)
    (ungated : plan.gate = none) :
    (ofRequest config plan).exec w s = (perform config plan.operation).exec w s := by
  simp only [ofRequest, unasked, ungated, nonEmpty, Option.filter_none, exec_append, exec_done,
    exec_acts_cons, exec_acts_nil, Action.perform, Step.next_andThen]

theorem ofRequest_gated {plan : RequestPlan} {gate : String} (unasked : plan.auth = none)
    (gated : plan.gate = some gate) (named : gate ≠ "") :
    (ofRequest config plan).exec w s =
      if s.flagged gate then (perform config plan.operation).exec w s else .stopped s := by
  have given : nonEmpty (some gate) = some gate := nonEmpty_eq_some_iff.mpr ⟨rfl, named⟩
  have set : (Cond.fails (.stash gate)).eval w s = !s.flagged gate := by
    rw [Cond.eval, eval_stash, State.flagged]
  simp only [ofRequest, unasked, gated, given, exec_append, exec_done, exec_acts_cons,
    exec_acts_nil, Action.perform, Step.next_andThen, exec_when, set]
  cases s.flagged gate <;> rfl

theorem ofRequest_checked {plan : RequestPlan} {check : AuthCheck} (asked : plan.auth = some check)
    (ungated : plan.gate = none) :
    (ofRequest config plan).exec w s =
      ((authorize config check).exec w s).andThen ((perform config plan.operation).exec w) := by
  simp only [ofRequest, asked, ungated, nonEmpty, Option.filter_none, exec_append, exec_done,
    exec_acts_cons, exec_acts_nil, Action.perform, Step.next_andThen, Step.andThen_next]

theorem errorGuard_passes (fine : w.context.error.isTrue = false) :
    errorGuard.exec w s = .next s := by
  have passes : (Cond.holds (Term.context.member "error")).eval w s = false := by
    simp [Cond.eval, Term.eval, Term.context, World.lookup, World.contextValue, Value.object,
      Entries.get?, fine]
  simp only [errorGuard, exec_when, passes, Bool.false_eq_true, if_false]

theorem errorGuard_exec (succeeded : w.context.error = .null) : errorGuard.exec w s = .next s :=
  errorGuard_passes (by rw [succeeded]; rfl)

theorem ofResponse_passes {plan : ResponsePlan} (fine : w.context.error.isTrue = false) :
    (ofResponse config plan).exec w s = (handOut config plan.shape).exec w s := by
  simp only [ofResponse, exec_append, exec_acts_cons, exec_acts_nil, Action.perform,
    Step.next_andThen, errorGuard_passes fine]

theorem ofResponse_exec {plan : ResponsePlan} (succeeded : w.context.error = .null) :
    (ofResponse config plan).exec w s = (handOut config plan.shape).exec w s :=
  ofResponse_passes (by rw [succeeded]; rfl)

end Template

/-! ### Hooks -/

def writeFlags : List String := [needsOwnershipCheck, ownershipConfirmed]

/-- No request went to a store. -/
def Trace.CallsFunctions (t : Trace) : Prop := ∀ request ∈ t.sent, request.1.kind = .function

theorem Trace.CallsFunctions.lands_eq {t : Trace} (calls : t.CallsFunctions) (r : Option Record) :
    t.lands r = false := by
  rw [lands, List.any_eq_false]
  intro request member
  cases r <;> simp [Store.changes, calls request member]

/-- Nothing that a later write depends on was changed. -/
structure Progress.Keeps (p q : Progress) : Prop where
  args : q.args = p.args
  flags : ∀ flag ∈ writeFlags, q.state.flagged flag = p.state.flagged flag

theorem Progress.Keeps.refl (p : Progress) : p.Keeps p := ⟨rfl, fun _ _ => rfl⟩

namespace Host

variable {host : Host} {p : Progress} {m : Model} {field : RootField}

theorem hookKey_apart (phase : HookPhase) (operation : Operation) :
    '$' ∉ (hookName phase operation ++ "Result").toList ∧
      ∀ flag ∈ writeFlags, flag ≠ hookName phase operation ++ "Result" := by
  cases phase <;> cases operation <;> decide

theorem runStage_sent {s : Stage} {body : Value} {q : Progress}
    (asked : host.ask p s.exchange.request = .sent body q) :
    host.runStage p s =
      ⟨[(s.binding, body)], host.respond q (host.reply s.kind) s.exchange.response⟩ := by
  rw [runStage, asked]

/-- The hook after an operation hands on what the operation handed out. -/
theorem functionStage_run (host : Host) (p : Progress) {s : Stage}
    {model fieldName function : String} {operation : Operation} {phase : HookPhase}
    (stage : s = functionStage model fieldName function operation phase) :
    ∃ body q, host.runStage p s = ⟨[(Binding.forFunction function, body)], some q⟩ ∧
      q.args = p.args ∧ (phase = .after → q.previous = p.previous) ∧
      ∀ flag, flag ≠ hookName phase operation ++ "Result" →
        q.state.flagged flag = p.state.flagged flag := by
  obtain ⟨plain, _⟩ := hookKey_apart phase operation
  have asked : ∃ body, host.ask p s.exchange.request = .sent body p := by
    rw [ask, ofRequest_open (by rw [stage]; rfl) (by rw [stage]; rfl), stage]
    exact ⟨_, rfl⟩
  let kept := p.state.flag (hookName phase operation ++ "Result")
    (host.reply phase.stageKind)
  have answered : ∃ output, (phase = .after → output = p.previous) ∧
      host.respond p (host.reply s.kind) s.exchange.response =
        some ⟨kept.stash, p.args, output⟩ := by
    rw [respond, ofResponse_exec rfl]
    simp only [stage, functionStage, handOut, exec_acts_cons, exec_acts_nil, Action.perform,
      Step.next_andThen, effect_stashPut plain, eval_result]
    refine ⟨_, ?_, rfl⟩
    rintro rfl
    exact eval_previousResult (s := kept)
  obtain ⟨body, asked⟩ := asked
  obtain ⟨output, handed, answered⟩ := answered
  refine ⟨body, ⟨kept.stash, p.args, output⟩, ?_, rfl, handed, fun flag apart => ?_⟩
  · rw [runStage_sent asked, answered, stage]
    rfl
  · exact State.flagged_flag_of_ne (s := p.state) apart

theorem runStages_single (host : Host) (p : Progress) (s : Stage) :
    host.runStages p [s] = host.runStage p s := by
  rw [runStages]
  obtain ⟨sent, _ | q⟩ := host.runStage p s <;> simp [runStages, Trace.andThen]

theorem hookStage_run (host : Host) (p : Progress) (m : Model) (field : RootField)
    (phase : HookPhase) :
    (host.runStages p (m.hookStage field phase)).CallsFunctions ∧
      ∃ q, (host.runStages p (m.hookStage field phase)).progress = some q ∧ p.Keeps q := by
  unfold Model.hookStage
  split
  · next function named =>
    let hook := functionStage m.name (Naming.rootField m.name field) function field.operation phase
    obtain ⟨body, q, run, args, _, flags⟩ := functionStage_run host p (Eq.refl hook)
    obtain ⟨_, apart⟩ := hookKey_apart phase field.operation
    rw [runStages_single, run]
    exact ⟨List.forall_mem_singleton.mpr rfl, q, rfl, args,
      fun flag member => flags flag (apart flag member)⟩
  · exact ⟨List.forall_mem_nil _, p, rfl, .refl p⟩

end Host

/-! ### Looking at the stored record -/

def EngineKind.fetched (engine : EngineKind) (r : Option Record) : Value :=
  match engine with
  | .relational => .list [.list (r.map Value.map).toList]
  | _ => (r.map Value.map).getD .null

namespace Template

section Fetch

variable {w : World} {s t : State} {config : Config} {caller : Caller} {r : Option Record}
  {owner : String}

structure Found (r : Option Record) (s t : State) : Prop where
  same : s.AgreesOff ["rows", "record", "visible"] t
  visible : t.local? "visible" = .bool r.isSome
  record : ∀ found, r = some found → t.local? "record" = .map found

theorem bindItem_reaches (returned : w.context.result = EngineKind.document.fetched r) :
    ((bindRecord .result).exec w s).Reaches (Found r s) := by
  have present : (Term.negated (Term.util.call "isNull" [.result])).eval w
      (s.bind "record" (EngineKind.document.fetched r)) = .bool r.isSome := by
    rw [Term.eval, eval_library "" rfl, List.map_cons, List.map_nil, eval_result,
      returned]
    cases r <;> simp [Library.apply, EngineKind.fetched]
  simp only [bindRecord, exec_acts_cons, exec_acts_nil, Action.perform, Step.next_andThen,
    eval_result, returned, present]
  refine .now ⟨(State.AgreesOff.bind (by simp) _).trans (.bind (by simp) _),
    State.local?_bind_self, ?_⟩
  rintro found rfl
  rw [State.local?_bind_of_ne (by decide), State.local?_bind_self]
  rfl

/-- Binds the first of the listed records, if there is one. -/
def bindHead (list : Term) : Script :=
  when (.both (.holds list) (.compare (list.call "size" []) .above (.number 0)))
    (acts [.set "record" (list.item (.number 0)), .set "visible" (.truth true)])

theorem bindHead_reaches {list : Term} {rows : List Record} (outside : list.part? = none)
    (hidden : s.local? "visible" = .bool false)
    (listed : list.eval w s = .list (rows.map Value.map)) :
    ((bindHead list).exec w s).Reaches (Found rows.head? s) := by
  have zero : (Term.number 0).eval w s = .int 0 := by rw [Term.eval]
  have filled : (Cond.both (.holds list) (.compare (list.call "size" []) .above
      (.number 0))).eval w s = rows.head?.isSome := by
    have size : (list.call "size" []).eval w s = .int (rows.map Value.map).length := by
      rw [eval_method outside, listed]
      rfl
    simp only [Cond.eval, listed, size, zero]
    cases rows <;> simp [Cond.compareValues]
  rw [bindHead, exec_when, filled]
  cases rows with
  | nil => exact .now ⟨.refl _ s, hidden, by simp⟩
  | cons found rest =>
    have first : (list.item (.number 0)).eval w s = .map found := by
      rw [Term.eval, listed, zero]
      rfl
    have truth : ∀ t, (Term.truth true).eval w t = .bool true := fun t => by rw [Term.eval]
    simp only [List.head?_cons, Option.isSome_some, if_true, exec_acts_cons, exec_acts_nil,
      Action.perform, Step.next_andThen, first, truth]
    refine .now ⟨(State.AgreesOff.bind (by simp) _).trans (.bind (by simp) _),
      State.local?_bind_self, ?_⟩
    rintro other same
    obtain rfl := Option.some.inj same
    rw [State.local?_bind_of_ne (by decide), State.local?_bind_self]

/-- The first of the rows that a statement returned is bound. -/
theorem bindRowsAt_reaches {rows : List Record} {lists : List Value} (index : Nat)
    (returned : w.context.result = .list lists)
    (there : lists[index]? = some (.list (rows.map Value.map))) :
    ((bindRecord (.sqlRow index)).exec w s).Reaches (Found rows.head? s) := by
  have listed : (rowsOf index).eval w s = .list (rows.map Value.map) := by
    rw [rowsOf, Term.eval, eval_library "rds" rfl, List.map_cons, List.map_nil, eval_result,
      returned, Term.eval]
    simp [Library.apply, itemAt, Value.items, there]
  let u := (s.bind "rows" (.list (rows.map Value.map))).bind "visible" (.bool false)
  have begun : s.AgreesOff ["rows", "record", "visible"] u :=
    (State.AgreesOff.bind (by simp) _).trans (.bind (by simp) _)
  have bound : (Term.var "rows").eval w u = .list (rows.map Value.map) := by
    rw [eval_var (by decide), State.local?_bind_of_ne (by decide), State.local?_bind_self]
  have plan : (bindRecord (.sqlRow index)).exec w s = (bindHead (.var "rows")).exec w u := by
    simp only [bindRecord, exec_append, exec_acts_cons, exec_acts_nil, Action.perform,
      Step.next_andThen, listed, Term.eval]
    rfl
  rw [plan]
  exact (bindHead_reaches rfl State.local?_bind_self bound).mono fun t found =>
    ⟨begun.trans found.same, found.visible, found.record⟩

theorem bindRows_reaches {rows : List Record}
    (returned : w.context.result = .list [.list (rows.map Value.map)]) :
    ((bindRecord (.sqlRow 0)).exec w s).Reaches (Found rows.head? s) :=
  bindRowsAt_reaches 0 returned rfl

theorem bindRow_reaches (returned : w.context.result = EngineKind.relational.fetched r) :
    ((bindRecord (.sqlRow 0)).exec w s).Reaches (Found r s) := by
  have rows : w.context.result = .list [.list (r.toList.map Value.map)] := by
    cases r <;> exact returned
  exact Option.head?_toList (o := r) ▸ bindRows_reaches rows

theorem field_eq_sub_iff (owner : String) (found : Record)
    (identified : caller.isIdentified = true) :
    (Value.map found).field owner = subValue caller ↔ caller.owns owner found = true := by
  obtain ⟨sub, known⟩ := Caller.exists_sub identified
  rw [Caller.owns_iff known, Value.field_map, subValue, known]
  cases found.get? owner <;> simp

/-- Whether the fetched record keeps the caller from going on. -/
def mismatched (caller : Caller) (owner : String) (r : Option Record) (s : State) : Bool :=
  s.flagged needsOwnershipCheck && r.any fun found => !caller.owns owner found

theorem verify_exec (told : w.context.identity = caller.identity config) (found : Found r s t)
    (known : s.flagged needsOwnershipCheck = true → caller.isIdentified = true) :
    (verify ⟨owner, .deny⟩).exec w t =
      if mismatched caller owner r s then .refused else .next t := by
  have acts : ((t.local? "visible").isTrue && (t.flagged needsOwnershipCheck &&
      decide ((t.local? "record").field owner ≠ subValue caller))) =
        mismatched caller owner r s := by
    rw [found.visible, found.same.flagged, Value.isTrue_bool, mismatched]
    cases r with
    | none => simp
    | some stored =>
      cases flagged : s.flagged needsOwnershipCheck with
      | false => simp
      | true =>
        have owned := field_eq_sub_iff owner stored (known flagged)
        rw [found.record stored rfl]
        simp only [ne_eq, owned]
        simp
  rw [verify_acts told, acts]
  rfl

/-- The response to a fetch refuses the caller, or confirms a record that is there. -/
theorem confirm_exec (owner : String) {source : RecordSource}
    (told : w.context.identity = caller.identity config)
    (known : s.flagged needsOwnershipCheck = true → caller.isIdentified = true)
    (finds : ((bindRecord source).exec w s).Reaches (Found r s)) :
    let step := (handOut config
      (.confirmOwnership source (some ⟨owner, .deny⟩) ownershipConfirmed)).exec w s
    if mismatched caller owner r s then step = .refused
    else step.Reaches fun t => t.args = s.args ∧
      t.flagged needsOwnershipCheck = s.flagged needsOwnershipCheck ∧
        t.flagged ownershipConfirmed = (r.isSome || s.flagged ownershipConfirmed) := by
  obtain ⟨t, bound, found⟩ := finds
  have seen : (Cond.holds .visible).eval w t = r.isSome := by
    rw [Cond.eval, Term.visible, eval_var (by decide), found.visible, Value.isTrue_bool]
  simp only [handOut, exec_append, bound, Step.next_andThen, verifyIfAny,
    verify_exec told found known]
  split
  · rfl
  · rw [Step.next_andThen, exec_either, seen]
    cases r with
    | none =>
      refine .now ⟨found.same.args, found.same.flagged _, ?_⟩
      exact found.same.flagged _
    | some stored =>
      simp only [Option.isSome_some, if_true, exec_acts_cons, exec_acts_nil, Action.perform,
        Step.next_andThen, effect_stashPut (by decide : '$' ∉ ownershipConfirmed.toList)]
      refine .now ⟨found.same.args, ?_, ?_⟩
      · exact (State.flagged_flag_of_ne (s := t) (by decide)).trans (found.same.flagged _)
      · exact State.flagged_flag_self (s := t)

end Fetch

theorem fetch_reaches {w : World} {s : State} {m : Model} {config : Config} {caller : Caller}
    {keyExpression : String} {operation : DataOperation} {source : RecordSource}
    (told : w.context.identity = caller.identity config)
    (fetched : m.fetchByKey config keyExpression = .ok (operation, source)) :
    ((perform config operation).exec w s).Reaches fun t => t.stash = s.stash ∧ t.args = s.args ∧
      ∀ r, (m.engine = .document → Store.documentWrites t.output r = false) ∧
        (m.engine = .relational → Store.relationalWrites t.output r = false) := by
  unfold Model.fetchByKey at fetched
  cases engine : m.engine with
  | document =>
    simp only [engine, Except.ok.injEq, Prod.mk.injEq] at fetched
    obtain ⟨rfl, rfl⟩ := fetched
    simp only [perform, getItem, exec_acts_cons, exec_acts_nil, Action.perform, Step.next_andThen,
      versioned_eval, evalMembers, body_plain_eval (by decide : '$' ∉ "GetItem".toList), keyMember]
    refine .now ⟨rfl, rfl, fun r => ⟨fun _ => ?_, by simp⟩⟩
    simp [Store.documentWrites, State.handOut, Entries.putAll, Entries.put, Entries.sameKey_text,
      Entries.get?, Value.text?]
  | relational =>
    simp only [engine, Except.ok.injEq, Prod.mk.injEq] at fetched
    obtain ⟨rfl, rfl⟩ := fetched
    let q := Model.statements [m.selectByKey config]
      [Model.bindColumn config.identifierField keyExpression]
    refine (sql_reaches (q := q) (u := s) rfl told (by simp [q, Model.statements]) rfl).mono ?_
    rintro t ⟨stash, args, v, same, bound, _, writes⟩
    refine ⟨stash, args, fun r => ⟨by simp, fun _ => ?_⟩⟩
    rw [writes]
    have statements : q.statements = [(m.selectByKey config).text] := rfl
    rw [statements, List.any_cons, List.any_nil, Model.selectByKey, select_reads]
    rfl
  | http =>
    simp only [engine, Except.ok.injEq, Prod.mk.injEq] at fetched
    obtain ⟨rfl, rfl⟩ := fetched
    exact .now ⟨rfl, rfl, fun r => ⟨by simp, by simp⟩⟩
  | queued =>
    simp only [engine, reduceCtorEq] at fetched

theorem fetch_finds {w : World} {s : State} {m : Model} {config : Config} {r : Option Record}
    {keyExpression : String} {operation : DataOperation} {source : RecordSource}
    (stored : m.engine.isStored = true)
    (fetched : m.fetchByKey config keyExpression = .ok (operation, source))
    (returned : w.context.result = m.engine.fetched r) :
    ((bindRecord source).exec w s).Reaches (Found r s) := by
  unfold Model.fetchByKey at fetched
  cases engine : m.engine with
  | document =>
    simp only [engine, Except.ok.injEq, Prod.mk.injEq] at fetched
    obtain ⟨_, rfl⟩ := fetched
    exact bindItem_reaches (engine ▸ returned)
  | relational =>
    simp only [engine, Except.ok.injEq, Prod.mk.injEq] at fetched
    obtain ⟨_, rfl⟩ := fetched
    exact bindRow_reaches (engine ▸ returned)
  | http => simp [engine, EngineKind.isStored] at stored
  | queued => simp [engine, EngineKind.isStored] at stored

end Template

end ApiLoom
