import ApiLoom.Proofs.Flags
import ApiLoom.Proofs.Stages

/-!
# Safeguards

The places at which templates decide what a request has left open: the comparison of
the owner between the fetch and the hand-out, the filter of a page, the filter of a
subscription, and the gate of a write.
-/

namespace ApiLoom.Template

open Script

/-! ### What safeguards are -/

/-- Something leaves the template: a result, a request, or the filter of a subscription. -/
def Action.HandsOut : Action → Prop
  | emit _ | emitNull | send _ | acknowledge _ | deliverOwn _ => True
  | _ => False

namespace Script

/-- Finds a record without telling anybody. -/
structure Finds (script : Script) : Prop where
  binds : ∃ found, Action.set "record" found ∈ script.actions
  silent : ∀ a ∈ script.actions, ¬ a.HandsOut
  unnoted : script.stashKeys = []

/-- Hands out the record that was found, or null and nothing else if it is not visible. -/
structure Shows (script : Script) : Prop where
  shows : Action.emit .record ∈ script.actions
  keeps : ∀ value, Action.set "record" value ∉ script.actions
  hides : ∀ w s, (Term.visible.eval w s).isTrue = false →
    (script.exec w s).Reaches fun t => t.output = .null ∧ t.stash = s.stash

/-- The owner of the record is compared after the record was found and before it is shown. -/
def Verifies (script : Script) (v : OwnershipVerification) : Prop :=
  ∃ before after, script = before ++ verify v ++ after ∧ before.Finds ∧ after.Shows

/-- Collects the items of the caller, where only those may be handed out. -/
def CollectsOwn (script : Script) (owner : String) : Prop :=
  ∀ w s, s.flagged filterByOwner = true → (script.exec w s).Reaches fun t =>
    t.local? "visibleItems" = .list ((s.local? "items").items.filter fun item =>
      item.field owner = Term.caller.eval w s)

/-- Hands out the collected items and no others. -/
structure ShowsCollected (script : Script) : Prop where
  shows : .emit .connection ∈ script.actions
  only : ∀ a ∈ script.actions, a.HandsOut → a = .emit .connection
  collected : ∀ value, putConnection "items" value ∈ script.actions ↔ value = .var "visibleItems"
  keeps : ∀ value, Action.set "visibleItems" value ∉ script.actions

/-- The items of the caller are collected before anything is handed out. -/
def KeepsOwn (script : Script) (owner : String) : Prop :=
  ∃ before filter after, script = before ++ filter ++ after ∧
    (∀ a ∈ before.actions, ¬ a.HandsOut) ∧ filter.CollectsOwn owner ∧ after.ShowsCollected

/-- Narrows the subscription to the records of the caller, where only those may be delivered. -/
def Narrows (script : Script) (owner : String) : Prop :=
  ∀ w s, w.context.error = .null → s.flagged filterByOwner = true →
    (script.exec w s).Reaches fun t => t.filter = some owner

/-- Ends without a request unless the entry is set. -/
def WaitsFor (script : Script) (key : String) : Prop :=
  ∀ w s, s.flagged key = false → script.exec w s = .stopped s

end Script

/-! ### Verification -/

section Verification

variable {config : Config} {plan : ResponsePlan}

theorem errorGuard_actions : errorGuard.actions =
    [.fail ((Term.context.member "error").member "message")
      ((Term.context.member "error").member "type")] := rfl

theorem bindRecord_silent (source : RecordSource) :
    ∀ a ∈ (bindRecord source).actions, ¬ a.HandsOut := by
  cases source <;> simp [bindRecord, Script.actions, serviceError, Action.HandsOut]

theorem bindRecord_binds (source : RecordSource) :
    ∃ found, Action.set "record" found ∈ (bindRecord source).actions := by
  cases source <;> simp [bindRecord, Script.actions]

theorem responseStart_finds (description : String) (source : RecordSource) :
    (acts [.comment description] ++ errorGuard ++ bindRecord source).Finds := by
  refine ⟨?_, ?_, ?_⟩
  · obtain ⟨found, member⟩ := bindRecord_binds source
    exact ⟨found, by simp [member]⟩
  · simp only [actions_append, actions_acts, errorGuard_actions, List.mem_append]
    rintro a ((described | guarded) | bound)
    · obtain rfl := List.mem_singleton.mp described
      exact id
    · obtain rfl := List.mem_singleton.mp guarded
      exact id
    · exact bindRecord_silent source a bound
  · rw [stashKeys_append, bindRecord_stashKeys]
    rfl

theorem addLocalTimes_actions (fields : List String) (subject : Term) :
    ∀ a ∈ (addLocalTimes fields subject).actions, ∃ arguments,
      a = .run (subject.call "put" arguments) := by
  simp only [addLocalTimes, actions_concat, List.flatMap_map, List.mem_flatMap]
  rintro a ⟨name, -, member⟩
  rw [actions_when, actions_acts, List.mem_singleton] at member
  exact ⟨_, member⟩

def showRecord (config : Config) (fields : List String) : Script :=
  (match localTimeHeader config fields with
    | some header =>
      acts [bindTimezone header] ++
      when (.both (.holds .visible) zoneIsGiven) (addLocalTimes fields .record)
    | none => done) ++
  emitVisible

theorem emitVisible_hides (w : World) {s : State}
    (hidden : (Term.visible.eval w s).isTrue = false) :
    emitVisible.exec w s = .next (s.handOut .null) := by
  rw [emitVisible, exec_either, Cond.eval, hidden]
  rfl

/-- Where the record is not visible, the zone of the caller is all that is looked up. -/
theorem showRecord_hides (fields : List String) (w : World) {s : State}
    (hidden : (Term.visible.eval w s).isTrue = false) :
    ((showRecord config fields).exec w s).Reaches fun t =>
      (s.handOut .null).AgreesOff ["userTimezone"] t := by
  unfold showRecord
  cases localTimeHeader config fields with
  | none =>
    rw [done_append, emitVisible_hides w hidden]
    exact .now (.refl _ _)
  | some header =>
    let zone := (Term.headers.call "get" [.quoted header]).eval w s
    have apart : Term.visible.eval w (s.bind "userTimezone" zone) = Term.visible.eval w s := by
      rw [Term.visible, eval_var (by decide), eval_var (by decide),
        State.local?_bind_of_ne (by decide)]
    simp only [exec_append, exec_acts_cons, exec_acts_nil, bindTimezone, Action.perform,
      Step.next_andThen, exec_when, Cond.eval, zone, apart, hidden, Bool.false_and,
      Bool.false_eq_true, if_false]
    rw [emitVisible_hides w (apart ▸ hidden)]
    exact .now (.bind (s := s.handOut .null) (by simp) zone)

theorem showRecord_shows (fields : List String) : (showRecord config fields).Shows := by
  refine ⟨?_, fun value member => ?_, fun w s hidden =>
    (showRecord_hides fields w hidden).mono fun t same => ⟨same.output, same.stash⟩⟩
  · unfold showRecord
    cases localTimeHeader config fields <;> simp [emitVisible]
  · unfold showRecord at member
    cases given : localTimeHeader config fields with
    | none => simp [given, emitVisible] at member
    | some header =>
      simp only [given, actions_append, actions_acts, actions_when, List.mem_append] at member
      rcases member with (bound | converted) | emitted
      · simp [bindTimezone] at bound
      · obtain ⟨_, same⟩ := addLocalTimes_actions fields .record _ converted
        cases same
      · simp [emitVisible] at emitted

theorem ofResponse_single_verifies {source : RecordSource} {v : OwnershipVerification}
    {fields : List String} (shape : plan.shape = .single ⟨source, some v, none, fields⟩) :
    (ofResponse config plan).Verifies v := by
  refine ⟨_, showRecord config fields, ?_, responseStart_finds plan.description source,
    showRecord_shows fields⟩
  simp only [ofResponse, shape, handOut, singleRecord, verifyIfAny, append_assoc, done_append]
  rfl

theorem ofResponse_confirm_verifies {source : RecordSource} {v : OwnershipVerification}
    {flag : String} (shape : plan.shape = .confirmOwnership source (some v) flag) :
    (ofResponse config plan).Verifies v := by
  refine ⟨_, either (.holds .visible)
      (acts [.run (.stashPut flag (.truth true)), .emit .record]) (acts [.emitNull]), ?_,
    responseStart_finds plan.description source, ?_⟩
  · simp only [ofResponse, shape, handOut, verifyIfAny, append_assoc]
  · refine ⟨by simp, by simp, fun w s hidden => ?_⟩
    rw [exec_either, Cond.eval, hidden]
    exact .now ⟨rfl, rfl⟩

end Verification

/-! ### Pages -/

section Pages

variable {w : World} {s : State} {config : Config} {plan : ResponsePlan} {owner : String}

def ownItem (config : Config) (owner : String) : Script :=
  decideItem config (.filter ⟨[], some owner, some filterByOwner⟩) (.var "item")

theorem ownItem_reaches (config : Config) (named : owner ≠ "")
    (narrowed : s.flagged filterByOwner = true) :
    ((ownItem config owner).exec w s).Reaches fun t => s.AgreesOff ["canAccess"] t ∧
      t.local? "canAccess" =
        .bool (decide ((s.local? "item").field owner = Term.caller.eval w s)) := by
  have flag : nonEmpty (some filterByOwner) = some filterByOwner :=
    nonEmpty_eq_some_iff.mpr ⟨rfl, by decide⟩
  have given : nonEmpty (some owner) = some owner := nonEmpty_eq_some_iff.mpr ⟨rfl, named⟩
  let t := s.bind "canAccess" (.bool false)
  let own := decide ((s.local? "item").field owner = Term.caller.eval w s)
  have gated : (Cond.fails (.stash filterByOwner)).eval w t = false := by
    have set : ((t.stash.get? filterByOwner).getD .null).isTrue = true := narrowed
    rw [Cond.eval, eval_stash, set]
    rfl
  have ungranted : (Cond.fails Term.canAccess).eval w t = true := by
    rw [Cond.eval, Term.canAccess, eval_var (by decide), State.local?_bind_self]
    rfl
  have owned : (Cond.isCaller ((Term.var "item").member owner)).eval w t = own := by
    rw [Cond.isCaller, Cond.eval, Term.eval, eval_var (by decide),
      State.local?_bind_of_ne (by decide)]
    rfl
  let grant : Script := acts [.set "canAccess" (.truth true)]
  have truth : ∀ u b, (acts [.set "canAccess" (.truth b)]).exec w u =
      .next (u.bind "canAccess" (.bool b)) := by
    intro u b
    rw [exec_acts_cons, Action.perform, Term.eval, Step.next_andThen]
    rfl
  have kept : (when (.fails (.stash filterByOwner)) grant).exec w t = .next t := by
    rw [exec_when, gated, if_neg (by decide)]
  have spelled : ownItem config owner = acts [.set "canAccess" (.truth false)] ++
      when (.fails (.stash filterByOwner)) grant ++ done ++
      when (.both (.fails .canAccess) (.isCaller ((Term.var "item").member owner))) grant := by
    simp only [ownItem, decideItem, itemFilter, flag, given]
    rfl
  have plan : (ownItem config owner).exec w s =
      if own then .next (t.bind "canAccess" (.bool true)) else .next t := by
    rw [spelled, exec_append, exec_append, exec_append, truth, Step.next_andThen, kept,
      Step.next_andThen, exec_done, Step.next_andThen, exec_when, Cond.eval, ungranted, owned,
      Bool.true_and, truth]
  have begun : s.AgreesOff ["canAccess"] t := .bind (by simp) _
  change ((ownItem config owner).exec w s).Reaches fun u => s.AgreesOff ["canAccess"] u ∧
    u.local? "canAccess" = .bool own
  rw [plan]
  cases own with
  | true => exact .now ⟨begun.trans (.bind (by simp) _), State.local?_bind_self⟩
  | false => exact .now ⟨begun, State.local?_bind_self⟩

def keepItem : Script :=
  when (.holds .canAccess) (acts [.run ((Term.var "visibleItems").call "add" [.var "item"])])

theorem keepItem_exec {item : Value} {kept : List Value} {own : Bool}
    (decided : s.local? "canAccess" = .bool own) (bound : s.local? "item" = item)
    (before : s.local? "visibleItems" = .list kept) :
    keepItem.exec w s =
      .next (if own then s.bind "visibleItems" (.list (kept ++ [item])) else s) := by
  have added : s.effect w ((Term.var "visibleItems").call "add" [.var "item"]) =
      s.bind "visibleItems" (.list (kept ++ [item])) := by
    rw [State.effect, State.change, before, eval_var (by decide), bound, Value.add]
  rw [keepItem, exec_when, Cond.eval, Term.canAccess, eval_var (by decide), decided,
    Value.isTrue_bool]
  cases own with
  | true =>
    rw [if_pos rfl, if_pos rfl, exec_acts_cons, Action.perform, added, Step.next_andThen]
    rfl
  | false => rfl

/-- The loop adds the items for which the decision is positive to those that were kept before. -/
theorem itemLoop_reaches {decision : Script} {passes : Value → Bool} {stash : Entries}
    (decides : ∀ s : State, s.stash = stash → (decision.exec w s).Reaches fun t =>
      s.AgreesOff ["canAccess", "group"] t ∧
        t.local? "canAccess" = .bool (passes (s.local? "item")))
    (items kept : List Value) {s : State} (noted : s.stash = stash)
    (begun : s.local? "visibleItems" = .list kept) :
    (loop "item" ((decision ++ keepItem).exec w) items s).Reaches fun t =>
      s.AgreesOff ["canAccess", "group", "item", "visibleItems"] t ∧
        t.local? "visibleItems" = .list (kept ++ items.filter passes) := by
  induction items generalizing kept s with
  | nil => exact .now ⟨.refl _ s, by simpa using begun⟩
  | cons item rest ih =>
    obtain ⟨t, run, same, decided⟩ := decides (s.bind "item" item) noted
    rw [State.local?_bind_self] at decided
    have bound : t.local? "item" = item := by
      rw [same.locals _ (by decide), State.local?_bind_self]
    have before : t.local? "visibleItems" = .list kept := by
      rw [same.locals _ (by decide), State.local?_bind_of_ne (by decide), begun]
    have turned : s.AgreesOff ["canAccess", "group", "item", "visibleItems"] t :=
      (State.AgreesOff.bind (by simp) item).trans (same.mono (by simp))
    rw [loop, exec_append, run, Step.next_andThen, keepItem_exec decided bound before]
    cases passed : passes item with
    | true =>
      refine (ih (kept ++ [item]) (s := t.bind "visibleItems" (.list (kept ++ [item])))
        (turned.stash.trans noted) State.local?_bind_self).mono fun u reached => ?_
      obtain ⟨later, collected⟩ := reached
      refine ⟨(turned.trans (.bind (by simp) _)).trans later, ?_⟩
      rw [collected, List.filter_cons_of_pos passed, List.append_assoc, List.singleton_append]
    | false =>
      refine (ih kept (turned.stash.trans noted) before).mono fun u reached => ?_
      obtain ⟨later, collected⟩ := reached
      refine ⟨turned.trans later, ?_⟩
      rw [collected, List.filter_cons_of_neg (by simp [passed])]

/-- The loop adds the items of the caller to those that were kept before. -/
theorem keepLoop_reaches (named : owner ≠ "") {sub : Value} (items kept : List Value) {s : State}
    (narrowed : s.flagged filterByOwner = true) (caller : ∀ t, Term.caller.eval w t = sub)
    (begun : s.local? "visibleItems" = .list kept) :
    (loop "item" ((ownItem config owner ++ keepItem).exec w) items s).Reaches
      fun t => t.local? "visibleItems" = .list (kept ++ items.filter fun item =>
        item.field owner = sub) := by
  refine (itemLoop_reaches (fun t noted => ?_) items kept (rfl : s.stash = s.stash) begun).mono
    fun t collected => collected.2
  have flagged : t.flagged filterByOwner = true := by
    rw [← narrowed, State.flagged, State.flagged, noted]
  refine (ownItem_reaches config named flagged).mono fun u reached => ?_
  obtain ⟨same, decided⟩ := reached
  exact ⟨same.mono (by simp), by rw [decided, caller]⟩

def collectOwn (config : Config) (owner : String) : Script :=
  acts [.set "visibleItems" (.list [])] ++
    forEach "item" .items (ownItem config owner ++ keepItem)

theorem collectOwn_collects (named : owner ≠ "") : (collectOwn config owner).CollectsOwn owner := by
  intro w s narrowed
  have caller : ∀ t, Term.caller.eval w t = Term.caller.eval w s := by
    intro t
    rw [Term.caller, Term.eval, Term.eval, eval_identity, eval_identity]
  have empty : (Term.list []).eval w s = .list [] := by rw [Term.eval, Term.evals]
  have unchanged : Term.items.eval w (s.bind "visibleItems" (.list [])) = s.local? "items" := by
    rw [Term.items, eval_var (by decide), State.local?_bind_of_ne (by decide)]
  rw [collectOwn, exec_append, exec_acts_cons, Action.perform, empty, Step.next_andThen,
    exec_acts_nil, Step.next_andThen, exec_forEach, unchanged]
  exact keepLoop_reaches named _ [] narrowed caller State.local?_bind_self

theorem bindPage_silent (source : ListSource) :
    ∀ a ∈ (bindPage source).actions, ¬ a.HandsOut := by
  cases source <;> simp [bindPage, putConnection, serviceError, Action.HandsOut]

def showItems (config : Config) (fields : List String) : Script :=
  let kept := Term.var "visibleItems"
  (match localTimeHeader config fields with
    | some header =>
      acts [bindTimezone header] ++
      when zoneIsGiven (forEach "entry" kept (addLocalTimes fields (.var "entry")))
    | none => done) ++
  acts [putConnection "items" kept, .emit .connection]

theorem mem_showItems {fields : List String} {a : Action}
    (member : a ∈ (showItems config fields).actions) :
    (∃ header, a = bindTimezone header) ∨
      (∃ arguments, a = .run ((Term.var "entry").call "put" arguments)) ∨
      a = putConnection "items" (.var "visibleItems") ∨ a = .emit .connection := by
  unfold showItems at member
  cases given : localTimeHeader config fields with
  | none =>
    simp only [given, done_append, actions_acts, List.mem_cons, List.not_mem_nil,
      or_false] at member
    exact Or.inr (Or.inr member)
  | some header =>
    simp only [given, actions_append, actions_acts, actions_when, actions_forEach, List.mem_append,
      List.mem_cons, List.not_mem_nil, or_false] at member
    rcases member with (bound | converted) | shown
    · exact Or.inl ⟨header, bound⟩
    · exact Or.inr (Or.inl (addLocalTimes_actions fields _ a converted))
    · exact Or.inr (Or.inr shown)

theorem showItems_shows (fields : List String) : (showItems config fields).ShowsCollected := by
  refine ⟨by simp [showItems], fun a member out => ?_, fun value => ⟨fun member => ?_, ?_⟩,
    fun value member => ?_⟩
  · rcases mem_showItems member with ⟨_, rfl⟩ | ⟨_, rfl⟩ | rfl | rfl
    · exact out.elim
    · exact out.elim
    · exact out.elim
    · rfl
  · rcases mem_showItems member with ⟨_, same⟩ | ⟨_, same⟩ | same | same <;>
      simp_all [putConnection, Term.connection, bindTimezone]
  · rintro rfl
    simp [showItems]
  · rcases mem_showItems member with ⟨_, same⟩ | ⟨_, same⟩ | same | same <;>
      simp [putConnection, bindTimezone] at same

theorem ofResponse_list_keepsOwn {source : ListSource} {fields : List String} (named : owner ≠ "")
    (shape : plan.shape =
      .list ⟨source, some (.filter ⟨[], some owner, some filterByOwner⟩), fields⟩) :
    (ofResponse config plan).KeepsOwn owner := by
  let start := acts [.comment plan.description] ++ errorGuard ++
    (acts [.set "connection" .emptyMap] ++ bindPage source)
  refine ⟨start, collectOwn config owner, showItems config fields, ?_, ?_,
    collectOwn_collects named, showItems_shows fields⟩
  · simp only [start, ofResponse, shape, handOut, recordList, append_assoc]
    rfl
  · simp only [start, actions_append, actions_acts, errorGuard_actions, List.mem_append,
      List.mem_singleton]
    rintro a ((rfl | rfl) | (rfl | bound))
    · exact id
    · exact id
    · exact id
    · exact bindPage_silent source a bound

end Pages

/-! ### Subscriptions and gates -/

section Gates

variable {config : Config}

theorem ofResponse_subscription_narrows {plan : ResponsePlan} {owner : String} (named : owner ≠ "")
    (shape : plan.shape = .subscriptionAck (some owner) filterByOwner) :
    (ofResponse config plan).Narrows owner := by
  intro w s succeeded narrowed
  have given : nonEmpty (some owner) = some owner := nonEmpty_eq_some_iff.mpr ⟨rfl, named⟩
  simp only [ofResponse_exec succeeded, shape, handOut, given, exec_append, exec_when,
    eval_flagged, narrowed, if_true, exec_acts_cons, exec_acts_nil, Action.perform,
    Step.next_andThen]
  exact .now rfl

theorem ofRequest_waitsFor {plan : RequestPlan} {gate : String} (unasked : plan.auth = none)
    (gated : plan.gate = some gate) (named : gate ≠ "") :
    (ofRequest config plan).WaitsFor gate := by
  intro w s unset
  rw [ofRequest_gated unasked gated named, unset]
  rfl

end Gates

end ApiLoom.Template
