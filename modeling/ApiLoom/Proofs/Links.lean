import ApiLoom.Proofs.Paging

/-!
# Linked records

What a relationship leads to.  Its response looks at the rows that the store of the target has
found, or at the first of them, and hands out those that the target shows to the caller.
-/

namespace ApiLoom

open Template Script

namespace Template

section Responses

variable {w : World} {s t : State} {config : Config} {caller : Caller} {stash : Stash}
  {access : ItemAccess} {fields : List String} {r : Option Record}

/-! ### One record -/

theorem bindFirst_reaches {rows : List Record}
    (returned : w.context.result.field "items" = .list (rows.map Value.map)) :
    ((bindRecord .firstPageItem).exec w s).Reaches (Found rows.head? s) := by
  let u := s.bind "visible" (.bool false)
  have listed : (Term.result.member "items").eval w u = .list (rows.map Value.map) := by
    rw [Term.eval, eval_result, returned]
  have plan : (bindRecord .firstPageItem).exec w s =
      (bindHead (Term.result.member "items")).exec w u := by
    simp only [bindRecord, exec_append, exec_acts_cons, exec_acts_nil, Action.perform,
      Step.next_andThen, Term.eval]
    rfl
  rw [plan]
  refine (bindHead_reaches rfl State.local?_bind_self listed).mono fun t found => ?_
  exact ⟨(State.AgreesOff.bind (by simp) _).trans found.same, found.visible, found.record⟩

/-- The record that was found is still there, and is visible or not. -/
structure Shown (r : Option Record) (visible : Bool) (t : State) : Prop where
  visible : t.local? "visible" = .bool visible
  record : ∀ found, r = some found → t.local? "record" = .map found

def hideUnlessAdmitted (config : Config) (access : ItemAccess) : Script :=
  when (.holds .visible)
    (decideItem config access .record ++
      whenNot .canAccess (acts [.set "visible" (.truth false)]))

theorem hideUnlessAdmitted_reaches (told : w.context.identity = caller.identity config)
    (ungated : ∀ f, access = .filter f → f.gateFlag = none) (found : Found r s t) :
    ((hideUnlessAdmitted config access).exec w t).Reaches
      (Shown r (r.any fun r => access.admits caller [] (.map r))) := by
  have seen : (Cond.holds .visible).eval w t = r.isSome := by
    rw [Cond.eval, Term.visible, eval_var (by decide), found.visible, Value.isTrue_bool]
  rw [hideUnlessAdmitted, exec_when, seen]
  cases r with
  | none => exact .now ⟨found.visible, by simp⟩
  | some r =>
    have record : t.local? "record" = .map r := found.record r rfl
    have read : ∀ u, t.AgreesOff ["canAccess", "group"] u →
        Term.record.eval w u = .map r := by
      intro u same
      rw [Term.record, eval_var (by decide), same.locals _ (by decide), record]
    have noted : ∀ f flag, access = .filter f → f.gateFlag = some flag →
        t.flagged flag = List.contains [] flag := by
      intro f flag filters gate
      rw [ungated f filters] at gate
      cases gate
    rw [Option.isSome_some, if_pos rfl, exec_append]
    refine (decideItem_reaches told noted read).andThen fun u judged => ?_
    have decided : (Cond.fails .canAccess).eval w u = !access.admits caller [] (.map r) := by
      rw [Cond.eval, Term.canAccess, eval_var (by decide), judged.decided, Value.isTrue_bool]
    have kept : u.local? "record" = .map r := (judged.same.locals _ (by decide)).trans record
    rw [whenNot, exec_when, decided, Option.any_some]
    cases access.admits caller [] (.map r) with
    | true =>
      refine .now ⟨(judged.same.locals _ (by decide)).trans found.visible, ?_⟩
      rintro other ⟨⟩
      exact kept
    | false =>
      rw [Bool.not_false, if_pos rfl, exec_acts_cons, Action.perform, Step.next_andThen,
        exec_acts_nil, Term.eval]
      refine .now ⟨State.local?_bind_self, ?_⟩
      rintro other ⟨⟩
      rw [State.local?_bind_of_ne (by decide), kept]

theorem showRecord_reaches {found : Record} {visible : Bool}
    (plain : ∀ name ∈ fields, '$' ∉ (Naming.localTimeField name).toList)
    (seen : t.local? "visible" = .bool visible) (bound : t.local? "record" = .map found) :
    ((showRecord config fields).exec w t).Reaches fun u => u.output =
      if visible then .map (w.library.shown config w.context.headers fields found) else .null := by
  cases visible with
  | false =>
    have hidden : (Term.visible.eval w t).isTrue = false := by
      rw [Term.visible, eval_var (by decide), seen, Value.isTrue_bool]
    exact ((showRecord_shows fields).hides w t hidden).mono fun u reached => reached.1
  | true =>
    have emits : ∀ u r, u.local? "visible" = .bool true → u.local? "record" = .map r →
        (emitVisible.exec w u).Reaches fun x => x.output = .map r := by
      intro u r visible record
      have shows : (Cond.holds .visible).eval w u = true := by
        rw [Cond.eval, Term.visible, eval_var (by decide), visible, Value.isTrue_bool]
      rw [emitVisible, exec_either, shows, if_pos rfl, exec_acts_cons, Action.perform,
        Step.next_andThen, exec_acts_nil, Term.record, eval_var (by decide), record]
      exact .now rfl
    unfold showRecord Library.shown
    cases localTimeHeader config fields with
    | none => exact emits t found seen bound
    | some header =>
      let zone := w.context.headers.field header
      let zoned := t.bind "userTimezone" zone
      have still : zoned.local? "visible" = .bool true := by
        rw [State.local?_bind_of_ne (by decide), seen]
      have record : zoned.local? "record" = .map found := by
        rw [State.local?_bind_of_ne (by decide), bound]
      have given : (Cond.both (.holds .visible) zoneIsGiven).eval w zoned = !zone.isBlank := by
        rw [Cond.eval, Cond.eval, Term.visible, eval_var (by decide), still,
          eval_zoneIsGiven State.local?_bind_self]
        rfl
      rw [exec_append, exec_append, exec_acts_cons, bindTimezone, Action.perform, eval_timezone,
        Step.next_andThen, exec_acts_nil, Step.next_andThen, exec_when, given]
      dsimp only
      cases blank : zone.isBlank with
      | true =>
        rw [Bool.not_true, if_neg (by decide), Step.next_andThen, if_pos rfl, if_pos rfl]
        exact emits zoned found still record
      | false =>
        rw [Bool.not_false, if_pos rfl, if_pos rfl, if_neg (by decide)]
        have localized : ((addLocalTimes fields .record).exec w zoned).Reaches fun u =>
            zoned.AgreesOff ["record"] u ∧
              u.local? "record" = .map (w.library.localized zone fields found) :=
          addLocalTimes_reaches (by decide) (by decide) plain record State.local?_bind_self
        refine localized.andThen fun u reached => ?_
        exact emits u _ ((reached.1.locals _ (by decide)).trans still) reached.2

theorem singleRecord_hands {source : RecordSource}
    (told : w.context.identity = caller.identity config)
    (ungated : ∀ f, access = .filter f → f.gateFlag = none)
    (plain : ∀ name ∈ fields, '$' ∉ (Naming.localTimeField name).toList)
    (finds : ((bindRecord source).exec w s).Reaches (Found r s)) :
    ((singleRecord config ⟨source, none, some access, fields⟩).exec w s).Reaches fun t =>
      t.output = (((r.filter fun r => access.admits caller [] (.map r)).map
        (w.library.shown config w.context.headers fields)).map Value.map).getD .null := by
  have parts : singleRecord config ⟨source, none, some access, fields⟩ =
      bindRecord source ++ hideUnlessAdmitted config access ++ showRecord config fields := by
    simp only [singleRecord, verifyIfAny, append_assoc, done_append]
    rfl
  rw [parts, exec_append, exec_append]
  have judged := finds.andThen fun t found => hideUnlessAdmitted_reaches told ungated found
  cases r with
  | none =>
    refine judged.andThen fun t shown => ?_
    have hidden : (Term.visible.eval w t).isTrue = false := by
      rw [Term.visible, eval_var (by decide), shown.visible]
      rfl
    exact ((showRecord_shows fields).hides w t hidden).mono fun u reached => reached.1
  | some found =>
    refine judged.andThen fun t shown => ?_
    refine (showRecord_reaches plain shown.visible (shown.record found rfl)).mono
      fun u output => output.trans ?_
    rw [Option.any_some]
    cases admitted : access.admits caller [] (.map found) <;> simp [Option.filter, admitted]

/-! ### Pages -/

theorem putConnection_perform {entries : Entries} (key : String) (value : Term)
    (connected : s.local? "connection" = .map entries) :
    ∃ more, (putConnection key value).perform w s = .next (s.bind "connection" (.map more)) := by
  refine ⟨entries.put (.text (w.printed ((Term.plain key).eval w s))) (value.eval w s), ?_⟩
  rw [putConnection, Action.perform, Term.connection, State.effect, State.change, connected,
    Value.put]

theorem bindItems_reaches {rows : List Record}
    (returned : w.context.result.field "items" = .list (rows.map Value.map))
    (empty : s.local? "connection" = .map []) :
    ∃ entries, ((bindPage .pageItems).exec w s).Reaches (Opened rows (.map entries) s) := by
  have listed : (Term.orDefault (Term.result.member "items") (.list [])).eval w s =
      .list (rows.map Value.map) := by
    rw [eval_orDefault, Term.eval, eval_result, returned]
    rfl
  obtain ⟨entries, put⟩ := putConnection_perform (w := w)
    (s := s.bind "items" (.list (rows.map Value.map))) "nextToken" (Term.result.member "nextToken")
    (by rw [State.local?_bind_of_ne (by decide), empty])
  refine ⟨entries, ?_⟩
  rw [bindPage, exec_acts_cons, Action.perform, listed, Step.next_andThen, exec_acts_cons, put,
    Step.next_andThen, exec_acts_nil]
  refine .now ⟨(State.AgreesOff.bind (by simp) _).trans (.bind (by simp) _), ?_,
    State.local?_bind_self⟩
  rw [State.local?_bind_of_ne (by decide), State.local?_bind_self]

/-- Whatever window its rows have been taken from. -/
theorem bindRowsPage_reaches {rows : List Record}
    (returned : w.context.result = .list [.list (rows.map Value.map)])
    (empty : s.local? "connection" = .map []) :
    ∃ entries, ((bindPage (.sqlRows 0)).exec w s).Reaches (Opened rows (.map entries) s) := by
  let u := s.bind "items" (.list (rows.map Value.map))
  have listed : (rowsOf 0).eval w s = .list (rows.map Value.map) := by
    rw [rowsOf, Term.eval, eval_library "rds" rfl, List.map_cons, List.map_nil, eval_result,
      returned, Term.eval]
    rfl
  have items : u.local? "items" = .list (rows.map Value.map) := State.local?_bind_self
  have begun : s.AgreesOff ["items", "nextOffset", "connection"] u := .bind (by simp) _
  rw [bindPage, exec_append, exec_acts_cons, Action.perform, listed, Step.next_andThen,
    exec_acts_cons, Action.perform, Step.next_andThen, exec_acts_nil, Step.next_andThen, exec_when]
  split
  · rw [exec_acts_cons, Action.perform, Step.next_andThen]
    generalize (Term.sum (.stash pageOffsetKey) (.stash pageLimitKey)).eval w u = next
    obtain ⟨entries, put⟩ := putConnection_perform (w := w) (s := u.bind "nextOffset" next)
      "nextToken" (.plain "$nextOffset")
      (by rw [State.local?_bind_of_ne (by decide), State.local?_bind_of_ne (by decide), empty])
    refine ⟨entries, ?_⟩
    rw [exec_acts_cons, put, Step.next_andThen, exec_acts_nil]
    refine .now ⟨(begun.trans (.bind (by simp) _)).trans (.bind (by simp) _), ?_,
      State.local?_bind_self⟩
    rw [State.local?_bind_of_ne (by decide), State.local?_bind_of_ne (by decide), items]
  · refine ⟨[], .now ⟨begun, items, ?_⟩⟩
    rw [State.local?_bind_of_ne (by decide), empty]

/-- Nothing but the items of a page depends on what the caller may see. -/
theorem page_hands {source : ListSource} {rows : List Record}
    (told : w.context.identity = caller.identity config)
    (ungated : ∀ f, access = .filter f → f.gateFlag = none)
    (plain : ∀ name ∈ fields, '$' ∉ (Naming.localTimeField name).toList)
    (opens : ∀ s : State, s.local? "connection" = .map [] →
      ∃ entries, ((bindPage source).exec w s).Reaches (Opened rows (.map entries) s)) :
    ((recordList config ⟨source, some access, fields⟩).execInPlace w s).Reaches fun t =>
      t.output.field "items" = .list (((rows.filter fun r => access.admits caller [] (.map r)).map
        (w.library.shown config w.context.headers fields)).map Value.map) := by
  obtain ⟨entries, opened⟩ := opens (s.bind "connection" (.map [])) State.local?_bind_self
  have flagged : ∀ f flag, some access = some (.filter f) → f.gateFlag = some flag →
      s.flagged flag = List.contains [] flag := by
    intro f flag filters gate
    rw [ungated f (Option.some.inj filters)] at gate
    cases gate
  refine (recordList_hands told opened flagged plain).mono fun t reached => ?_
  obtain ⟨_, _, output⟩ := reached
  rw [output, Value.put, Value.field_map, Entries.get?_put_self]
  simp only [Option.all_some, Option.getD_some]

end Responses

end Template

/-! ### Traversals -/

/-- The value stands for these rows, as the store of such a model returns them to a traversal. -/
def EngineKind.Returns (engine : EngineKind) (kind : RelationshipKind) (rows : List Record)
    (v : Value) : Prop :=
  match engine, kind with
  | .relational, _ => v = .list [.list (rows.map Value.map)]
  | _, .belongsTo => v = EngineKind.document.fetched rows.head?
  | _, _ => v.field "items" = .list (rows.map Value.map)

/-- What a traversal hands out of the records that pass. -/
def RelationshipKind.handsOut (kind : RelationshipKind) (rows : List Record)
    (passes : Record → Bool) (shown : Record → Record) (output : Value) : Prop :=
  match kind with
  | .hasMany => output.field "items" = .list (((rows.filter passes).map shown).map Value.map)
  | _ => output = (((rows.head?.filter passes).map shown).map Value.map).getD .null

namespace Host

variable {host : Host} {m source : Model} {config : Config} {cluster : Option Cluster}
  {lookup : String → Option Model} {name : String} {link : Relationship} {t : TraversalResolver}
  {rows : List Record} {v : Value}

theorem single_withLocalTimes (source : RecordSource) (verification : Option OwnershipVerification)
    (access : Option ItemAccess) (fields : List String) :
    (ResultShape.single ⟨source, verification, access, []⟩).withLocalTimes fields =
      .single ⟨source, verification, access, fields⟩ := by
  unfold ResultShape.withLocalTimes
  split
  · next none => rw [List.isEmpty_iff.mp none]
  · rfl

/-- Where the response of a traversal looks for the rows that the store returned. -/
theorem traversal_shape (resolved : source.traversal config cluster lookup name link = .ok t)
    (found : lookup link.target = some m) :
    (∃ single, t.exchange.response.shape =
        .single ⟨single, none, some m.itemAccess, m.localTimeFields config⟩ ∧
      link.kind ≠ .hasMany ∧
      ∀ w s rows, m.engine.Returns link.kind rows w.context.result →
        ((bindRecord single).exec w s).Reaches (Found rows.head? s)) ∨
    ∃ list, t.exchange.response.shape =
        .list ⟨list, some m.itemAccess, m.localTimeFields config⟩ ∧
      link.kind = .hasMany ∧
      ∀ w s rows, m.engine.Returns link.kind rows w.context.result →
        s.local? "connection" = .map [] →
          ∃ entries, ((bindPage list).exec w s).Reaches (Opened rows (.map entries) s) := by
  obtain ⟨target, operation, shape, looked, reached, _, _, _, _, _, answers⟩ :=
    Model.traversal_ok resolved
  obtain rfl := Option.some.inj (found.symm.trans looked)
  rw [answers]
  cases engine : m.engine with
  | document =>
    cases kind : link.kind <;> rw [Model.traversalTo, engine, kind] at reached <;>
      obtain ⟨rfl, rfl⟩ := Prod.mk.inj (Option.some.inj reached)
    case hasMany =>
      exact .inr ⟨.pageItems, page_withLocalTimes _ _ _, rfl,
        fun w s rows returned empty => bindItems_reaches returned empty⟩
    case belongsTo =>
      exact .inl ⟨.result, single_withLocalTimes _ _ _ _, by decide,
        fun w s rows returned => bindItem_reaches returned⟩
    case hasOne =>
      exact .inl ⟨.firstPageItem, single_withLocalTimes _ _ _ _, by decide,
        fun w s rows returned => bindFirst_reaches returned⟩
  | relational =>
    cases kind : link.kind <;> rw [Model.traversalTo, engine, kind] at reached <;>
      obtain ⟨rfl, rfl⟩ := Prod.mk.inj (Option.some.inj reached)
    case hasMany =>
      exact .inr ⟨.sqlRows 0, page_withLocalTimes _ _ _, rfl,
        fun w s rows returned empty => bindRowsPage_reaches returned empty⟩
    case belongsTo | hasOne =>
      exact .inl ⟨.sqlRow 0, single_withLocalTimes _ _ _ _, by decide,
        fun w s rows returned => bindRows_reaches returned⟩
  | http | queued => simp [Model.traversalTo, engine] at reached

/-- The response of a traversal hands out what the target shows to the caller, of the rows or of
the first one. -/
theorem traversal_hands (host : Host) (p : Progress) (decoded : m.IsDecoded)
    (resolved : source.traversal host.config cluster lookup name link = .ok t)
    (found : lookup link.target = some m) (returned : m.engine.Returns link.kind rows v) :
    ∃ q, host.respondInPlace p v t.exchange.response = some q ∧
      link.kind.handsOut rows (fun r => m.itemAccess.admits host.call.caller [] (.map r))
        (host.library.shown host.config host.call.headers (m.localTimeFields host.config))
        q.previous := by
  have told := host.told p v
  have plain := localTimes_plain decoded host.config
  have ungated : ∀ f, m.itemAccess = .filter f → f.gateFlag = none := fun f => itemAccess_ungated
  rcases traversal_shape resolved found with
    ⟨single, shape, one, binds⟩ | ⟨list, shape, many, opens⟩
  · obtain ⟨u, run, output⟩ := singleRecord_hands told ungated plain
      (binds (host.world p v) p.state rows returned)
    refine ⟨⟨u.stash, u.args, u.output⟩, ?_, ?_⟩
    · rw [respondInPlace_eq v (by simp [shape]), respond, ofResponse_exec rfl, shape, handOut, run]
    · cases kind : link.kind with
      | hasMany => exact absurd kind one
      | belongsTo | hasOne => exact output
  · obtain ⟨u, run, output⟩ := page_hands (s := p.state) told ungated plain
      fun s => opens (host.world p v) s rows returned
    refine ⟨⟨u.stash, u.args, u.output⟩, ?_, ?_⟩
    · rw [respondInPlace, ofResponse_execInPlace rfl, shape, handOut, run, Progress.ofStep?]
    · rw [many]
      exact output

end Host

end ApiLoom
