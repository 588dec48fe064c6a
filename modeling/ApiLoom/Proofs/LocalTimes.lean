import ApiLoom.Proofs.Columns
import ApiLoom.Proofs.Links
import ApiLoom.Proofs.Pipelines
import ApiLoom.Proofs.SchemaTypes

/-!
# Local times

A timestamp of a stored record comes back a second time, in the zone of the caller, if a header
names that zone.  The schema has a field for it just where the responses fill one, and they fill
it after they have decided what the caller may see.
-/

namespace ApiLoom

open Template Script

namespace Template

/-! ### Writing local times -/

/-- Puts a value under `Naming.localTimeField name` into something. -/
def Action.WritesLocalTime (name : String) : Action → Prop
  | run call => ∃ subject value,
    call = .call subject "put" [.plain (Naming.localTimeField name), value]
  | _ => False

section Others

variable {name : String}

@[simp] theorem comment_writes (text : String) : ¬ (Action.comment text).WritesLocalTime name := id

@[simp] theorem set_writes (bound : String) (value : Term) :
    ¬ (Action.set bound value).WritesLocalTime name := id

@[simp] theorem fail_writes (message kind : Term) :
    ¬ (Action.fail message kind).WritesLocalTime name := id

@[simp] theorem refuse_writes : ¬ Action.refuse.WritesLocalTime name := id

@[simp] theorem emit_writes (value : Term) : ¬ (Action.emit value).WritesLocalTime name := id

@[simp] theorem emitNull_writes : ¬ Action.emitNull.WritesLocalTime name := id

@[simp] theorem leaveLoop_writes : ¬ Action.leaveLoop.WritesLocalTime name := id

end Others

namespace Script

def WritesLocalTime (script : Script) (name : String) : Prop :=
  ∃ a ∈ script.actions, a.WritesLocalTime name

/-- No action is a `WritesLocalTime`. -/
def Untimed (script : Script) : Prop := ∀ name, ¬ script.WritesLocalTime name

theorem writesLocalTime_append {first second : Script} {name : String} :
    (first ++ second).WritesLocalTime name ↔
      first.WritesLocalTime name ∨ second.WritesLocalTime name := by
  simp only [WritesLocalTime, actions_append, List.mem_append, or_and_right, exists_or]

theorem untimed_append {first second : Script} (before : first.Untimed) (behind : second.Untimed) :
    (first ++ second).Untimed := fun name writes =>
  (writesLocalTime_append.mp writes).elim (before name) (behind name)

theorem untimed_of_actions {script : Script}
    (others : ∀ a ∈ script.actions, ∀ name, ¬ a.WritesLocalTime name) : script.Untimed :=
  fun name ⟨a, member, writes⟩ => others a member name writes

theorem untimed_done : done.Untimed := untimed_of_actions (List.forall_mem_nil _)

end Script

theorem mem_decideItem {config : Config} {access : ItemAccess} {subject : Term} {a : Action}
    (member : a ∈ (decideItem config access subject).actions) :
    a = .set "canAccess" (.truth true) ∨ a = .set "canAccess" (.truth false) ∨ a = .leaveLoop := by
  cases access with
  | filter f =>
    simp only [decideItem, itemFilter, actions_append, actions_acts, List.mem_append,
      List.mem_singleton] at member
    rcases member with ((begun | gated) | grouped) | owned
    · exact .inr (.inl begun)
    · split at gated
      · exact .inl (by simpa using gated)
      · cases gated
    · split at grouped
      · cases grouped
      · simp [grantToGroups] at grouped
        exact grouped.imp_right .inr
    · split at owned
      · exact .inl (by simpa using owned)
      · cases owned
  | allowAll reason => exact .inl (by simpa [decideItem] using member)
  | denyAll reason => exact .inr (.inl (by simpa [decideItem] using member))

section Untimed

variable {config : Config}

theorem decideItem_untimed (access : ItemAccess) (subject : Term) :
    (decideItem config access subject).Untimed := by
  refine untimed_of_actions fun a member name => ?_
  rcases mem_decideItem member with rfl | rfl | rfl <;> simp

theorem bindRecord_untimed (source : RecordSource) : (bindRecord source).Untimed := by
  refine untimed_of_actions ?_
  cases source <;> simp [bindRecord, Script.actions, serviceError]

theorem verifyIfAny_untimed (verification : Option OwnershipVerification) :
    (verifyIfAny verification).Untimed := by
  refine untimed_of_actions ?_
  cases verification with
  | none => simp [verifyIfAny]
  | some v =>
    obtain ⟨owner, _ | _⟩ := v <;>
      simp [verifyIfAny, verify, MismatchAction.action]

/-- Local times end in `_local`, so a key that ends otherwise is none of them. -/
theorem putConnection_untimed (key : String) (other : key.toList.getLast? ≠ some 'l')
    (value : Term) (name : String) : ¬ (putConnection key value).WritesLocalTime name := by
  rintro ⟨subject, written, same⟩
  simp only [Term.call.injEq, List.cons.injEq, Term.plain.injEq] at same
  refine other ?_
  rw [same.2.2.1, Naming.localTimeField, String.toList_append, List.getLast?_append]
  rfl

theorem bindPage_untimed (source : ListSource) : (bindPage source).Untimed := by
  have token : ∀ value name, ¬ (putConnection "nextToken" value).WritesLocalTime name :=
    putConnection_untimed "nextToken" (by decide)
  refine untimed_of_actions ?_
  cases source <;> simp [bindPage, token, serviceError]

theorem filterItems_untimed (access : Option ItemAccess) :
    (filterItems config access).Untimed := by
  cases access with
  | none => exact untimed_done
  | some access =>
    refine untimed_of_actions fun a member name writes => ?_
    simp only [filterItems, keepItem, actions_append, actions_acts, actions_forEach, actions_when,
      List.mem_append, List.mem_singleton] at member
    rcases member with rfl | decided | rfl
    · exact writes
    · exact decideItem_untimed access _ name ⟨a, decided, writes⟩
    · simp [Action.WritesLocalTime] at writes

end Untimed

theorem addLocalTimes_writes {fields : List String} {subject : Term} {name : String} :
    (addLocalTimes fields subject).WritesLocalTime name ↔ name ∈ fields := by
  constructor
  · rintro ⟨a, member, writes⟩
    simp only [addLocalTimes, actions_concat, List.flatMap_map, List.mem_flatMap, actions_when,
      actions_acts, List.mem_singleton] at member
    obtain ⟨field, listed, rfl⟩ := member
    obtain ⟨other, value, same⟩ := writes
    simp only [Term.call.injEq, List.cons.injEq, Term.plain.injEq] at same
    exact Naming.localTimeField_inj.mp same.2.2.1 ▸ listed
  · intro listed
    simp only [Script.WritesLocalTime, addLocalTimes, actions_concat, List.flatMap_map,
      List.mem_flatMap, actions_when, actions_acts, List.mem_singleton]
    exact ⟨_, ⟨name, listed, rfl⟩, subject, _, rfl⟩

/-- What stands behind `bindTimezone` is written if a header names the zone. -/
theorem zoned_writes {config : Config} {fields : List String} {localized : Script} {name : String}
    (writes : localized.WritesLocalTime name ↔ name ∈ fields) :
    (match localTimeHeader config fields with
      | some header => acts [bindTimezone header] ++ localized
      | none => done).WritesLocalTime name ↔ config.hasLocalTimes = true ∧ name ∈ fields := by
  by_cases listed : name ∈ fields
  · have filled : ¬ fields.isEmpty = true := by simpa using List.ne_nil_of_mem listed
    rw [localTimeHeader, if_neg filled, Config.hasLocalTimes]
    cases nonEmpty config.timezoneHeader with
    | none => simp [untimed_done name]
    | some header => simp [writesLocalTime_append, writes, listed]
  · simp only [listed, and_false, iff_false]
    cases localTimeHeader config fields with
    | none => exact untimed_done name
    | some header =>
      simp only [writesLocalTime_append, writes, listed, or_false]
      exact untimed_of_actions (by simp [bindTimezone]) name

theorem showRecord_writes {config : Config} {fields : List String} {name : String} :
    (showRecord config fields).WritesLocalTime name ↔
      config.hasLocalTimes = true ∧ name ∈ fields := by
  have emits : emitVisible.Untimed :=
    untimed_of_actions (by simp [emitVisible])
  rw [showRecord, writesLocalTime_append, or_iff_left (emits name)]
  refine zoned_writes ?_
  rw [Script.WritesLocalTime, actions_when]
  exact addLocalTimes_writes

/-- The end of `recordList`: the items of the list with their local times are those of the page. -/
def handOutItems (config : Config) (fields : List String) (list : String) : Script :=
  localizeItems config fields list ++
    acts [putConnection "items" (.var list), .emit .connection]

theorem handOutItems_writes {config : Config} {fields : List String} {list name : String} :
    (handOutItems config fields list).WritesLocalTime name ↔
      config.hasLocalTimes = true ∧ name ∈ fields := by
  have items := putConnection_untimed "items" (by decide) (.var list)
  have shows : (acts [putConnection "items" (.var list), .emit .connection]).Untimed :=
    untimed_of_actions (by simp [items])
  rw [handOutItems, writesLocalTime_append, or_iff_left (shows name)]
  refine zoned_writes ?_
  rw [Script.WritesLocalTime, actions_when, actions_forEach]
  exact addLocalTimes_writes

/-! ### Deciding and showing -/

/-- Takes part in the decision about what the caller may see, by setting `record`, `visible` or
`canAccess`, or the items of a page. -/
def Action.Decides : Action → Prop
  | set name _ => name ∈ ["record", "visible", "canAccess", "items", "visibleItems"]
  | run call => ∃ item, call = (Term.var "visibleItems").call "add" [item]
  | refuse | fail _ _ => True
  | _ => False

namespace Script

/-- Hands out `record` with its local times if `visible` holds.  If it does not, null is handed
out, and `record` is left as it is. -/
structure ShowsRecord (script : Script) (config : Config) (fields : List String) : Prop where
  settled : ∀ a ∈ script.actions, ¬ a.Decides
  hides : ∀ w s, (Term.visible.eval w s).isTrue = false → (script.exec w s).Reaches fun t =>
    t.output = .null ∧ t.local? "record" = s.local? "record"
  shows : ∀ w s found, (∀ name ∈ fields, '$' ∉ (Naming.localTimeField name).toList) →
    s.local? "visible" = .bool true → s.local? "record" = .map found →
      (script.exec w s).Reaches fun t =>
        t.output = .map (w.library.shown config w.context.headers fields found)

/-- Hands out the items of the list with their local times, and changes no others. -/
structure ShowsItems (script : Script) (config : Config) (fields : List String) (list : String) :
    Prop where
  settled : ∀ a ∈ script.actions, ¬ a.Decides
  touches : ∀ w s, (script.execInPlace w s).Reaches fun t =>
    ∀ name, name ∉ ["userTimezone", "entry", "connection", list] → t.local? name = s.local? name
  shows : ∀ w s (rows : List Record) entries,
    (∀ name ∈ fields, '$' ∉ (Naming.localTimeField name).toList) →
    s.local? list = .list (rows.map Value.map) → s.local? "connection" = .map entries →
      (script.execInPlace w s).Reaches fun t => t.output.field "items" =
        .list ((rows.map (w.library.shown config w.context.headers fields)).map Value.map)

/-- Collects the items that the filter of a page admits, if it has one. -/
def CollectsAdmitted (script : Script) (config : Config) (access : Option ItemAccess) : Prop :=
  ∀ w s (caller : Caller) (stash : Stash) items, w.context.identity = caller.identity config →
    (∀ f flag, access = some (.filter f) → f.gateFlag = some flag →
      s.flagged flag = stash.contains flag) → s.local? "items" = .list items →
        (script.exec w s).Reaches fun t => t.local? (keptItems access) =
          .list (items.filter fun item => access.all fun access =>
            access.admits caller stash item)

end Script

section Showing

variable {config : Config} {fields : List String}

theorem addLocalTimes_undecided (subject : Term) :
    ∀ a ∈ (addLocalTimes fields subject).actions, ¬ a.Decides := by
  intro a member decides
  obtain ⟨arguments, rfl⟩ := addLocalTimes_actions fields subject a member
  obtain ⟨item, same⟩ := decides
  simp at same

theorem showRecord_settled (config : Config) (fields : List String) :
    ∀ a ∈ (showRecord config fields).actions, ¬ a.Decides := by
  unfold showRecord
  cases localTimeHeader config fields with
  | none => simp [emitVisible, Action.Decides]
  | some header =>
    simp only [actions_append, actions_acts, actions_when, List.mem_append]
    rintro a ((bound | converted) | emitted)
    · obtain rfl := List.mem_singleton.mp bound
      simp [bindTimezone, Action.Decides]
    · exact addLocalTimes_undecided .record a converted
    · simp only [emitVisible, actions_either, actions_acts, List.cons_append, List.nil_append,
        List.mem_cons, List.not_mem_nil, or_false] at emitted
      rcases emitted with rfl | rfl <;> exact id

theorem showRecord_showsRecord (config : Config) (fields : List String) :
    (showRecord config fields).ShowsRecord config fields := by
  refine ⟨showRecord_settled config fields, fun w s hidden => ?_,
    fun w s found plain visible bound => ?_⟩
  · exact (showRecord_hides fields w hidden).mono fun t same =>
      ⟨same.output, same.locals _ (by decide)⟩
  · exact (showRecord_reaches plain visible bound).mono fun t output => output

theorem handOutItems_settled (config : Config) (fields : List String) {list : String} :
    ∀ a ∈ (handOutItems config fields list).actions, ¬ a.Decides := by
  have shows : ∀ a ∈ [putConnection "items" (.var list), .emit .connection], ¬ a.Decides := by
    simp [putConnection, Action.Decides]
  unfold handOutItems localizeItems
  cases localTimeHeader config fields with
  | none => simpa using shows
  | some header =>
    simp only [actions_append, actions_acts, actions_when, actions_forEach, List.mem_append]
    rintro a ((bound | converted) | shown)
    · obtain rfl := List.mem_singleton.mp bound
      simp [bindTimezone, Action.Decides]
    · exact addLocalTimes_undecided (.var "entry") a converted
    · exact shows a shown

section Items

variable {w : World} {s : State}

/-- Whatever the subject is, `addLocalTimes` changes nothing but it. -/
theorem addLocalTimes_agrees (fields : List String) (subject : String) :
    ((addLocalTimes fields (.var subject)).exec w s).Reaches (s.AgreesOff [subject]) := by
  induction fields generalizing s with
  | nil => exact .now (.refl _ s)
  | cons name rest ih =>
    have first : ((addLocalTimes [name] (.var subject)).exec w s).Reaches
        (s.AgreesOff [subject]) := by
      simp only [addLocalTimes, List.map_cons, List.map_nil, concat, exec_append, exec_when]
      split
      · exact .now (.bind (by simp) _)
      · exact .now (.refl _ s)
    have spelled : addLocalTimes (name :: rest) (.var subject) =
        addLocalTimes [name] (.var subject) ++ addLocalTimes rest (.var subject) := rfl
    rw [spelled, exec_append]
    exact first.andThen fun t same => ih.mono fun u later => same.trans later

theorem reflect_agrees (list : String) (i : Nat) (before after : Value) :
    s.AgreesOff [list] (s.reflect (.var list) i before after) := by
  unfold State.reflect
  split
  · exact .refl _ s
  · exact .bind (by simp) _

/-- Whatever the items are, a loop of `addLocalTimes` changes nothing but their list. -/
theorem localLoop_agrees (fields : List String) (list : String) (i : Nat) (items : List Value) :
    (loopInPlace (.var list) "entry" ((addLocalTimes fields (.var "entry")).execInPlace w) i items
      s).Reaches (s.AgreesOff ["entry", list]) := by
  rw [execInPlace_of_steady (addLocalTimes_steady _ _)]
  induction items generalizing i s with
  | nil => exact .now (.refl _ s)
  | cons item rest ih =>
    obtain ⟨t, run, same⟩ := addLocalTimes_agrees (w := w) (s := s.bind "entry" item) fields "entry"
    have turned : s.AgreesOff ["entry", list] t :=
      (State.AgreesOff.bind (by simp) item).trans (same.mono (by simp))
    rw [loopInPlace, run]
    refine ih (i + 1) |>.mono fun u later => ?_
    exact (turned.trans ((reflect_agrees list i _ _).mono (by simp))).trans later

theorem localizeItems_agrees (config : Config) (fields : List String) (list : String) :
    ((localizeItems config fields list).execInPlace w s).Reaches
      (s.AgreesOff ["userTimezone", "entry", list]) := by
  unfold localizeItems
  cases localTimeHeader config fields with
  | none => exact .now (.refl _ s)
  | some header =>
    have begun : ∀ v, s.AgreesOff ["userTimezone", "entry", list] (s.bind "userTimezone" v) :=
      fun v => .bind (by simp) v
    rw [execInPlace_append, execInPlace_of_steady (steady_acts _), exec_acts_cons, bindTimezone,
      Action.perform, Step.next_andThen, exec_acts_nil, Step.next_andThen, execInPlace_when]
    split
    · rw [execInPlace_forEach]
      exact (localLoop_agrees fields list 0 _).mono fun t same =>
        (begun _).trans (same.mono (by simp))
    · exact .now (begun _)

end Items

theorem handOutItems_showsItems (config : Config) (fields : List String) {list : String}
    (apart : list ≠ "ctx" ∧ list ≠ "entry" ∧ list ≠ "userTimezone" ∧ list ≠ "connection") :
    (handOutItems config fields list).ShowsItems config fields list := by
  obtain ⟨own, notEntry, notZone, notConnection⟩ := apart
  refine ⟨handOutItems_settled config fields, fun w s => ?_,
    fun w s rows entries plain listed connected => ?_⟩
  · rw [handOutItems, execInPlace_append]
    refine (localizeItems_agrees config fields list).andThen fun t same => ?_
    rw [execInPlace_of_steady (steady_acts _)]
    refine .now fun name outside => ?_
    simp only [List.mem_cons, List.not_mem_nil, or_false, not_or] at outside
    obtain ⟨noZone, noEntry, noConnection, other⟩ := outside
    exact (State.local?_bind_of_ne noConnection).trans
      (same.locals name (by simp [noZone, noEntry, other]))
  · rw [handOutItems, execInPlace_append]
    refine (localizeItems_reaches config plain ⟨notEntry, notZone, own⟩ listed).andThen
      fun t reached => ?_
    obtain ⟨same, localized⟩ := reached
    have kept : t.local? "connection" = .map entries := by
      rw [same.locals _ (by simpa using notConnection.symm), connected]
    rw [execInPlace_of_steady (steady_acts _)]
    refine (handOut_connection own localized kept).mono fun u handed => ?_
    rw [handed.2.2, Value.put, Value.field_map, Entries.get?_put_self]
    rfl

theorem filterItems_collects (access : Option ItemAccess) :
    (filterItems config access).CollectsAdmitted config access :=
  fun _ _ _ _ _ told flagged listed =>
    (filterItems_reaches told flagged listed).mono fun _ reached => reached.2

end Showing

end Template

/-! ### Responses -/

/-- Local times come last in a response: it is `Untimed` until it has decided what the caller may
see, and writes them into a visible record alone, or into the items that its filter has kept. -/
def ResultShape.LocalizesLast (config : Config) : ResultShape → Script → Prop
  | .single r, script => ∃ decides shows : Script, script = decides ++ shows ∧ decides.Untimed ∧
    shows.ShowsRecord config r.localTimeFields
  | .list r, script => ∃ finds keeps shows : Script, script = finds ++ keeps ++ shows ∧
    finds.Untimed ∧ keeps.Untimed ∧ keeps.CollectsAdmitted config r.access ∧
    shows.ShowsItems config r.localTimeFields (keptItems r.access)
  | _, script => script.Untimed

namespace Template

section Responses

variable {plan : ResponsePlan}

theorem responseStart_untimed (description : String) :
    (acts [.comment description] ++ errorGuard).Untimed :=
  untimed_of_actions (by simp [errorGuard])

def decideRecord (config : Config) (r : SingleRecord) : Script :=
  bindRecord r.source ++ verifyIfAny r.verification ++
    match r.access with
    | some access => hideUnlessAdmitted config access
    | none => done

theorem decideRecord_untimed (config : Config) (r : SingleRecord) :
    (decideRecord config r).Untimed := by
  refine untimed_append (untimed_append (bindRecord_untimed _) (verifyIfAny_untimed _)) ?_
  cases r.access with
  | none => exact untimed_done
  | some access =>
    refine untimed_of_actions fun a member name writes => ?_
    simp only [hideUnlessAdmitted, actions_when, actions_append, actions_whenNot, actions_acts,
      List.mem_append, List.mem_singleton] at member
    rcases member with decided | rfl
    · exact decideItem_untimed access .record name ⟨a, decided, writes⟩
    · exact writes

theorem singleRecord_parts (config : Config) (r : SingleRecord) :
    singleRecord config r = decideRecord config r ++ showRecord config r.localTimeFields := by
  obtain ⟨source, verification, _ | access, fields⟩ := r <;>
    simp only [singleRecord, decideRecord, append_assoc, done_append] <;> rfl

theorem ofResponse_single (config : Config) {r : SingleRecord} (shape : plan.shape = .single r) :
    plan.shape.LocalizesLast config (ofResponse config plan) ∧
      ∀ name, (ofResponse config plan).WritesLocalTime name ↔
        config.hasLocalTimes = true ∧ name ∈ r.localTimeFields := by
  let decides := acts [.comment plan.description] ++ errorGuard ++ decideRecord config r
  have parts : ofResponse config plan = decides ++ showRecord config r.localTimeFields := by
    rw [ofResponse, shape, handOut, singleRecord_parts, ← append_assoc]
  have untimed : decides.Untimed :=
    untimed_append (responseStart_untimed _) (decideRecord_untimed config r)
  rw [shape, parts]
  refine ⟨⟨decides, _, rfl, untimed, showRecord_showsRecord config _⟩, fun name => ?_⟩
  rw [writesLocalTime_append, or_iff_right (untimed name), showRecord_writes]

theorem ofResponse_list (config : Config) {r : RecordList} (shape : plan.shape = .list r) :
    plan.shape.LocalizesLast config (ofResponse config plan) ∧
      ∀ name, (ofResponse config plan).WritesLocalTime name ↔
        config.hasLocalTimes = true ∧ name ∈ r.localTimeFields := by
  let finds := acts [.comment plan.description] ++ errorGuard ++
    (acts [.set "connection" .emptyMap] ++ bindPage r.source)
  let keeps := filterItems config r.access
  let shows := handOutItems config r.localTimeFields (keptItems r.access)
  have parts : ofResponse config plan = finds ++ keeps ++ shows := by
    simp only [finds, keeps, shows, ofResponse, shape, handOut, recordList_parts, handOutItems,
      append_assoc]
  have found : finds.Untimed := untimed_append (responseStart_untimed _)
    (untimed_append (untimed_of_actions (by simp)) (bindPage_untimed _))
  have kept : keeps.Untimed := filterItems_untimed r.access
  rw [shape, parts]
  refine ⟨⟨finds, keeps, shows, rfl, found, kept, filterItems_collects r.access,
    handOutItems_showsItems config _ ?_⟩, fun name => ?_⟩
  · exact keptItems_apart r.access
  · rw [writesLocalTime_append, or_iff_right ((untimed_append found kept) name),
      handOutItems_writes]

theorem ofResponse_acknowledges (config : Config) {key : String}
    (shape : plan.shape = .pendingAck key) :
    (ofResponse config plan).Untimed := by
  rw [ofResponse, shape]
  refine untimed_append (responseStart_untimed _) (untimed_of_actions ?_)
  simp [handOut, Action.WritesLocalTime]

end Responses

end Template

/-! ### Models -/

/-- The field is one of `timestampFields`, the API keeps the records, and `timezoneHeader` names
the zone of the caller. -/
def Model.HasLocalTime (m : Model) (config : Config) (name : String) : Prop :=
  name ∈ m.timestampFields ∧
    (∃ header, config.timezoneHeader = some header ∧ header ≠ "") ∧
    (m.engine = .document ∨ m.engine = .relational)

/-- The response writes the local times that the records of the model have, after all decisions. -/
structure ResponsePlan.Localizes (plan : ResponsePlan) (config : Config) (m : Model) : Prop where
  writes : ∀ name,
    (ofResponse config plan).WritesLocalTime name ↔ m.HasLocalTime config name
  last : plan.shape.LocalizesLast config (ofResponse config plan)

theorem Config.hasLocalTimes_iff {config : Config} : config.hasLocalTimes = true ↔
    ∃ header, config.timezoneHeader = some header ∧ header ≠ "" := by
  rw [hasLocalTimes, Option.isSome_iff_exists]
  exact exists_congr fun header => nonEmpty_eq_some_iff

namespace Model

variable {m : Model} {config : Config}

theorem mem_localTimeFields {name : String} :
    name ∈ m.localTimeFields config ↔ m.HasLocalTime config name := by
  have stored : m.engine.isStored = true ↔ m.engine = .document ∨ m.engine = .relational := by
    cases m.engine <;> simp [EngineKind.isStored]
  unfold localTimeFields HasLocalTime
  rw [← Config.hasLocalTimes_iff, ← stored]
  split
  · next both => simp_all
  · next either => simp_all

theorem hasLocalTimes_and_mem {name : String} :
    config.hasLocalTimes = true ∧ name ∈ m.localTimeFields config ↔ m.HasLocalTime config name := by
  rw [mem_localTimeFields, and_iff_right_iff_imp, Config.hasLocalTimes_iff]
  exact fun own => own.2.1

/-- Responses with the records of a model: one record or a page, unless requests are queued. -/
theorem localizes_of_shape {plan : ResponsePlan}
    (shape : (∃ source verification access,
        plan.shape = .single ⟨source, verification, access, m.localTimeFields config⟩) ∨
      (∃ source access, plan.shape = .list ⟨source, access, m.localTimeFields config⟩) ∨
      m.engine = .queued ∧ ∃ key, plan.shape = .pendingAck key) :
    plan.Localizes config m := by
  rcases shape with ⟨source, verification, access, single⟩ | ⟨source, access, list⟩ |
    ⟨queued, key, acknowledges⟩
  · obtain ⟨last, writes⟩ := ofResponse_single config single
    exact ⟨fun name => (writes name).trans hasLocalTimes_and_mem, last⟩
  · obtain ⟨last, writes⟩ := ofResponse_list config list
    exact ⟨fun name => (writes name).trans hasLocalTimes_and_mem, last⟩
  · have untimed := ofResponse_acknowledges config acknowledges
    refine ⟨fun name => iff_of_false (untimed name) fun own => ?_, acknowledges ▸ untimed⟩
    rcases own.2.2 with engine | engine <;> rw [engine] at queued <;> cases queued

/-- What a root field hands out is one record, or a page of those that the caller may see. -/
theorem mainOperation_handsOut (config : Config) (field : RootField) (gated : Bool)
    (unqueued : m.engine ≠ .queued) :
    (∃ source verification, (m.mainOperation config field gated).2 =
        .single ⟨source, verification, none, m.localTimeFields config⟩) ∨
      ∃ source, (m.mainOperation config field gated).2 =
        .list ⟨source, m.collectionFilter.map .filter, m.localTimeFields config⟩ := by
  unfold mainOperation
  cases engine : m.engine with
  | queued => exact absurd engine unqueued
  | _ =>
    cases field with
    | list => exact .inr ⟨_, Host.page_withLocalTimes _ _ _⟩
    | _ => exact .inl ⟨_, _, Host.single_withLocalTimes _ _ _ _⟩

theorem mainExchange_localizes (field : RootField) :
    (m.mainExchange config field).response.Localizes config m := by
  refine localizes_of_shape ?_
  by_cases queued : m.engine = .queued
  · refine .inr (.inr ⟨queued, requestIdKey, ?_⟩)
    simp only [mainExchange, mainOperation, queued, queuedMain, ResultShape.withLocalTimes]
    split <;> rfl
  · rcases mainOperation_handsOut config field (m.isGated field) queued with
      ⟨source, verification, single⟩ | ⟨source, list⟩
    · exact .inl ⟨source, verification, none, single⟩
    · exact .inr (.inl ⟨source, _, list⟩)

end Model

/-! ### Compiled sets -/

/-- The responses of a compiled set that hand out records of the model: those of its root fields,
on the only stage or on the main one, and those of the relationships that lead to it. -/
inductive Compilation.HandsOut (c : Compilation) (models : List Model) (m : Model) :
    ResponsePlan → Prop
  | unit {k : CompiledModel} {r : RootResolver} {binding : Binding}
    (compiled : m.compile c.config models = .ok k) (listed : r ∈ k.resolvers)
    (alone : r.execution = .unit binding) : HandsOut c models m r.exchange.response
  | main {k : CompiledModel} {r : RootResolver} {s : Stage}
    (compiled : m.compile c.config models = .ok k) (listed : r ∈ k.resolvers)
    (staged : s ∈ r.stages) (main : s.kind = .main) : HandsOut c models m s.exchange.response
  | link {k : CompiledModel} {t : TraversalResolver} (listed : k ∈ c.models)
    (related : t ∈ k.traversals) (leads : modelNamed models t.target = some m) :
    HandsOut c models m t.exchange.response

namespace Compilation

variable {config : Config} {models : List Model} {c : Compilation} {m : Model}

theorem handsOut_localizes (built : build config models = .ok c) {plan : ResponsePlan}
    (returns : c.HandsOut models m plan) : plan.Localizes config m := by
  obtain ⟨own, -⟩ := build_schema built
  cases returns with
  | @unit k r binding compiled listed alone =>
    obtain ⟨field, -, resolved⟩ := mem_of_mapM_ok (Model.compileWith_ok compiled).1 r listed
    rw [own] at resolved
    obtain ⟨_, _, _, ⟨_, rfl⟩ | ⟨_, _, _, rfl⟩⟩ := Model.resolver_ok resolved
    · exact Model.mainExchange_localizes field
    · cases alone
  | @main k r s compiled listed staged main =>
    obtain ⟨field, -, resolved⟩ := mem_of_mapM_ok (Model.compileWith_ok compiled).1 r listed
    rw [own] at resolved
    obtain ⟨_, _, _, ⟨_, rfl⟩ | ⟨_, _, fetched, rfl⟩⟩ := Model.resolver_ok resolved
    · cases staged
    · obtain rfl := (Model.pipelineResolver_isStage fetched staged).eq_main main
      exact Model.mainExchange_localizes field
  | @link k t listed related leads =>
    obtain ⟨source, -, compiled⟩ := mem_of_mapM_ok (build_ok built).1 k listed
    obtain ⟨link, -, resolved⟩ := mem_of_mapM_ok (Model.compileWith_ok compiled).2.1 t related
    obtain ⟨target, _, _, _, found, _, _, same⟩ := Model.traversal_eq resolved
    have reached : modelNamed models link.2.target = some m := by
      rw [same, Model.traversalResolver, (mem_of_modelNamed found).2] at leads
      exact leads
    refine Model.localizes_of_shape ?_
    rcases Host.traversal_shape resolved reached with ⟨single, shape, _⟩ | ⟨list, shape, _⟩
    · exact .inl ⟨single, none, some m.itemAccess, shape⟩
    · exact .inr (.inl ⟨list, some m.itemAccess, shape⟩)

/-- Every root field has a response with the records of its model. -/
theorem exists_handsOut (built : build config models = .ok c) (member : m ∈ models)
    (field : RootField) : c.HandsOut models m (m.mainExchange config field).response := by
  obtain ⟨own, -⟩ := build_schema built
  obtain ⟨k, -, compiled⟩ := exists_of_mapM_ok (build_ok built).1 m member
  obtain ⟨resolved, -⟩ := Model.compileWith_ok compiled
  have known : field ∈ RootField.all := by cases field <;> simp [RootField.all]
  obtain ⟨r, listed, same⟩ := exists_of_mapM_ok resolved field known
  rw [← own] at compiled
  obtain ⟨binding, _, _, ⟨_, rfl⟩ | ⟨_, fetch, _, rfl⟩⟩ := Model.resolver_ok same
  · exact .unit compiled listed rfl
  · refine .main (s := m.mainStage config field binding) compiled listed ?_ rfl
    simp [Model.pipelineResolver, RootResolver.stages, Execution.stages]

end Compilation

/-- Of a compiled set, the type of a model has a local time for a timestamp if and only if each
response that `HandsOut` records of the model writes it.  That is so for the timestamps of stored
records where a header names the zone of the caller.  The responses write no others, and they
decide what the caller may see before they write them. -/
theorem local_times_agree {config : Config} {models : List Model} {c : Compilation}
    (built : Compilation.build config models = .ok c) {m : Model} (member : m ∈ models) :
    ∃ added : List Schema.Field,
      ⟨.object, m.name, m.properties.map Schema.propertyField ++ added ++
        Schema.relationshipFields m⟩ ∈ c.schema.blocks ∧
      (∀ x ∈ added, ∃ name,
        x = .plain (Naming.localTimeField name) (.optional "AWSDateTime")) ∧
      (∀ name,
        (.plain (Naming.localTimeField name) (.optional "AWSDateTime") ∈ added ↔
          ∀ plan, c.HandsOut models m plan →
            (ofResponse config plan).WritesLocalTime name) ∧
        (.plain (Naming.localTimeField name) (.optional "AWSDateTime") ∈ added ↔
          m.HasLocalTime config name)) ∧
      ∀ plan, c.HandsOut models m plan → plan.Localizes config m := by
  have localizes : ∀ plan, c.HandsOut models m plan → plan.Localizes config m := fun _ returns =>
    Compilation.handsOut_localizes built returns
  have declares : ∀ name, .plain (Naming.localTimeField name) (.optional "AWSDateTime") ∈
      Schema.localTimeFields config m ↔ m.HasLocalTime config name := by
    intro name
    rw [← Model.mem_localTimeFields, Schema.localTimeFields, List.mem_map]
    constructor
    · rintro ⟨other, listed, same⟩
      exact Naming.localTimeField_inj.mp (congrArg Schema.Field.name same) ▸ listed
    · intro listed
      exact ⟨name, listed, rfl⟩
  refine ⟨Schema.localTimeFields config m, ?_, fun x listed => ?_, fun name => ⟨?_, declares name⟩,
    localizes⟩
  · rw [(Compilation.build_schema built).2]
    exact Schema.mem_of_modelBlocks ((Schema.perm_sortedModels models).mem_iff.mpr member)
      (b := Schema.typeBlock config m) (by simp [Schema.modelBlocks])
  · obtain ⟨name, -, rfl⟩ := List.mem_map.mp listed
    exact ⟨name, rfl⟩
  · rw [declares]
    refine ⟨fun own plan returns => ((localizes plan returns).writes name).mpr own, fun all => ?_⟩
    have get := Compilation.exists_handsOut built member .get
    exact ((localizes _ get).writes name).mp (all _ get)

/-- A note that is due at some time. -/
def dueNote : Value := .object [
  ("name", .text "Note"),
  ("properties", .object [
    ("id", .object [("type", .text "ID")]),
    ("author", .object [("type", .text "String"), ("isOwner", .bool true)]),
    ("dueAt", .object [("type", .text "AWSDateTime")])]),
  ("dataSource", .object [("type", .text "database"), ("engine", .text "nosql")]),
  ("accessControl", .object [("rules", .list [
    .object [("allow", .text "read"), ("owner", .bool true)]])])]

theorem local_times_agree_dueNote :
    ∃ m c, Model.decode dueNote = .ok m ∧ Compilation.build .default [m] = .ok c ∧
      (∃ b ∈ c.schema.blocks, b.name = "Note" ∧
        .plain "dueAt_local" (.optional "AWSDateTime") ∈ b.fields) ∧
      ∀ plan, c.HandsOut [m] m plan →
        (ofResponse .default plan).WritesLocalTime "dueAt" ∧
          ¬ (ofResponse .default plan).WritesLocalTime "author" := by
  obtain ⟨m, c, first, built, named, dated, document⟩ : ∃ m c, Model.decode dueNote = .ok m ∧
      Compilation.build .default [m] = .ok c ∧ m.name = "Note" ∧ m.timestampFields = ["dueAt"] ∧
      m.engine = .document :=
    ⟨_, _, rfl, rfl, rfl, rfl, rfl⟩
  have due : m.HasLocalTime .default "dueAt" := by
    refine ⟨?_, ⟨_, rfl, by decide⟩, .inl document⟩
    rw [dated]
    exact List.mem_singleton_self _
  have undated : ¬ m.HasLocalTime .default "author" := by
    rintro ⟨listed, -⟩
    rw [dated] at listed
    exact absurd listed (by decide)
  obtain ⟨added, block, -, names, responses⟩ :=
    local_times_agree built (List.mem_singleton_self m)
  refine ⟨m, c, first, built, ⟨_, block, named, ?_⟩, fun plan returns => ?_⟩
  · have listed := (names "dueAt").2.mpr due
    exact List.mem_append_left _ (List.mem_append_right _ listed)
  · obtain ⟨writes, -⟩ := responses plan returns
    exact ⟨(writes "dueAt").mpr due, fun other => undated ((writes "author").mp other)⟩

end ApiLoom
