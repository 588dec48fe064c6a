import ApiLoom.Proofs.InPlace
import ApiLoom.Proofs.PageRequests

/-!
# Page responses

The response to a page counts its rows before it drops what the caller may not see: the
token of the next page is there if the page was full.  What is left comes back with
local times where the caller names a zone.
-/

namespace ApiLoom

/-! ### Filters -/

/-- The filter of a page lets the item through.  Its owner is compared with what the identity
holds of the caller, known or not. -/
def ItemAccess.admits (access : ItemAccess) (caller : Caller) (stash : Stash) (item : Value) :
    Bool :=
  match access with
  | allowAll _ => true
  | denyAll _ => false
  | filter f =>
    (nonEmpty f.gateFlag).any (fun flag => !stash.contains flag) || caller.isIn f.groups ||
      (nonEmpty f.ownerField).any fun owner => item.field owner = Template.subValue caller

namespace Template

open Script

section Filters

variable {w : World} {s t : State} {config : Config} {caller : Caller} {stash : Stash}

/-- Within the decision about an item that was begun in `s`: so far it is let through or not. -/
structure Judging (s : State) (granted : Bool) (t : State) : Prop where
  same : s.AgreesOff ["canAccess", "group"] t
  decided : t.local? "canAccess" = .bool granted

def letThrough (c : Cond) : Script := when c (acts [.set "canAccess" (.truth true)])

theorem letThrough_reaches {c : Cond} {granted : Bool} (judging : Judging s granted t) :
    ((letThrough c).exec w t).Reaches (Judging s (granted || c.eval w t)) := by
  rw [letThrough, exec_when]
  cases c.eval w t with
  | true =>
    rw [if_pos rfl, exec_acts_cons, Action.perform, Step.next_andThen, exec_acts_nil, Term.eval,
      Bool.or_true]
    exact .now ⟨judging.same.trans (.bind (by simp) _), State.local?_bind_self⟩
  | false =>
    rw [Bool.or_false]
    exact .now judging

def throughGate (f : ItemFilter) : Script :=
  match nonEmpty f.gateFlag with
  | some flag => letThrough (.fails (.stash flag))
  | none => done

def throughGroups (config : Config) (f : ItemFilter) : Script :=
  if f.groups.isEmpty then done else grantToGroups "canAccess" (callerGroups config) f.groups

def throughOwner (f : ItemFilter) (subject : Term) : Script :=
  match nonEmpty f.ownerField with
  | some owner => letThrough (.both (.fails .canAccess) (.isCaller (subject.member owner)))
  | none => done

theorem itemFilter_parts (f : ItemFilter) (subject : Term) :
    itemFilter config f subject = acts [.set "canAccess" (.truth false)] ++ throughGate f ++
      throughGroups config f ++ throughOwner f subject := rfl

theorem throughGate_reaches {f : ItemFilter}
    (noted : ∀ flag, f.gateFlag = some flag → s.flagged flag = stash.contains flag)
    (judging : Judging s false t) :
    ((throughGate f).exec w t).Reaches
      (Judging s ((nonEmpty f.gateFlag).any fun flag => !stash.contains flag)) := by
  unfold throughGate
  cases given : nonEmpty f.gateFlag with
  | none => exact .now judging
  | some flag =>
    have unset : (Cond.fails (.stash flag)).eval w t = !stash.contains flag := by
      rw [← noted flag (nonEmpty_eq_some_iff.mp given).1, ← judging.same.flagged, Cond.eval,
        eval_stash, State.flagged]
    exact (letThrough_reaches judging).mono fun u later => by rwa [unset] at later

theorem throughGroups_reaches {f : ItemFilter} {granted : Bool}
    (told : w.context.identity = caller.identity config) (judging : Judging s granted t) :
    ((throughGroups config f).exec w t).Reaches (Judging s (granted || caller.isIn f.groups)) := by
  unfold throughGroups
  cases given : f.groups with
  | nil =>
    rw [Caller.isIn_nil, Bool.or_false]
    exact .now judging
  | cons group others =>
    refine (grantToGroups_reaches (by decide) (by decide) (eval_callerGroups told)
      judging.decided).mono fun u reached => ?_
    exact ⟨judging.same.trans reached.1, reached.2⟩

theorem throughOwner_reaches {f : ItemFilter} {granted : Bool} {subject : Term} {item : Value}
    (told : w.context.identity = caller.identity config)
    (found : subject.eval w t = item) (judging : Judging s granted t) :
    ((throughOwner f subject).exec w t).Reaches
      (Judging s (granted || (nonEmpty f.ownerField).any fun owner =>
        item.field owner = subValue caller)) := by
  unfold throughOwner
  cases nonEmpty f.ownerField with
  | none =>
    rw [Option.any_none, Bool.or_false]
    exact .now judging
  | some owner =>
    have compared : (Cond.both (.fails .canAccess) (.isCaller (subject.member owner))).eval w t =
        (!granted && decide (item.field owner = subValue caller)) := by
      rw [Cond.eval, Cond.eval, Term.canAccess, eval_var (by decide), judging.decided,
        Value.isTrue_bool, Cond.isCaller, Cond.eval, Term.eval, found, eval_caller told]
      rfl
    refine (letThrough_reaches judging).mono fun u later => ?_
    rw [compared] at later
    cases granted <;> exact later

/-- The decision about an item is whether its filter admits it. -/
theorem decideItem_reaches {access : ItemAccess} {subject : Term} {item : Value}
    (told : w.context.identity = caller.identity config)
    (noted : ∀ f flag, access = .filter f → f.gateFlag = some flag →
      s.flagged flag = stash.contains flag)
    (found : ∀ t, s.AgreesOff ["canAccess", "group"] t → subject.eval w t = item) :
    ((decideItem config access subject).exec w s).Reaches
      (Judging s (access.admits caller stash item)) := by
  have begun : ∀ b, ((acts [.set "canAccess" (.truth b)]).exec w s).Reaches (Judging s b) := by
    intro b
    rw [exec_acts_cons, Action.perform, Step.next_andThen, exec_acts_nil, Term.eval]
    exact .now ⟨.bind (by simp) _, State.local?_bind_self⟩
  cases access with
  | allowAll reason => exact begun true
  | denyAll reason => exact begun false
  | filter f =>
    rw [decideItem, itemFilter_parts, exec_append, exec_append, exec_append]
    exact (((begun false).andThen fun t judging =>
      throughGate_reaches (noted f · rfl) judging).andThen fun t judging =>
        throughGroups_reaches told judging).andThen fun t judging =>
          throughOwner_reaches told (found t judging.same) judging

/-- The items that the filter of a page lets through, if it has one. -/
def filterItems (config : Config) : Option ItemAccess → Script
  | some access =>
    acts [.set "visibleItems" (.list [])] ++
      forEach "item" .items (decideItem config access (.var "item") ++ keepItem)
  | none => done

/-- The variable that has the items to be handed out. -/
def keptItems (access : Option ItemAccess) : String :=
  if access.isSome then "visibleItems" else "items"

theorem keptItems_apart (access : Option ItemAccess) :
    keptItems access ≠ "ctx" ∧ keptItems access ≠ "entry" ∧ keptItems access ≠ "userTimezone" ∧
      keptItems access ≠ "connection" := by
  unfold keptItems
  split <;> decide

theorem decideItem_changed (access : ItemAccess) (subject : Term) :
    ∀ name ∈ (decideItem config access subject).changed, name ∈ ["canAccess", "group"] := by
  have set : ∀ b, (acts [.set "canAccess" (.truth b)]).changed = ["canAccess"] := fun _ => rfl
  cases access with
  | filter f =>
    have gate : ∀ name ∈ (throughGate f).changed, name ∈ ["canAccess", "group"] := by
      unfold throughGate
      cases nonEmpty f.gateFlag <;> simp [letThrough, changed, Action.changed]
    have groups : ∀ name ∈ (throughGroups config f).changed, name ∈ ["canAccess", "group"] := by
      unfold throughGroups
      split <;> simp [grantToGroups, changed, Action.changed]
    have owner : ∀ name ∈ (throughOwner f subject).changed, name ∈ ["canAccess", "group"] := by
      unfold throughOwner
      cases nonEmpty f.ownerField <;> simp [letThrough, changed, Action.changed]
    intro name member
    rw [decideItem, itemFilter_parts, mem_changed_append, mem_changed_append,
      mem_changed_append] at member
    rcases member with ((begun | member) | member) | member
    · rw [set] at begun
      exact List.mem_cons.mpr (Or.inl (List.mem_singleton.mp begun))
    · exact gate name member
    · exact groups name member
    · exact owner name member
  | _ => simp [decideItem, set]

theorem filterItems_steady (access : Option ItemAccess) : (filterItems config access).Steady := by
  cases access with
  | none => exact trivial
  | some access =>
    have apart : "item" ∉ (decideItem config access (.var "item") ++ keepItem).changed := by
      rw [mem_changed_append]
      rintro (decided | kept)
      · exact absurd (decideItem_changed access _ _ decided) (by decide)
      · simp [keepItem, changed, Action.changed] at kept
    rw [filterItems, steady_append, steady_forEach, steady_append]
    exact ⟨steady_acts _, apart, decideItem_steady _ _, by simp [keepItem]⟩

/-- What stands in the items of a page that were let through. -/
theorem filterItems_reaches {access : Option ItemAccess} {items : List Value}
    (told : w.context.identity = caller.identity config)
    (noted : ∀ f flag, access = some (.filter f) → f.gateFlag = some flag →
      s.flagged flag = stash.contains flag)
    (listed : s.local? "items" = .list items) :
    ((filterItems config access).exec w s).Reaches fun t =>
      s.AgreesOff ["canAccess", "group", "item", "visibleItems"] t ∧
        t.local? (keptItems access) = .list (items.filter fun item =>
          access.all fun access => access.admits caller stash item) := by
  cases access with
  | none => exact .now ⟨.refl _ s, by
      rw [List.filter_eq_self.mpr (by simp)]
      exact listed⟩
  | some access =>
    have decides : ∀ u : State, u.stash = s.stash →
        ((decideItem config access (.var "item")).exec w u).Reaches fun t =>
          u.AgreesOff ["canAccess", "group"] t ∧
            t.local? "canAccess" = .bool (access.admits caller stash (u.local? "item")) := by
      intro u same
      refine (decideItem_reaches told (fun f flag filters gate => ?_) fun t agrees => ?_).mono
        fun t judging => ⟨judging.same, judging.decided⟩
      · rw [← noted f flag (congrArg some filters) gate, State.flagged, State.flagged, same]
      · rw [eval_var (by decide), agrees.locals _ (by decide)]
    let begun := s.bind "visibleItems" (.list [])
    have unchanged : Term.items.eval w begun = .list items := by
      rw [Term.items, eval_var (by decide), State.local?_bind_of_ne (by decide), listed]
    have empty : (Term.list []).eval w s = .list [] := by rw [Term.eval, Term.evals]
    rw [filterItems, exec_append, exec_acts_cons, Action.perform, empty, Step.next_andThen,
      exec_acts_nil, Step.next_andThen, exec_forEach, unchanged]
    refine (itemLoop_reaches decides items [] (s := begun) rfl State.local?_bind_self).mono
      fun t reached => ?_
    obtain ⟨same, collected⟩ := reached
    exact ⟨(State.AgreesOff.bind (by simp) _).trans same, by simpa [keptItems] using collected⟩

end Filters

/-! ### Local times -/

namespace Library

/-- A time in the zone of the caller. -/
def localTime (library : Library) (zone time : Value) : Value :=
  library.apply "time" "epochMilliSecondsToFormatted"
    [library.apply "time" "parseISO8601ToEpochMilliSeconds" [time], .text localTimeFormat, zone]

/-- The record with the local time of one of its fields, if it has that field. -/
def addLocalTime (library : Library) (zone : Value) (r : Record) (name : String) : Record :=
  let time := (Value.map r).field name
  if time.isBlank then r
  else r.put (.text (Naming.localTimeField name)) (library.localTime zone time)

def localized (library : Library) (zone : Value) (fields : List String) (r : Record) : Record :=
  fields.foldl (library.addLocalTime zone) r

/-- What a record is about is not changed by its local times. -/
theorem localized_get? (library : Library) (zone : Value) {fields : List String} {name : String}
    (apart : ∀ field ∈ fields, name ≠ Naming.localTimeField field) (r : Record) :
    (library.localized zone fields r).get? name = r.get? name := by
  induction fields generalizing r with
  | nil => rfl
  | cons field rest ih =>
    have first : (library.addLocalTime zone r field).get? name = r.get? name := by
      unfold addLocalTime
      dsimp only
      split
      · rfl
      · exact Entries.get?_put_of_ne (apart field List.mem_cons_self) _ _
    exact (ih (fun other later => apart other (List.mem_cons_of_mem _ later)) _).trans first

end Library

section LocalTimes

variable {w : World} {s : State} {config : Config}

/-- Adds their local times to the items of a list. -/
def localizeItems (config : Config) (fields : List String) (list : String) : Script :=
  match localTimeHeader config fields with
  | some header =>
    acts [bindTimezone header] ++
      when zoneIsGiven (forEach "entry" (.var list) (addLocalTimes fields (.var "entry")))
  | none => done

theorem addLocalTime_reaches {subject name : String} {r : Record} {zone : Value}
    (own : subject ≠ "ctx") (plain : '$' ∉ (Naming.localTimeField name).toList)
    (bound : s.local? subject = .map r) (zoned : s.local? "userTimezone" = zone) :
    ((addLocalTimes [name] (.var subject)).exec w s).Reaches fun t =>
      s.AgreesOff [subject] t ∧
        t.local? subject = .map (w.library.addLocalTime zone r name) := by
  let time := Term.util.member "time"
  let field := (Term.var subject).member name
  let put := (Term.var subject).call "put" [.plain (Naming.localTimeField name),
    time.call "epochMilliSecondsToFormatted"
      [time.call "parseISO8601ToEpochMilliSeconds" [field], .quoted localTimeFormat,
        .var "userTimezone"]]
  have found : field.eval w s = (Value.map r).field name := by
    rw [Term.eval, eval_var own, bound]
  have given : (Cond.fails field.isBlank).eval w s = !((Value.map r).field name).isBlank := by
    rw [Cond.eval, eval_isBlank, found, Value.isTrue_bool]
  have converted : (time.call "epochMilliSecondsToFormatted"
      [time.call "parseISO8601ToEpochMilliSeconds" [field], .quoted localTimeFormat,
        .var "userTimezone"]).eval w s =
      w.library.localTime zone ((Value.map r).field name) := by
    rw [eval_library "time" rfl]
    simp only [List.map_cons, List.map_nil]
    rw [eval_library "time" rfl, List.map_cons, List.map_nil, found, eval_var (by decide), zoned,
      Term.eval]
    rfl
  have added : s.effect w put = s.bind subject (.map (r.put (.text (Naming.localTimeField name))
      (w.library.localTime zone ((Value.map r).field name)))) := by
    simp only [put, State.effect, State.change, bound, Value.put, converted]
    rw [Term.eval, World.printed, expand_plain plain]
  have spelled : addLocalTimes [name] (.var subject) =
      when (.fails field.isBlank) (acts [.run put]) ++ done := rfl
  rw [spelled, exec_append, exec_when, given, Library.addLocalTime]
  cases ((Value.map r).field name).isBlank with
  | true => exact .now ⟨.refl _ s, bound⟩
  | false =>
    rw [Bool.not_false, if_pos rfl, exec_acts_cons, Action.perform, Step.next_andThen,
      exec_acts_nil, added]
    exact .now ⟨.bind (by simp) _, State.local?_bind_self⟩

theorem addLocalTimes_reaches {subject : String} {fields : List String} {r : Record} {zone : Value}
    (own : subject ≠ "ctx") (apart : subject ≠ "userTimezone")
    (plain : ∀ name ∈ fields, '$' ∉ (Naming.localTimeField name).toList)
    (bound : s.local? subject = .map r) (zoned : s.local? "userTimezone" = zone) :
    ((addLocalTimes fields (.var subject)).exec w s).Reaches fun t =>
      s.AgreesOff [subject] t ∧ t.local? subject = .map (w.library.localized zone fields r) := by
  induction fields generalizing r s with
  | nil => exact .now ⟨.refl _ s, bound⟩
  | cons name rest ih =>
    have spelled : addLocalTimes (name :: rest) (.var subject) =
        addLocalTimes [name] (.var subject) ++ addLocalTimes rest (.var subject) := rfl
    rw [spelled, exec_append]
    refine (addLocalTime_reaches own (plain name List.mem_cons_self) bound zoned).andThen
      fun t reached => ?_
    obtain ⟨same, added⟩ := reached
    refine (ih (fun other later => plain other (List.mem_cons_of_mem _ later)) added
      (by rw [same.locals _ (by simpa using apart.symm), zoned])).mono fun u reached => ?_
    exact ⟨same.trans reached.1, reached.2⟩

/-- What was changed of an item is in its list again. -/
theorem reflect_reaches {list : String} {items : List Value} {i : Nat} {before : Value}
    (after : Value) (listed : s.local? list = .list items) (held : items[i]? = some before) :
    s.AgreesOff [list] (s.reflect (.var list) i before after) ∧
      (s.reflect (.var list) i before after).local? list = .list (items.set i after) := by
  unfold State.reflect
  split
  · next same =>
    subst same
    refine ⟨.refl _ s, listed.trans (congrArg Value.list ?_)⟩
    obtain ⟨inside, rfl⟩ := List.getElem?_eq_some_iff.mp held
    exact (List.set_getElem_self inside).symm
  · exact ⟨.bind (by simp) _, by rw [State.local?_bind_self, listed, Value.items]⟩

/-- The loop adds their local times to the items behind those that have them. -/
theorem localLoop_reaches {fields : List String} {list : String} {zone : Value}
    (plain : ∀ name ∈ fields, '$' ∉ (Naming.localTimeField name).toList)
    (apart : list ≠ "entry" ∧ list ≠ "userTimezone") (zoned : s.local? "userTimezone" = zone)
    (localized rest : List Record)
    (listed : s.local? list = .list ((localized ++ rest).map Value.map)) :
    (loopInPlace (.var list) "entry" ((addLocalTimes fields (.var "entry")).execInPlace w)
        localized.length (rest.map Value.map) s).Reaches fun t =>
      s.AgreesOff ["entry", list] t ∧ t.local? list =
        .list ((localized ++ rest.map (w.library.localized zone fields)).map Value.map) := by
  rw [execInPlace_of_steady (addLocalTimes_steady _ _)]
  induction rest generalizing localized s with
  | nil => exact .now ⟨.refl _ s, listed⟩
  | cons r rest ih =>
    let convert := w.library.localized zone fields
    have entered : s.AgreesOff ["entry", list] (s.bind "entry" (.map r)) := .bind (by simp) _
    obtain ⟨t, run, same, converted⟩ := addLocalTimes_reaches (w := w)
      (s := s.bind "entry" (.map r)) (by decide) (by decide) plain State.local?_bind_self
      (by rw [State.local?_bind_of_ne (by decide), zoned])
    have turned : s.AgreesOff ["entry", list] t := entered.trans (same.mono (by simp))
    have before : t.local? list = .list ((localized ++ r :: rest).map Value.map) := by
      rw [same.locals _ (by simpa using apart.1), State.local?_bind_of_ne apart.1, listed]
    have held : ((localized ++ r :: rest).map Value.map)[localized.length]? = some (.map r) := by
      simp
    obtain ⟨reflected, after⟩ := reflect_reaches (.map (convert r)) before held
    have updated :
        ((localized ++ r :: rest).map Value.map).set localized.length (.map (convert r)) =
          ((localized ++ [convert r]) ++ rest).map Value.map := by
      simp [List.set_append_right]
    rw [updated] at after
    have kept := turned.trans (reflected.mono (by simp))
    obtain ⟨u, later, others, collected⟩ := ih
      (by rw [kept.locals _ (by simpa using apart.2.symm), zoned]) (localized ++ [convert r]) after
    refine ⟨u, ?_, kept.trans others, ?_⟩
    · rw [List.map_cons, loopInPlace, run]
      dsimp only
      rw [converted, ← later, List.length_append, List.length_singleton]
    · rw [collected, List.append_assoc, List.singleton_append, List.map_cons]

/-- The record as a page shows it: with local times where the caller names a zone. -/
def Library.shown (library : Library) (config : Config) (headers : Value) (fields : List String)
    (r : Record) : Record :=
  match localTimeHeader config fields with
  | some header =>
    if (headers.field header).isBlank then r
    else library.localized (headers.field header) fields r
  | none => r

theorem eval_timezone (header : String) :
    (Term.headers.call "get" [.quoted header]).eval w s = w.context.headers.field header := by
  have headers : Term.headers.eval w s = w.context.headers := by
    simp [Term.headers, Term.context, Term.eval, World.lookup, World.contextValue,
      Value.object, Entries.get?]
  rw [eval_method rfl, headers, List.map_cons, List.map_nil, Term.eval]
  rfl

theorem eval_zoneIsGiven {zone : Value} (zoned : s.local? "userTimezone" = zone) :
    zoneIsGiven.eval w s = !zone.isBlank := by
  rw [zoneIsGiven, Cond.eval, eval_isBlank, eval_var (by decide), zoned, Value.isTrue_bool]

theorem localizeItems_reaches (config : Config) {fields : List String} {list : String}
    {rows : List Record}
    (plain : ∀ name ∈ fields, '$' ∉ (Naming.localTimeField name).toList)
    (apart : list ≠ "entry" ∧ list ≠ "userTimezone" ∧ list ≠ "ctx")
    (listed : s.local? list = .list (rows.map Value.map)) :
    ((localizeItems config fields list).execInPlace w s).Reaches fun t =>
      s.AgreesOff ["userTimezone", "entry", list] t ∧ t.local? list =
        .list ((rows.map (w.library.shown config w.context.headers fields)).map Value.map) := by
  obtain ⟨notEntry, notZone, own⟩ := apart
  unfold localizeItems Library.shown
  cases localTimeHeader config fields with
  | none => exact .now ⟨.refl _ s, by simpa using listed⟩
  | some header =>
    let zone := w.context.headers.field header
    let zoned := s.bind "userTimezone" zone
    have begun : s.AgreesOff ["userTimezone", "entry", list] zoned := .bind (by simp) _
    have given : zoneIsGiven.eval w zoned = !zone.isBlank := eval_zoneIsGiven State.local?_bind_self
    have before : zoned.local? list = .list (rows.map Value.map) := by
      rw [State.local?_bind_of_ne notZone, listed]
    rw [execInPlace_append, execInPlace_of_steady (steady_acts _), exec_acts_cons, bindTimezone,
      Action.perform, eval_timezone, Step.next_andThen, exec_acts_nil, Step.next_andThen,
      execInPlace_when, given]
    dsimp only
    cases blank : zone.isBlank with
    | true =>
      exact .now ⟨begun, by simpa using before⟩
    | false =>
      simp only [Bool.not_false, if_true, Bool.false_eq_true, if_false]
      rw [execInPlace_forEach, eval_var own, before]
      refine (localLoop_reaches plain ⟨notEntry, notZone⟩ State.local?_bind_self [] rows
        before).mono fun t reached => ?_
      exact ⟨begun.trans (reached.1.mono (by simp)), reached.2⟩

end LocalTimes

/-! ### Pages -/

/-- The token of the page behind a window: there is one if the window was full. -/
def nextToken (window : Window) (count : Nat) : Option String :=
  if count = window.limit then some (toString (window.offset + window.limit)) else none

/-- The value of a connection, with the token of the next page if there is one. -/
def connectionValue (token : Option String) (items : List Value) : Value :=
  .object ((token.map fun t => ("nextToken", Value.text t)).toList ++ [("items", .list items)])

section Pages

variable {w : World} {s : State} {config : Config} {caller : Caller} {stash : Stash}

/-- The response knows the window of its page. -/
structure Noted (window : Window) (s : State) : Prop where
  limit : s.stash.get? pageLimitKey = some (.int window.limit)
  offset : s.stash.get? pageOffsetKey = some (.int window.offset)

theorem noted_of_page {window : Window} {t : State} (noted : t.stash = (s.page window).stash) :
    Noted window t := by
  constructor
  · rw [noted, State.page, State.flag, State.flag, Entries.get?_put_of_ne (by decide),
      Entries.get?_put_self]
  · rw [noted, State.page, State.flag, Entries.get?_put_self]

theorem expand_nextOffset {n : Nat} (counts : w.library.Counts)
    (bound : s.local? "nextOffset" = .int n) : w.expand s "$nextOffset" = toString n := by
  have chars : "$nextOffset".toList = '$' :: "nextOffset".toList := rfl
  have path : Text.path "nextOffset".toList = ["nextOffset"] := by decide
  have followed : w.follow s ["nextOffset"] = .int n := by
    simp [World.follow, lookup_local (by decide : "nextOffset" ≠ "ctx"), bound]
  rw [World.expand, chars, Text.expand_reference (by decide), World.reference, path, followed]
  simp only [World.printed, counts.prints, String.ofList_toList]

/-- The rows of a page are at hand, and what is known of the next page. -/
structure Opened (rows : List Record) (connection : Value) (s t : State) : Prop where
  same : s.AgreesOff ["items", "nextOffset", "connection"] t
  items : t.local? "items" = .list (rows.map Value.map)
  connection : t.local? "connection" = connection

theorem bindPage_reaches {rows : List Record} {window : Window} (counts : w.library.Counts)
    (returned : w.context.result = .list [.list (rows.map Value.map)]) (noted : Noted window s)
    (empty : s.local? "connection" = .map []) :
    ((bindPage (.sqlRows 0)).exec w s).Reaches (Opened rows (.object
      ((nextToken window rows.length).map fun token => ("nextToken", Value.text token)).toList)
        s) := by
  let items := rows.map Value.map
  have length : rows.length = items.length := (List.length_map _).symm
  rw [length]
  let begun := s.bind "items" (.list items)
  have started : s.AgreesOff ["items", "nextOffset", "connection"] begun := .bind (by simp) _
  have rows : (rowsOf 0).eval w s = .list items := by
    rw [rowsOf, Term.eval, eval_library "rds" rfl, List.map_cons, List.map_nil, eval_result,
      returned, Term.eval]
    rfl
  have limit : ∀ t : State, t.stash = s.stash → (Term.stash pageLimitKey).eval w t =
      .int window.limit := by
    intro t same
    rw [eval_stash, same, noted.limit]
    rfl
  have size : (Term.items.call "size" []).eval w begun = .int items.length := by
    rw [eval_method rfl, Term.items, eval_var (by decide), State.local?_bind_self]
    rfl
  have full : (Cond.compare (Term.items.call "size" []) .equal (.stash pageLimitKey)).eval w begun =
      decide (items.length = window.limit) := by
    rw [Cond.eval, size, limit begun rfl, Bool.eq_iff_iff]
    simp only [Cond.compareValues, decide_eq_true_eq, Value.scalar.injEq, Scalar.int.injEq,
      Int.natCast_inj]
  have connected : begun.local? "connection" = .map [] := by
    rw [State.local?_bind_of_ne (by decide), empty]
  have spelled : bindPage (.sqlRows 0) = acts [.set "items" (rowsOf 0),
      .comment "A full page means there may be more rows: hand out the next offset"] ++
      when (.compare (Term.items.call "size" []) .equal (.stash pageLimitKey))
        (acts [.set "nextOffset" (.sum (.stash pageOffsetKey) (.stash pageLimitKey)),
          putConnection "nextToken" (.plain "$nextOffset")]) := rfl
  rw [spelled, exec_append, exec_acts_cons, Action.perform, rows, Step.next_andThen, exec_acts_cons,
    Action.perform, Step.next_andThen, exec_acts_nil, Step.next_andThen, exec_when, full, nextToken]
  by_cases counted : items.length = window.limit
  · let next := window.offset + window.limit
    have summed : (Term.sum (.stash pageOffsetKey) (.stash pageLimitKey)).eval w begun =
        .int (next : Nat) := by
      rw [Term.eval, eval_stash, limit begun rfl, State.bind_stash, noted.offset]
      simp [next]
    let later := begun.bind "nextOffset" (.int (next : Nat))
    have token : (Term.plain "$nextOffset").eval w later = .text (toString next) := by
      rw [Term.eval, expand_nextOffset counts State.local?_bind_self]
    have put :
        later.effect w (Term.connection.call "put" [.plain "nextToken", .plain "$nextOffset"]) =
        later.bind "connection" (.object [("nextToken", .text (toString next))]) := by
      have found : later.local? "connection" = .map [] := by
        rw [State.local?_bind_of_ne (by decide), connected]
      simp only [Term.connection, State.effect, State.change, found, token]
      rw [Term.eval, World.printed, expand_plain (by decide)]
      rfl
    rw [decide_eq_true counted, if_pos rfl, if_pos counted, exec_acts_cons, Action.perform, summed,
      Step.next_andThen, exec_acts_cons, putConnection, Action.perform, put, Step.next_andThen,
      exec_acts_nil]
    refine .now ⟨(started.trans (.bind (by simp) _)).trans (.bind (by simp) _), ?_,
      State.local?_bind_self⟩
    rw [State.local?_bind_of_ne (by decide), State.local?_bind_of_ne (by decide),
      State.local?_bind_self]
  · rw [decide_eq_false counted, if_neg (by decide), if_neg counted]
    exact .now ⟨started, State.local?_bind_self, connected⟩

theorem recordList_parts (r : RecordList) :
    recordList config r = acts [.set "connection" .emptyMap] ++ bindPage r.source ++
      filterItems config r.access ++ localizeItems config r.localTimeFields (keptItems r.access) ++
      acts [putConnection "items" (.var (keptItems r.access)), .emit .connection] := by
  obtain ⟨source, _ | access, fields⟩ := r <;> rfl

theorem handOut_connection {list : String} {items : List Value} {connection : Value}
    (own : list ≠ "ctx") (kept : s.local? list = .list items)
    (connected : s.local? "connection" = connection) :
    ((acts [putConnection "items" (.var list), .emit .connection]).exec w s).Reaches fun t =>
      t.args = s.args ∧ t.stash = s.stash ∧ t.output = connection.put "items" (.list items) := by
  have put : s.effect w (Term.connection.call "put" [.plain "items", .var list]) =
      s.bind "connection" (connection.put "items" (.list items)) := by
    simp only [Term.connection, State.effect, State.change, connected, eval_var own, kept]
    rw [Term.eval, World.printed, expand_plain (by decide)]
  rw [exec_acts_cons, putConnection, Action.perform, put, Step.next_andThen, exec_acts_cons,
    Action.perform, Step.next_andThen, exec_acts_nil, Term.connection, eval_var (by decide),
    State.local?_bind_self]
  exact .now ⟨rfl, rfl, rfl⟩

/-- Of the rows of a page those are handed out that its filter admits. -/
theorem recordList_hands {source : ListSource} {access : Option ItemAccess} {fields : List String}
    {rows : List Record} {connection : Value}
    (told : w.context.identity = caller.identity config)
    (opens : ((bindPage source).exec w (s.bind "connection" (.map []))).Reaches
      (Opened rows connection (s.bind "connection" (.map []))))
    (flagged : ∀ f flag, access = some (.filter f) → f.gateFlag = some flag →
      s.flagged flag = stash.contains flag)
    (plain : ∀ name ∈ fields, '$' ∉ (Naming.localTimeField name).toList) :
    ((recordList config ⟨source, access, fields⟩).execInPlace w s).Reaches fun t =>
      t.args = s.args ∧ t.stash = s.stash ∧
        t.output = connection.put "items" (.list (((rows.filter fun r => access.all fun access =>
          access.admits caller stash (.map r)).map
            (w.library.shown config w.context.headers fields)).map Value.map)) := by
  obtain ⟨own, notEntry, notZone, notConnection⟩ := keptItems_apart access
  obtain ⟨t, paged, first, listed, connected⟩ := opens
  have flags : ∀ f flag, access = some (.filter f) → f.gateFlag = some flag →
      t.flagged flag = stash.contains flag := by
    intro f flag filters gate
    rw [first.flagged, State.bind_flagged, flagged f flag filters gate]
  obtain ⟨u, filtered, second, passed⟩ := filterItems_reaches told flags listed
  rw [List.filter_map] at passed
  obtain ⟨v, localized, third, shown⟩ := localizeItems_reaches (w := w) config plain
    ⟨notEntry, notZone, own⟩ passed
  have later : t.AgreesOff ["canAccess", "group", "item", "visibleItems", "userTimezone", "entry",
      keptItems access] v := (second.mono (by simp)).trans (third.mono (by simp))
  have kept : v.local? "connection" = connection := by
    rw [later.locals _ (by simpa using notConnection.symm), connected]
  rw [recordList_parts, execInPlace_append, execInPlace_append, execInPlace_append,
    execInPlace_append, execInPlace_of_steady (steady_acts _),
    execInPlace_of_steady (bindPage_steady _), execInPlace_of_steady (filterItems_steady _),
    execInPlace_of_steady (steady_acts _), exec_acts_cons, Action.perform, Term.eval,
    Step.next_andThen, exec_acts_nil, Step.next_andThen, paged, Step.next_andThen, filtered,
    Step.next_andThen, localized, Step.next_andThen]
  refine (handOut_connection own shown kept).mono fun x reached => ?_
  obtain ⟨args, stashed, output⟩ := reached
  exact ⟨args.trans (later.args.trans first.args), stashed.trans (later.stash.trans first.stash),
    output⟩

/-- A page is handed out with the rows that its filter admits, and with the token of the next
page if its window was full. -/
theorem recordList_reaches {access : Option ItemAccess} {fields : List String}
    {rows : List Record} {window : Window} (counts : w.library.Counts)
    (told : w.context.identity = caller.identity config)
    (returned : w.context.result = .list [.list (rows.map Value.map)]) (noted : Noted window s)
    (flagged : ∀ f flag, access = some (.filter f) → f.gateFlag = some flag →
      s.flagged flag = stash.contains flag)
    (plain : ∀ name ∈ fields, '$' ∉ (Naming.localTimeField name).toList) :
    ((recordList config ⟨.sqlRows 0, access, fields⟩).execInPlace w s).Reaches fun t =>
      t.args = s.args ∧ t.stash = s.stash ∧
        t.output = connectionValue (nextToken window rows.length)
          (((rows.filter fun r => access.all fun access =>
            access.admits caller stash (.map r)).map
              (w.library.shown config w.context.headers fields)).map Value.map) := by
  have opens := bindPage_reaches (w := w) (s := s.bind "connection" (.map [])) counts returned
    ⟨noted.limit, noted.offset⟩ State.local?_bind_self
  refine (recordList_hands told opens flagged plain).mono fun t reached => ?_
  obtain ⟨args, stashed, output⟩ := reached
  refine ⟨args, stashed, output.trans ?_⟩
  cases nextToken window rows.length <;>
    simp [connectionValue, Value.object, Value.put, Entries.put, Entries.sameKey_text]

end Pages

end Template

end ApiLoom
