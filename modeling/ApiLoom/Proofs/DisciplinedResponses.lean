import ApiLoom.Proofs.DisciplinedRequests

/-!
# Disciplined responses

The template of a response obeys a discipline where the texts of its plan do.
-/

namespace ApiLoom

open Template

/-! ### Plans -/

section Plans

variable (d : Discipline)

/-- Of the records of a page, a filter looks at the owner, and at the groups of the caller. -/
def ItemAccess.Obeys : ItemAccess → Prop
  | filter f => (∀ owner ∈ f.ownerField, d.text owner) ∧
      (∀ flag ∈ f.gateFlag, (Term.stash flag).Obeys d) ∧
      ∀ group ∈ f.groups, d.reads "group" ∧ d.quoted group
  | _ => True

structure SingleRecord.Obeys (r : SingleRecord) : Prop where
  verification : ∀ v ∈ r.verification, d.text v.ownerField
  access : ∀ access ∈ r.access, access.Obeys d
  times : ∀ name ∈ r.localTimeFields, d.text name

structure RecordList.Obeys (r : RecordList) : Prop where
  access : ∀ access ∈ r.access, access.Obeys d
  times : ∀ name ∈ r.localTimeFields, d.text name

/-- All texts that the response writes into its template are allowed. -/
def ResultShape.Obeys : ResultShape → Prop
  | single r => r.Obeys d
  | list r => r.Obeys d
  | pendingAck key => (Term.stash key).Obeys d
  | confirmOwnership _ verification flag =>
    (∀ v ∈ verification, d.text v.ownerField) ∧ d.plain flag
  | hookOutcome key phase => d.plain key ∧ (phase = .after → d.part "prev")
  | passThrough => True
  | subscriptionAck owner flag => (∀ name ∈ owner, d.text name) ∧ (Term.stash flag).Obeys d

structure ResponsePlan.Obeys (plan : ResponsePlan) : Prop where
  description : d.text plan.description
  shape : plan.shape.Obeys d

end Plans

namespace Template

open Script

variable {d : Discipline} {config : Config}

attribute [local simp] Discipline.name_text Discipline.plain_text Discipline.quoted_text

/-! ### Where records are -/

theorem errorGuard_obeys : errorGuard.Obeys d := by
  have error : d.part "error" := d.part_other (by decide) (by decide)
  simp +decide [errorGuard, error]

@[simp] theorem resultBody_obeys : resultBody.Obeys d := by
  simp +decide [resultBody]

@[simp] theorem statusCode_obeys : statusCode.Obeys d := by
  simp +decide [statusCode]

@[simp] theorem statusOk_obeys : statusOk.Obeys d := by
  simp [statusOk]

@[simp] theorem rowsOf_obeys (statementIndex : Int) : (rowsOf statementIndex).Obeys d := by
  simp +decide [rowsOf]

theorem bindRecord_obeys (source : RecordSource) : (bindRecord source).Obeys d := by
  cases source with
  | result => simp +decide [bindRecord]
  | firstPageItem => simp +decide [bindRecord]
  | sqlRow i => simp +decide [bindRecord]
  | httpBody => simp +decide [bindRecord, Script.Obeys, serviceError]

theorem bindPage_obeys (source : ListSource) : (bindPage source).Obeys d := by
  have offset : d.plain "$nextOffset" :=
    d.plain_shown (by decide : IsOwn "nextOffset") (by decide) (by decide : Text.Fixed "")
      (by decide)
  have comment : d.text
      "A full page means there may be more rows: hand out the next offset" :=
    d.text_free (by decide)
  cases source with
  | pageItems => simp +decide [bindPage, putConnection]
  | sqlRows i => simp +decide [bindPage, putConnection, comment, offset]
  | httpBodyItems => simp +decide [bindPage, putConnection, serviceError]

/-! ### Decisions on records -/

theorem verifyIfAny_obeys {verification : Option OwnershipVerification}
    (owned : ∀ v ∈ verification, d.text v.ownerField) : (verifyIfAny verification).Obeys d := by
  cases verification with
  | none => trivial
  | some v =>
    have owner := owned v rfl
    have comment : d.text s!"Ownership verification against the fetched record's {v.ownerField}" :=
      d.text_ahead (by decide) owner
    cases mismatch : v.onMismatch <;>
      simp +decide [verifyIfAny, verify, comment, owner, mismatch, MismatchAction.action]

theorem decideItem_obeys (settings : config.Obeys d) {access : ItemAccess} {subject : Term}
    (obeys : access.Obeys d) (given : subject.Obeys d) :
    (decideItem config access subject).Obeys d := by
  cases access with
  | allowAll reason => simp +decide [decideItem]
  | denyAll reason => simp +decide [decideItem]
  | filter f =>
    obtain ⟨owned, flagged, grouped⟩ := obeys
    simp only [decideItem, itemFilter, obeys_append]
    refine ⟨⟨⟨by simp +decide, ?_⟩, ?_⟩, ?_⟩
    · cases gated : nonEmpty f.gateFlag with
      | none => trivial
      | some flag => simp +decide [of_nonEmpty flagged gated]
    · split
      · trivial
      · next filled =>
        obtain ⟨group, member⟩ := List.exists_mem_of_ne_nil _ (by simpa using filled)
        exact grantToGroups_obeys (d.name_fixed (by decide)) (d.reads_own (by decide))
          (grouped group member).1 (callerGroups_obeys settings) fun g among => (grouped g among).2
    · cases named : nonEmpty f.ownerField with
      | none => trivial
      | some owner => simp +decide [Cond.isCaller, given, of_nonEmpty owned named]

/-! ### Local times -/

theorem addLocalTimes_obeys {fields : List String} {name : String} (own : IsOwn name)
    (timed : ∀ field ∈ fields, d.text field) :
    (addLocalTimes fields (.var name)).Obeys d := by
  rw [addLocalTimes, obeys_concat, List.forall_mem_map]
  intro field member
  have time : d.plain (Naming.localTimeField field) :=
    d.plain_text (d.text_ends (timed field member) (by decide))
  have format : d.quoted localTimeFormat := d.quoted_text (d.text_free (by decide))
  simp +decide [own, timed field member, time, format]

theorem localTimeHeader_obeys (settings : config.Obeys d) {fields : List String} {header : String}
    (asked : localTimeHeader config fields = some header) : d.quoted header := by
  unfold localTimeHeader at asked
  split at asked
  · cases asked
  · exact of_nonEmpty settings.zone asked

theorem bindTimezone_obeys {header : String} (named : d.quoted header) :
    (bindTimezone header).Obeys d := by
  simp +decide [bindTimezone, named]

theorem zoneIsGiven_obeys : zoneIsGiven.Obeys d := by
  simp +decide [zoneIsGiven]

/-! ### Shapes -/

section Shapes

variable (settings : config.Obeys d)

include settings

theorem singleRecord_obeys {r : SingleRecord} (obeys : r.Obeys d) :
    (singleRecord config r).Obeys d := by
  simp only [singleRecord, obeys_append]
  refine ⟨⟨⟨⟨bindRecord_obeys r.source, verifyIfAny_obeys obeys.verification⟩, ?_⟩, ?_⟩,
    by simp [emitVisible]⟩
  · cases controlled : r.access with
    | none => trivial
    | some access =>
      have decided := decideItem_obeys settings (obeys.access access controlled) record_obeys
      simp +decide [decided]
  · cases asked : localTimeHeader config r.localTimeFields with
    | none => trivial
    | some header =>
      have named := localTimeHeader_obeys settings asked
      have added := addLocalTimes_obeys (by decide : IsOwn "record") obeys.times
      simp only [obeys_append, obeys_acts, obeys_when, List.forall_mem_singleton]
      exact ⟨bindTimezone_obeys named, ⟨visible_obeys, zoneIsGiven_obeys⟩, added⟩

theorem recordList_obeys {r : RecordList} (obeys : r.Obeys d) :
    (recordList config r).Obeys d := by
  have item : (Term.var "item").Obeys d := d.reads_own (by decide)
  have kept : (if r.access.isSome then Term.var "visibleItems" else .items).Obeys d := by
    split <;> simp +decide
  simp only [recordList, obeys_append]
  refine ⟨⟨⟨⟨by simp +decide, bindPage_obeys r.source⟩, ?_⟩, ?_⟩,
    by simp +decide [putConnection, kept]⟩
  · cases controlled : r.access with
    | none => trivial
    | some access =>
      have decided := decideItem_obeys settings (obeys.access access controlled) item
      simp +decide [decided]
  · cases asked : localTimeHeader config r.localTimeFields with
    | none => trivial
    | some header =>
      have named := localTimeHeader_obeys settings asked
      have added := addLocalTimes_obeys (by decide : IsOwn "entry") obeys.times
      simp only [obeys_append, obeys_acts, obeys_when, obeys_forEach, List.forall_mem_singleton]
      exact ⟨bindTimezone_obeys named, zoneIsGiven_obeys,
        ⟨d.name_fixed (by decide), d.reads_own (by decide)⟩, kept, added⟩

theorem handOut_obeys {shape : ResultShape} (obeys : shape.Obeys d) :
    (handOut config shape).Obeys d := by
  cases shape with
  | single r => exact singleRecord_obeys settings obeys
  | list r => exact recordList_obeys settings obeys
  | pendingAck key =>
    have keyed : (Term.stash key).Obeys d := obeys
    simp +decide [handOut, keyed]
  | confirmOwnership source verification flag =>
    simp only [handOut, obeys_append]
    refine ⟨⟨bindRecord_obeys source, verifyIfAny_obeys obeys.1⟩, ?_⟩
    simp [obeys.2]
  | hookOutcome key phase =>
    cases phase with
    | before => simp [handOut, obeys.1]
    | after => simp [handOut, obeys.1, previousResult_obeys (obeys.2 rfl)]
  | passThrough => simp [handOut]
  | subscriptionAck owner flag =>
    cases named : nonEmpty owner with
    | none => simp [handOut, named]
    | some name => simp [handOut, named, obeys.2, of_nonEmpty obeys.1 named]

theorem ofResponse_obeys {plan : ResponsePlan} (obeys : plan.Obeys d) :
    (ofResponse config plan).Obeys d := by
  simp only [ofResponse, obeys_append, obeys_acts, List.forall_mem_singleton]
  exact ⟨⟨obeys.description, errorGuard_obeys⟩, handOut_obeys settings obeys.shape⟩

end Shapes

end Template

end ApiLoom
