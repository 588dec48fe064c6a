import ApiLoom.Proofs.Disciplines

/-!
# Disciplined requests

The template of a request obeys a discipline where the texts of its plan do.
-/

namespace ApiLoom

open Template

/-! ### Plans -/

section Plans

variable (d : Discipline)

/-- The settings that are written into templates. -/
structure Config.Obeys (config : Config) : Prop where
  identifier : d.text config.identifierField
  updated : d.text config.updatedAtField
  version : d.text config.templateVersion
  claim : d.quoted config.groupsClaim
  zone : ∀ header ∈ config.timezoneHeader, d.quoted header

structure PageBounds.Obeys (p : PageBounds) : Prop where
  limit : d.expression p.limitExpression
  token : d.expression p.tokenExpression

structure UpdateItem.Obeys (u : UpdateItem) : Prop where
  key : d.text u.keyField
  keyExpression : d.expression u.keyExpression
  fields : ∀ name ∈ u.fields, d.text name
  stamp : d.text u.updatedAtField
  guard : ∀ owner ∈ u.ownerGuard, d.text owner
  input : d.expression u.inputExpression

/-- The names that an update writes behind a `#` may stand there. -/
def UpdateItem.ObeysMarked (u : UpdateItem) : Prop :=
  ∀ name ∈ u.updatedAtField :: u.fields,
    d.plain ("#" ++ name) ∧ d.plain ("#" ++ name ++ " = :" ++ name)

structure SqlVariable.Obeys (v : SqlVariable) : Prop where
  name : d.text v.name
  expression : d.expression v.expression
  hint : ∀ hint ∈ v.typeHint, d.text hint

structure SqlStatements.Obeys (q : SqlStatements) : Prop where
  statements : ∀ s ∈ q.statements, d.row s
  placeholders : ∀ v ∈ q.placeholders, v.Obeys d
  prelude : ∀ a ∈ q.prelude, d.name a.name ∧ d.expression a.expression
  page : ∀ p ∈ q.page, p.Obeys d
  guard : ∀ owner ∈ q.ownerGuard, d.text owner

structure HttpRequest.Obeys (r : HttpRequest) : Prop where
  method : d.plain r.method
  path : d.plain r.resourcePath
  body : ∀ e ∈ r.bodyExpression, d.expression e
  query : ∀ q ∈ r.query, d.name q.1 ∧ d.plain q.2

/-- All texts that the operation writes into a template are allowed, the names behind a `#`
apart. -/
def DataOperation.Obeys : DataOperation → Prop
  | getItem key expression => d.text key ∧ d.expression expression
  | scanItems page => page.Obeys d
  | putItem key timestamps input =>
    d.text key ∧ (∀ t ∈ timestamps, d.text t) ∧ d.expression input
  | updateItem update => update.Obeys d
  | deleteItem key expression guard =>
    d.text key ∧ d.expression expression ∧ ∀ owner ∈ guard, d.text owner
  | queryIndex index partition value page =>
    d.plain index ∧ d.text partition ∧ d.expression value ∧ ∀ p ∈ page, p.Obeys d
  | sql statements => statements.Obeys d
  | http request => request.Obeys d
  | enqueue operation model url request =>
    d.quoted operation ∧ d.quoted model ∧ (Term.stash url).Obeys d ∧ d.plain request
  | invokeHook hook function model phase =>
    d.row hook ∧ d.row function ∧ d.row model ∧ (phase = .after → d.part "prev")
  | noOp payload => ∀ e ∈ payload, d.expression e

/-- What an update writes behind a `#` may stand there. -/
def DataOperation.ObeysMarked : DataOperation → Prop
  | updateItem update => update.ObeysMarked d
  | _ => True

structure RuleCheck.Obeys (c : RuleCheck) : Prop where
  model : d.text c.modelName
  groups : ∀ clause ∈ c.groupClauses, ∀ group ∈ clause.groups, d.text group
  owner : ∀ owner ∈ c.ownerClause, d.text owner.ownerField
  stamp : ∀ owner ∈ c.stamp, d.text owner

def AuthCheck.Obeys : AuthCheck → Prop
  | allowAll reason | denyAll reason => d.text reason
  | rules check => check.Obeys d

structure RequestPlan.Obeys (plan : RequestPlan) : Prop where
  description : d.text plan.description
  operation : plan.operation.Obeys d
  auth : ∀ check ∈ plan.auth, check.Obeys d
  gate : ∀ gate ∈ plan.gate, (Term.stash gate).Obeys d

end Plans

namespace Template

open Script

open Text (Fixed)

variable {d : Discipline} {config : Config}

attribute [local simp] Discipline.name_text Discipline.plain_text Discipline.quoted_text

/-! ### Pages -/

theorem boundPage_obeys {page : PageBounds} (obeys : page.Obeys d) : (boundPage page).Obeys d := by
  simp +decide [boundPage, obeys.limit]

theorem pageToken_obeys {page : PageBounds} (obeys : page.Obeys d) :
    (pageToken page).ObeysInBody d := by
  simp +decide [pageToken, obeys.token]

theorem boundOffset_obeys {page : PageBounds} (obeys : page.Obeys d) :
    (boundOffset page).Obeys d := by
  simp +decide [boundOffset, obeys.token]

/-! ### Conditional writes -/

theorem conditionExpression_obeys :
    d.plain "$conditionExpression" ∧ d.plain "$conditionExpression AND #owner = :owner" := by
  have own : IsOwn "conditionExpression" := by decide
  exact ⟨d.plain_shown own (by decide) (by decide : Fixed "") (by decide),
    d.plain_shown own (by decide) (by decide : Fixed " AND #owner = :owner") (by decide)⟩

theorem writeCondition_obeys {key : String} {guard : Option String} (keyed : d.text key)
    (guarded : ∀ owner ∈ guard, d.text owner) : (writeCondition key guard).Obeys d := by
  have comment : d.text
      "Second read of the owner: the write only lands if the stored owner is still the caller" :=
    d.text_free (by decide)
  unfold writeCondition
  cases named : nonEmpty guard with
  | none => simp +decide [keyed]
  | some owner =>
    simp +decide [keyed, comment, of_nonEmpty guarded named, conditionExpression_obeys.2]

theorem conditionMember_obeys : MembersObey d [conditionMember] := by
  simp +decide [conditionMember, conditionExpression_obeys.1]

/-! ### The document store -/

section Document

variable (settings : config.Obeys d)

include settings

theorem getItem_obeys {key expression : String} (keyed : d.text key)
    (given : d.expression expression) : (getItem config key expression).Obeys d := by
  simp +decide [getItem, versioned, keyMember, settings.version, keyed, given]

theorem scanItems_obeys {page : PageBounds} (obeys : page.Obeys d) :
    (scanItems config page).Obeys d := by
  simp +decide [scanItems, versioned, boundPage_obeys obeys, pageToken_obeys obeys,
    settings.version]

theorem putItem_obeys {key input : String} {timestamps : List String} (keyed : d.text key)
    (stamped : ∀ t ∈ timestamps, d.text t) (given : d.expression input) :
    (putItem config key timestamps input).Obeys d := by
  have times : ∀ t ∈ timestamps, d.plain t := fun t member => d.plain_text (stamped t member)
  unfold putItem
  split <;> simp +decide [versioned, keyMember, namesEntry, settings.version, keyed, given]
  exact times

theorem updateItem_obeys {u : UpdateItem} (obeys : u.Obeys d) (marked : u.ObeysMarked d) :
    (updateItem config u).Obeys d := by
  have value {name : String} (named : d.text name) : d.plain (":" ++ name) :=
    d.plain_text (d.text_ahead (by decide) named)
  obtain ⟨stamped, fields⟩ := List.forall_mem_cons.mp marked
  have updates : ∀ part ∈ u.fields.map updateField, part.Obeys d := by
    refine List.forall_mem_map.mpr fun name member => ?_
    have named := obeys.fields name member
    have behind := fields name member
    simp +decide [updateField, named, value named, behind.1, behind.2]
  simp +decide [updateItem, versioned, keyMember, settings.version, obeys.key,
    obeys.keyExpression, obeys.stamp, obeys.input, value obeys.stamp, stamped.1, stamped.2,
    writeCondition_obeys obeys.key obeys.guard, conditionMember_obeys]
  simpa using updates

theorem deleteItem_obeys {key expression : String} {guard : Option String} (keyed : d.text key)
    (given : d.expression expression) (guarded : ∀ owner ∈ guard, d.text owner) :
    (deleteItem config key expression guard).Obeys d := by
  simp +decide [deleteItem, versioned, keyMember, settings.version, keyed, given,
    writeCondition_obeys keyed guarded, conditionMember_obeys]

theorem queryIndex_obeys {index partition value : String} {page : Option PageBounds}
    (named : d.plain index) (keyed : d.text partition) (given : d.expression value)
    (paged : ∀ p ∈ page, p.Obeys d) :
    (queryIndex config index partition value page).Obeys d := by
  cases page with
  | none => simp +decide [queryIndex, versioned, namesEntry, settings.version, named, keyed, given]
  | some p =>
    simp +decide [queryIndex, versioned, namesEntry, settings.version, named, keyed, given,
      boundPage_obeys (paged p rfl), pageToken_obeys (paged p rfl)]

end Document

/-! ### Other stores -/

theorem guardRows_obeys {owner : String} (owned : d.text owner) : (guardRows owner).Obeys d := by
  have comment : d.text
      "Second read of the owner: the statement only matches the caller's own row" :=
    d.text_free (by decide)
  have condition : d.plain (" AND " ++ owner ++ " = :owner") :=
    d.plain_text (d.text_ends (d.text_ahead (by decide) owned) (by decide))
  simp +decide [guardRows, comment, condition]

theorem typeHints_obey {placeholders : List SqlVariable} (obey : ∀ v ∈ placeholders, v.Obeys d) :
    MembersObey d (typeHints placeholders) := by
  induction placeholders with
  | nil => trivial
  | cons v rest ih =>
    obtain ⟨first, others⟩ := List.forall_mem_cons.mp obey
    rw [typeHints, List.filterMap_cons]
    cases hinted : nonEmpty v.typeHint with
    | none => exact ih others
    | some hint =>
      exact ⟨d.name_text first.name, d.plain_text (of_nonEmpty first.hint hinted), ih others⟩

theorem sql_obeys (settings : config.Obeys d) {q : SqlStatements} (obeys : q.Obeys d) :
    (sql config q).Obeys d := by
  have bound : MembersObey d (q.placeholders.map fun v =>
      .always v.name (.value (Term.verbatim v.expression).asJson)) :=
    membersObey_map.mpr fun v member => ⟨d.name_text (obeys.placeholders v member).name, by
      simpa using (obeys.placeholders v member).expression⟩
  unfold sql
  refine obeys_append.mpr ⟨obeys_append.mpr ⟨obeys_append.mpr ⟨?_, ?_⟩, ?_⟩, ?_⟩
  · simpa using obeys.prelude
  · cases paged : q.page with
    | none => trivial
    | some p =>
      have own := obeys.page p paged
      exact obeys_append.mpr ⟨boundPage_obeys own, boundOffset_obeys own⟩
  · cases guarded : nonEmpty q.ownerGuard with
    | none => trivial
    | some owner => exact guardRows_obeys (of_nonEmpty obeys.guard guarded)
  · refine obeys_acts.mpr (List.forall_mem_singleton.mpr ⟨⟨d.name_fixed (by decide),
      d.plain_text settings.version, membersObey_append.mpr ⟨⟨d.name_fixed (by decide),
        rows_obey.mpr obeys.statements, d.name_fixed (by decide),
          membersObey_append.mpr ⟨bound, ?_⟩, trivial⟩, ?_⟩⟩, rfl⟩)
    · cases nonEmpty q.ownerGuard <;> simp +decide
    · split
      · trivial
      · exact ⟨d.name_fixed (by decide), typeHints_obey obeys.placeholders, trivial⟩

theorem http_obeys (settings : config.Obeys d) {r : HttpRequest} (obeys : r.Obeys d) :
    (http config r).Obeys d := by
  have queried : MembersObey d (if r.query.isEmpty then []
      else [.always "query" (.object (r.query.map fun q => .always q.1 (.plain q.2)))]) := by
    split
    · trivial
    · exact ⟨d.name_fixed (by decide), membersObey_map.mpr obeys.query, trivial⟩
  unfold http
  simp +decide [versioned, settings.version, obeys.method, obeys.path]
  refine ⟨by simpa using queried, ?_⟩
  cases given : nonEmpty r.bodyExpression with
  | none => trivial
  | some e => simp +decide [of_nonEmpty obeys.body given]

/-- The request for an operation obeys where its texts do, and the names that it writes behind a
`#` may stand there. -/
theorem perform_obeys (settings : config.Obeys d) {operation : DataOperation}
    (obeys : operation.Obeys d) (marked : operation.ObeysMarked d) :
    (perform config operation).Obeys d := by
  cases operation with
  | getItem key expression => exact getItem_obeys settings obeys.1 obeys.2
  | scanItems page => exact scanItems_obeys settings obeys
  | putItem key timestamps input => exact putItem_obeys settings obeys.1 obeys.2.1 obeys.2.2
  | updateItem update => exact updateItem_obeys settings obeys marked
  | deleteItem key expression guard =>
    exact deleteItem_obeys settings obeys.1 obeys.2.1 obeys.2.2
  | queryIndex index partition value page =>
    exact queryIndex_obeys settings obeys.1 obeys.2.1 obeys.2.2.1 obeys.2.2.2
  | sql statements => exact sql_obeys settings obeys
  | http request => exact http_obeys settings obeys
  | enqueue operation model url request =>
    obtain ⟨asked, owned, queue, kept⟩ := obeys
    simp +decide [perform, enqueue, versioned, settings.version, asked, owned, queue, kept]
  | invokeHook hook function model phase =>
    obtain ⟨hooked, named, owned, handed⟩ := obeys
    have source : d.part "source" := d.part_other (by decide) (by decide)
    cases phase with
    | before =>
      simp +decide [perform, invokeHook, versioned, hookContext, settings.version, hooked, named,
        owned, source]
    | after =>
      simp +decide [perform, invokeHook, versioned, hookContext, settings.version, hooked, named,
        owned, previousResult_obeys (handed rfl)]
  | noOp payload =>
    cases given : nonEmpty payload with
    | none => simp +decide [perform, noOp, versioned, settings.version, given]
    | some e =>
      simp +decide [perform, noOp, versioned, settings.version, given, of_nonEmpty obeys given]

/-! ### Decisions of a request -/

theorem callerGroups_obeys (settings : config.Obeys d) : (callerGroups config).Obeys d := by
  simp +decide [callerGroups, settings.claim]

theorem grantToGroups_obeys {name : String} {items : Term} {groups : List String}
    (named : d.name name) (seen : d.reads name) (turn : d.reads "group") (given : items.Obeys d)
    (allowed : ∀ g ∈ groups, d.quoted g) : (grantToGroups name items groups).Obeys d := by
  simp +decide [grantToGroups, named, seen, turn, given]
  exact allowed

theorem debugNote_obeys {key message : String} (keyed : d.plain key) (noted : d.quoted message) :
    (debugNote config key message).Obeys d := by
  unfold debugNote
  split <;> simp +decide [keyed, noted]

section Decisions

variable (settings : config.Obeys d) (isOpen : d.IsOpen)

include isOpen in
theorem groupClause_obeys {clause : GroupClause} (groups : ∀ g ∈ clause.groups, d.text g) :
    (groupClause clause).Obeys d := by
  have number : d.text (toString (clause.ruleIndex + 1)) := d.text_free (Text.int_free _)
  have names : d.text (String.intercalate ", " clause.groups) :=
    d.text_intercalate (by decide) groups
  have comment : d.text ("Rule " ++ toString (clause.ruleIndex + 1) ++ ": groups " ++
      String.intercalate ", " clause.groups) :=
    d.text_join (d.text_ahead (by decide) number) (by decide) names
  refine obeys_append.mpr ⟨obeys_acts.mpr (List.forall_mem_singleton.mpr comment), ?_⟩
  exact grantToGroups_obeys (d.name_fixed (by decide)) (isOpen.decision _ (by decide))
    (isOpen.decision _ (by decide)) (isOpen.decision _ (by decide))
    fun g member => d.quoted_text (groups g member)

include isOpen in
theorem ownerClause_obeys {owner : OwnerClause} (owned : d.text owner.ownerField) :
    (ownerClause owner).Obeys d := by
  have comment : d.text (ownerClauseComment owner) := by
    unfold ownerClauseComment
    cases owner.mode with
    | stamp =>
      show d.text "Owner rule: the caller becomes the owner of the new record"
      exact d.text_free (by decide)
    | deferToFetch => exact d.text_ahead (by decide) owned
    | filterItems =>
      exact d.text_ends (d.text_ahead (by decide) owned) (by decide)
  have authorized : Term.isAuthorized.Obeys d := isOpen.decision _ (by decide)
  have user : d.reads "userId" := isOpen.decision _ (by decide)
  cases mode : owner.mode <;>
    simp +decide [ownerClause, comment, mode, OwnerMode.flag, authorized, user]

include settings isOpen in
theorem deliberation_obeys {check : RuleCheck} (obeys : check.Obeys d) :
    (deliberation config check).Obeys d := by
  have word : d.text check.operation.word := d.text_free (by cases check.operation <;> decide)
  have comment : d.text s!"Authorization check for {check.operation.word} on {check.modelName}" :=
    d.text_join (d.text_ahead (by decide) word) (by decide) obeys.model
  have clauses : ∀ part ∈ check.groupClauses.map groupClause, part.Obeys d :=
    List.forall_mem_map.mpr fun clause member =>
      groupClause_obeys isOpen (obeys.groups clause member)
  have owner : (check.ownerClause.elim done ownerClause).Obeys d := by
    cases ruled : check.ownerClause with
    | none => trivial
    | some owner => exact ownerClause_obeys isOpen (obeys.owner owner ruled)
  simp only [deliberation, obeys_append, obeys_concat]
  exact ⟨⟨by simp +decide [comment, callerGroups_obeys settings], clauses⟩, owner⟩

include isOpen in
theorem denial_obeys {check : RuleCheck} (obeys : check.Obeys d) :
    (denial config check).Obeys d := by
  have authorized : Term.isAuthorized.Obeys d := isOpen.decision _ (by decide)
  have word : d.text check.operation.word := d.text_free (by cases check.operation <;> decide)
  have named : d.text (check.operation.word ++ " on " ++ check.modelName) :=
    d.text_join word (by decide) obeys.model
  have message : d.quoted ("User $userId not authorized for " ++
      (check.operation.word ++ " on " ++ check.modelName)) := d.quoted_behind (by decide) named
  have note : (denialNote config check).Obeys d := by
    refine debugNote_obeys (d.plain_fixed (by decide)) ?_
    simpa [toString, String.append_assoc] using message
  simp +decide [denial, note, authorized]

include settings isOpen in
/-- The decision about the caller obeys, if the call that stamps an owner does. -/
theorem authorize_obeys {check : AuthCheck} (obeys : check.Obeys d)
    (stamps : ∀ c owner, check = .rules c → c.stamp = some owner → (stampOwner owner).Obeys d) :
    (authorize config check).Obeys d := by
  cases check with
  | allowAll reason => exact obeys_acts.mpr (List.forall_mem_singleton.mpr obeys)
  | denyAll reason =>
    have comment : d.text s!"Access denied: {reason}" := d.text_ahead (by decide) obeys
    exact obeys_acts.mpr
      (List.forall_mem_cons.mpr ⟨comment, List.forall_mem_singleton.mpr trivial⟩)
  | rules c =>
    have stamped : (c.stamp.elim done stampOwner).Obeys d := by
      cases stamp : c.stamp with
      | none => trivial
      | some owner => exact stamps c owner rfl stamp
    rw [authorize, ruleCheck_parts]
    exact obeys_append.mpr ⟨obeys_append.mpr
      ⟨deliberation_obeys settings isOpen obeys, denial_obeys isOpen obeys⟩, stamped⟩

end Decisions

/-! ### Whole requests -/

/-- What stands before the operation in a request. -/
def requestLead (config : Config) (plan : RequestPlan) : Script :=
  acts [.comment plan.description] ++
    (match plan.auth with | some check => authorize config check | none => done) ++
    (match nonEmpty plan.gate with
      | some gate => when (.fails (.stash gate)) (acts [.stop])
      | none => done)

theorem ofRequest_eq (config : Config) (plan : RequestPlan) :
    ofRequest config plan = requestLead config plan ++ perform config plan.operation := rfl

theorem requestLead_obeys {plan : RequestPlan} (obeys : plan.Obeys d)
    (decided : ∀ check ∈ plan.auth, (authorize config check).Obeys d) :
    (requestLead config plan).Obeys d := by
  simp only [requestLead, obeys_append]
  refine ⟨⟨obeys_acts.mpr (List.forall_mem_singleton.mpr obeys.description), ?_⟩, ?_⟩
  · cases asked : plan.auth with
    | none => trivial
    | some check => exact decided check asked
  · cases gated : nonEmpty plan.gate with
    | none => trivial
    | some gate =>
      have seen := of_nonEmpty obeys.gate gated
      exact obeys_when.mpr ⟨seen, by simp⟩

theorem ofRequest_obeys (settings : config.Obeys d) {plan : RequestPlan} (obeys : plan.Obeys d)
    (marked : plan.operation.ObeysMarked d)
    (decided : ∀ check ∈ plan.auth, (authorize config check).Obeys d) :
    (ofRequest config plan).Obeys d := by
  rw [ofRequest_eq, obeys_append]
  exact ⟨requestLead_obeys obeys decided, perform_obeys settings obeys.operation marked⟩

end Template

end ApiLoom
