import ApiLoom.Proofs.InertScripts
import ApiLoom.Proofs.Reviewed

/-!
# Nesting

In the templates of a reviewed set every block that is opened is closed, and nothing else is,
but for updates of documents.  These write the names of fields behind a `#`, and where a field
is called `end` its name closes a block.
-/

namespace ApiLoom

open Text (Bare Inert AllBare Directive Neutral Nests IsNested mark)

/-! ### Names that are written behind a `#` -/

/-- The directives that the names of an update become: of the time of the update, which stands
in no block, and of each field in the block that asks for it. -/
def UpdateItem.marks (u : UpdateItem) : List Directive :=
  mark u.updatedAtField ++ mark u.updatedAtField ++
    u.fields.flatMap fun name => .openIf :: (mark name ++ mark name ++ [.close])

/-- Nothing that the operation writes behind a `#` opens or closes a block. -/
def DataOperation.Nests : DataOperation → Prop
  | updateItem u => Text.Nests u.marks
  | _ => True

/-- Where the time of the update stands for nothing, an update of identifiers nests unless one of
them closes its block. -/
theorem UpdateItem.nests_marks {u : UpdateItem} (quiet : mark u.updatedAtField = [])
    (identifiers : ∀ name ∈ u.fields, Text.isIdentifier name = true) :
    Nests u.marks ↔ ∀ name ∈ u.fields, name ≠ "end" ∧ name ≠ "end\n" := by
  rw [marks, quiet, List.append_nil, List.nil_append]
  generalize u.fields = fields at identifiers
  induction fields with
  | nil => simp [Nests, Text.nesting]
  | cons name rest ih =>
    have later := ih fun other member => identifiers other (List.mem_cons_of_mem _ member)
    have own := Text.mark_of_isIdentifier (identifiers name List.mem_cons_self)
    rw [List.flatMap_cons, List.forall_mem_cons]
    split at own
    · next called =>
      have closed : ¬ Nests (.openIf :: (mark name ++ mark name ++ [.close]) ++
          rest.flatMap fun name => .openIf :: (mark name ++ mark name ++ [.close])) := by
        rw [own]
        exact fun nests => by cases nests
      refine iff_of_false closed fun apart => ?_
      rcases called with same | same
      · exact apart.1.1 same
      · exact apart.1.2 same
    · next called =>
      rw [not_or] at called
      have neutral : Neutral (.openIf :: (mark name ++ mark name ++ [.close])) := by
        rcases own with none | otherwise
        · rw [none]
          exact .choice .nil
        · rw [otherwise]
          intro blocks
          rfl
      rw [Text.nests_append_left neutral, later]
      exact (and_iff_right called).symm

namespace Template

open Script

variable {config : Config}

/-- A line with a name behind a `#`, and a separator that ends it. -/
theorem directives_name {before name sep after : String} (inert : Inert before) (bare : Bare name)
    (ends : sep.toList.head?.any Text.isStop = true) (harmless : Inert (sep ++ after)) :
    Text.directives (before ++ "#" ++ name ++ (sep ++ after)) = mark name := by
  obtain ⟨c, first, stop⟩ := (Option.any_eq_true _ _).mp ends
  obtain ⟨others, spelled⟩ := List.head?_eq_some_iff.mp first
  have behind : (sep ++ after).toList = c :: (others ++ after.toList) := by
    rw [String.toList_append, spelled, List.cons_append]
  rw [Text.directives, String.append_assoc, String.append_assoc, String.toList_append,
    String.toList_append, String.toList_append, behind]
  exact Text.directives_mark inert bare stop (behind ▸ harmless)

theorem acts_directives (actions : List Action) :
    (acts actions).directives = actions.flatMap fun a => directivesOf a.lines := by
  induction actions with
  | nil => rfl
  | cons a rest ih =>
    rw [List.flatMap_cons, ← ih]
    exact directivesOf_append a.lines (acts rest).lines

theorem updateField_directives {name : String} (bare : Bare name) :
    (updateField name).directives = .openIf :: (mark name ++ mark name ++ [.close]) := by
  have plain : Discipline.inert.plain name ∧ Discipline.inert.name name ∧
      Discipline.inert.plain (":" ++ name) :=
    ⟨bare.inert, bare.inert, Text.inert_append (by decide) bare.inert⟩
  have asked : (Cond.holds ((Term.var "input").call "containsKey" [.plain name])).Obeys .inert := by
    simp +decide [plain]
  have expression : Text.directives ("$util.qr(" ++ ((Term.var "setExpressions").call "add"
      [.plain ("#" ++ name ++ " = :" ++ name)]).text ++ ")") = mark name := by
    have read := directives_name (by decide : Inert "$util.qr($setExpressions.add(\"") bare
      (by decide : " = :".toList.head?.any Text.isStop = true)
      (Text.inert_append (by decide) (Text.inert_append bare.inert (by decide : Inert "\"))")))
    rw [← read]
    refine congrArg Text.directives (String.toList_inj.mp ?_)
    simp only [Term.text, Term.texts, String.intercalate_singleton, String.toList_append,
      List.append_assoc]
    rfl
  have column : Text.directives ("$util.qr(" ++ ((Term.var "updateNames").call "put"
      [.plain ("#" ++ name), .plain name]).text ++ ")") = mark name := by
    have read := directives_name (by decide : Inert "$util.qr($updateNames.put(\"") bare
      (by decide : "\"".toList.head?.any Text.isStop = true)
      (Text.inert_append (by decide) (enclosed (by decide : Inert ", \"") bare.inert
        (by decide : Inert "\"))")))
    rw [← read]
    refine congrArg Text.directives (String.toList_inj.mp ?_)
    simp only [Term.text, Term.texts, String.intercalate_cons_cons, String.intercalate_singleton,
      String.toList_append, List.append_assoc]
    rfl
  have value : Inert ("$util.qr(" ++ ((Term.var "updateValues").call "put"
      [.plain (":" ++ name), ((Term.var "input").member name).typed]).text ++ ")") :=
    enclosed (by decide) (Term.text_inert _ (by simp +decide [plain])) (by decide)
  rw [updateField, when, choose_directives asked, acts_directives]
  simp only [List.flatMap_cons, List.flatMap_nil, Action.lines, directivesOf_cons,
    directivesOf_nil, expression, column, value.directives, List.append_nil]
  simp [isDone, directives, lines]

/-- The names of the time of the update. -/
theorem updateStamp_directives {stamp : String} (bare : Bare stamp) :
    Text.directives ("#set($" ++ "setExpressions" ++ " = " ++
        (Term.list [.plain ("#" ++ stamp ++ " = :" ++ stamp)]).text ++ ")") = mark stamp ∧
      Text.directives ("#set($" ++ "updateNames" ++ " = " ++
        (Term.entry (.plain ("#" ++ stamp)) (.plain stamp)).text ++ ")") = mark stamp := by
  have expression := directives_name (by decide : Inert "#set($setExpressions = [\"") bare
    (by decide : " = :".toList.head?.any Text.isStop = true)
    (Text.inert_append (by decide) (Text.inert_append bare.inert (by decide : Inert "\"])")))
  have column := directives_name (by decide : Inert "#set($updateNames = \x7b \"") bare
    (by decide : "\"".toList.head?.any Text.isStop = true)
    (Text.inert_append (by decide) (enclosed (by decide : Inert ": \"") bare.inert
      (by decide : Inert "\" \x7d)")))
  constructor
  · rw [← expression]
    refine congrArg Text.directives (String.toList_inj.mp ?_)
    simp only [Term.text, Term.texts, String.intercalate_singleton, String.toList_append,
      List.append_assoc]
    rfl
  · rw [← column]
    refine congrArg Text.directives (String.toList_inj.mp ?_)
    simp only [Term.text, String.toList_append, List.append_assoc]
    rfl

theorem concat_directives (parts : List Script) :
    (concat parts).directives = parts.flatMap directives := by
  induction parts with
  | nil => rfl
  | cons p rest ih => rw [concat, directives_append, ih, List.flatMap_cons]

/-- The directives of an update are those of its names, and others that nest. -/
theorem updateItem_directives (settings : config.Obeys .inert) {u : UpdateItem}
    (obeys : u.Obeys .inert) :
    ∃ rest, (updateItem config u).directives = u.marks ++ rest ∧ Neutral rest := by
  have key : Discipline.inert.name u.keyField := Bare.inert obeys.key
  have version : Discipline.inert.plain config.templateVersion := Bare.inert settings.version
  have input : Inert ("#set($" ++ "input" ++ " = " ++ (Term.verbatim u.inputExpression).text ++
      ")") := enclosed (by decide) obeys.input (by decide)
  have values : Inert ("#set($" ++ "updateValues" ++ " = " ++
      (Term.entry (.plain (":" ++ u.updatedAtField)) Term.now.typed).text ++ ")") := by
    have stamp : Discipline.inert.plain (":" ++ u.updatedAtField) :=
      Text.inert_append (by decide) (Bare.inert obeys.stamp)
    exact enclosed (by decide) (Term.text_inert _ (by simp [stamp])) (by decide)
  obtain ⟨expression, column⟩ := updateStamp_directives obeys.stamp
  have each : (concat (u.fields.map updateField)).directives =
      u.fields.flatMap fun name => .openIf :: (mark name ++ mark name ++ [.close]) := by
    rw [concat_directives, List.flatMap_map]
    exact List.flatMap_congr fun name member => updateField_directives (obeys.fields name member)
  refine ⟨_, ?_, neutral (s := writeCondition u.keyField u.ownerGuard ++ acts [.send (versioned
    config [
      .always "operation" (.plain "UpdateItem"),
      keyMember u.keyField (.verbatim u.keyExpression),
      .always "update" (.object [
        .always "expression" (.verbatim setClause),
        .always "expressionNames" (.value (Term.var "updateNames").asJson),
        .always "expressionValues" (.value (Term.var "updateValues").asJson)]),
      conditionMember])]) ?_⟩
  · simp only [updateItem, directives_append, acts_directives, each, List.flatMap_cons,
      List.flatMap_nil, Action.lines, directivesOf_cons, directivesOf_nil, expression, column,
      input.directives, values.directives, List.append_nil, List.nil_append, UpdateItem.marks,
      List.append_assoc]
  · refine obeys_append.mpr ⟨writeCondition_obeys obeys.key obeys.guard, ?_⟩
    simp +decide [versioned, keyMember, version, key, obeys.keyExpression, conditionMember_obeys]

theorem authorize_inert (settings : config.Obeys .inert) {check : AuthCheck}
    (obeys : check.Obeys .inert) : (authorize config check).Obeys .inert := by
  refine authorize_obeys settings inert_isOpen obeys ?_
  rintro c owner rfl stamped
  have owned : Bare owner := RuleCheck.Obeys.stamp obeys owner stamped
  have comment : Discipline.inert.text s!"Stamp the caller as {owner} of the new record" :=
    Discipline.inert.text_ends (Discipline.inert.text_ahead (by decide) owned) (by decide)
  have receiver : Inert (Term.arguments.member "input").text := by decide
  have user : Inert "userId" := by decide
  refine obeys_acts.mpr (List.forall_mem_cons.mpr ⟨comment, List.forall_mem_singleton.mpr ?_⟩)
  exact ⟨receiver, (by decide : Inert "put"), owned.inert, user, trivial⟩

/-- A request nests exactly where what its operation writes behind a `#` does. -/
theorem ofRequest_nests (settings : config.Obeys .inert) {plan : RequestPlan}
    (obeys : plan.Obeys .inert) :
    IsNested (ofRequest config plan).text ↔ plan.operation.Nests := by
  have filled : (ofRequest config plan).lines ≠ [] := by
    rw [ofRequest_eq, lines_append]
    exact List.append_ne_nil_of_left_ne_nil (by simp [requestLead, acts, lines, Action.lines]) _
  have lead := neutral (requestLead_obeys obeys fun check asked =>
    authorize_inert settings (obeys.auth check asked))
  rw [IsNested, text_directives filled, ofRequest_eq, directives_append,
    Text.nests_append_left lead]
  have operation := obeys.operation
  cases update : plan.operation with
  | updateItem u =>
    rw [update] at operation
    obtain ⟨rest, read, after⟩ := updateItem_directives settings operation
    rw [perform, read, Text.nests_append_right after]
    rfl
  | _ =>
    have silent := perform_obeys settings operation (by rw [update]; trivial)
    rw [update] at silent
    exact iff_of_true (neutral silent).nests trivial

theorem ofResponse_nests (settings : config.Obeys .inert) {plan : ResponsePlan}
    (obeys : plan.Obeys .inert) : IsNested (ofResponse config plan).text := by
  have filled : (ofResponse config plan).lines ≠ [] := by
    simp [ofResponse, acts, lines, Action.lines]
  rw [IsNested, text_directives filled]
  exact (neutral (ofResponse_obeys settings obeys)).nests

end Template

/-! ### Reviewed sets -/

/-- The settings that are written into templates beside the names of a model. -/
def Config.templateTexts (config : Config) : List String :=
  config.updatedAtField :: config.groupsClaim :: config.templateVersion ::
    config.queueUrlStashKey :: config.timezoneHeader.toList

theorem bare_of_isFunctionReference {s : String} (safe : Text.isFunctionReference s = true) :
    Bare s := by
  intro member
  unfold Text.isFunctionReference Text.hasForm at safe
  split at safe
  · cases safe
  · next first rest form =>
    rcases Text.mem_withoutLastFeed member with listed | feed
    · rw [Bool.and_eq_true, List.all_eq_true] at safe
      rw [form] at listed
      have sign : Text.isReferenceChar '#' = true := by
        rcases List.mem_cons.mp listed with rfl | later
        · exact safe.1
        · exact safe.2 _ later
      exact absurd sign (by decide)
    · exact absurd feed (by decide)

theorem Compilation.Generated.exists_model {config : Config} {models : List Model} {e : Exchange}
    (generated : Generated config models e) : ∃ m, m ∈ models := by
  cases generated with
  | root member _ | stage member _ _ | traversal member _ _ | side member _ => exact ⟨_, member⟩
  | shared listed =>
    unfold sharedResolvers at listed
    split at listed
    · next limited =>
      obtain ⟨m, member, _⟩ := List.any_eq_true.mp limited
      exact ⟨m, member⟩
    · cases listed

namespace Review.Passes

variable {config : Config} {models : List Model} {seeds : SeedData}

/-- The functions that hooks name are references, which have no `#`. -/
theorem hooks_bare (passes : Passes config models seeds) {m : Model} (member : m ∈ models) :
    ∀ phase operation, ∀ function ∈ m.hooks.hookFor phase operation, Bare function := by
  intro phase operation function named
  by_cases empty : function = ""
  · subst empty
    decide
  · exact bare_of_isFunctionReference (passes.hook_reference member named empty)

theorem foreignKey_bare (passes : Passes config models seeds) (decoded : ∀ m ∈ models, m.IsDecoded)
    {m : Model} (member : m ∈ models) {link : String × Relationship}
    (related : link ∈ m.relationships) : Bare (foreignKeyOf m link.2) := by
  obtain ⟨owner, among, has⟩ := passes.key_declared member related
  exact ((decoded owner among).declared_isName has).notMem rfl

/-- No exchange of a reviewed set writes a `#` that starts a directive, where there is none in the
group names and the settings. -/
theorem exchange_obeys (passes : Passes config models seeds) (decoded : ∀ m ∈ models, m.IsDecoded)
    (groups : ∀ m ∈ models, ∀ access ∈ m.accessControl, ∀ rule ∈ access.rules, AllBare rule.groups)
    (settings : AllBare config.templateTexts) {e : Exchange}
    (generated : Compilation.Generated config models e) :
    config.Obeys .inert ∧ e.Obeys .inert := by
  simp only [Config.templateTexts, Text.allBare_cons, Text.allBare_toList] at settings
  obtain ⟨updated, claim, version, queue, zone⟩ := settings
  obtain ⟨m, member⟩ := generated.exists_model
  have identifier : Bare config.identifierField :=
    ((decoded m member).declared_isName (passes.identifier_declared member)).notMem rfl
  have plain : config.Obeys .inert := ⟨identifier, updated, version, claim, zone⟩
  refine ⟨plain, generated.obeys Template.inert_isOpen plain queue decoded (fun m member => ?_)
    fun m member link related => passes.foreignKey_bare decoded member related⟩
  exact ⟨groups m member, passes.hooks_bare member⟩

end Review.Passes

/-- In a reviewed set whose group names and settings have no `#`, every response nests, and so does
every request but the update of a document that writes the name of a directive behind a `#`:
where the time of the update stands for none, a field called `end` does it and nothing else.
There are no templates where generation breaks off. -/
theorem templates_nest {config : Config} {models : List Model} {seeds : Review.SeedData}
    (decoded : ∀ m ∈ models, m.IsDecoded) (passes : Review.Passes config models seeds)
    (groups : ∀ m ∈ models, ∀ access ∈ m.accessControl, ∀ rule ∈ access.rules, AllBare rule.groups)
    (settings : AllBare config.templateTexts) :
    Compilation.BreaksOff config models ∨
      ∃ c, Compilation.build config models = .ok c ∧ ∀ e ∈ c.exchanges,
      IsNested (e.2.responseText config) ∧
      (IsNested (e.2.requestText config) ↔ e.2.request.operation.Nests) ∧
      (mark config.updatedAtField = [] → (e.2.request.operation.Nests ↔
        ∀ u, e.2.request.operation = .updateItem u →
          ∀ name ∈ u.fields, name ≠ "end" ∧ name ≠ "end\n")) := by
  refine passes.builds.imp id fun ⟨c, built⟩ => ?_
  refine ⟨c, built, fun e listed => ?_⟩
  have generated := Compilation.generated built e listed
  obtain ⟨plain, request, response⟩ := passes.exchange_obeys decoded groups settings generated
  refine ⟨Template.ofResponse_nests plain response, Template.ofRequest_nests plain request,
    fun quiet => ?_⟩
  cases update : e.2.request.operation with
  | updateItem u =>
    obtain ⟨m, member, _, made⟩ := generated.updateItem update
    obtain rfl := DataOperation.updateItem.inj made
    have identifiers : ∀ name ∈ m.writableFields config, Text.isIdentifier name = true := by
      intro name written
      obtain ⟨p, declared, rfl⟩ := List.mem_map.mp written
      exact (decoded m member).property_identifier (List.mem_of_mem_filter declared)
    rw [DataOperation.Nests, UpdateItem.nests_marks quiet identifiers]
    exact ⟨fun apart u same => DataOperation.updateItem.inj same ▸ apart, fun apart => apart _ rfl⟩
  | _ => exact iff_of_true trivial fun u same => nomatch same

/-- A meeting in the document store, with the properties `start` and `end`. -/
def meeting : Value :=
  .object [("name", .text "Meeting"),
    ("properties", .object [
      ("id", .object [("type", .text "ID")]),
      ("start", .object [("type", .text "String")]),
      ("end", .object [("type", .text "String")])]),
    ("dataSource", documentSource)]

/-- The request of the update is the one template of a meeting that does not nest. -/
theorem templates_nest_meeting :
    ∃ m c, Model.decode meeting = .ok m ∧ Review.Passes .default [m] [] ∧
      Compilation.build .default [m] = .ok c ∧ ∀ e ∈ c.exchanges,
        IsNested (e.2.responseText .default) ∧
        (IsNested (e.2.requestText .default) ↔ e.1 ≠ "resolvers/Mutation.updateMeeting") := by
  obtain ⟨m, c, read, built, uncontrolled, harmless, written, updates⟩ : ∃ m c,
      Model.decode meeting = .ok m ∧ Compilation.build .default [m] = .ok c ∧
      m.accessControl = none ∧ (∀ f ∈ Review.all .default [m] [], f.level ≠ .error) ∧
      (∀ x ∈ [m], ¬ x.HasLongLimit) ∧ ∀ e ∈ c.exchanges, (match e.2.request.operation with
        | .updateItem u => decide ("end" ∈ u.fields ∧ e.1 = "resolvers/Mutation.updateMeeting")
        | _ => decide (e.1 ≠ "resolvers/Mutation.updateMeeting")) = true :=
    ⟨_, _, rfl, rfl, rfl, by decide +kernel, by decide +kernel, by decide +kernel⟩
  have decoded : ∀ n ∈ [m], n.IsDecoded := by
    intro n member
    exact List.mem_singleton.mp member ▸ ⟨meeting, read⟩
  have passes : Review.Passes .default [m] [] := Report.isValid_ofFindings.mpr harmless
  have groups : ∀ n ∈ [m], ∀ access ∈ n.accessControl, ∀ rule ∈ access.rules,
      AllBare rule.groups := by
    intro n member access controlled
    rw [List.mem_singleton.mp member, uncontrolled] at controlled
    cases controlled
  obtain ⟨d, rebuilt, nested⟩ := (templates_nest decoded passes groups (by decide)).resolve_left
    (Compilation.not_breaksOff written)
  obtain rfl := Except.ok.inj (built.symm.trans rebuilt)
  refine ⟨m, c, read, passes, built, fun e listed => ?_⟩
  obtain ⟨response, request, names⟩ := nested e listed
  refine ⟨response, request.trans ((names (by decide)).trans ?_)⟩
  have writes := updates e listed
  cases update : e.2.request.operation with
  | updateItem u =>
    rw [update] at writes
    obtain ⟨called, place⟩ := of_decide_eq_true writes
    exact iff_of_false (fun apart => (apart u rfl "end" called).1 rfl) (fun other => other place)
  | _ =>
    rw [update] at writes
    exact iff_of_true (fun u same => nomatch same) (of_decide_eq_true writes)

end ApiLoom
