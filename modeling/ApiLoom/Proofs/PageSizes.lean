import ApiLoom.Proofs.CreateRequests
import ApiLoom.Proofs.Lines
import ApiLoom.Proofs.Paging
import ApiLoom.Proofs.Reviewed

/-!
# Sizes of pages

How many records a list or a relationship with many asks of its data source.  The templates
keep the number that a caller gives within the bounds of the configuration, but for the
query of an endpoint, which passes it on.
-/

namespace ApiLoom

open Template Script

/-! ### Texts in which a call is left -/

namespace Text

def defaultCall : List Char := "$util.defaultIfNull(".toList

/-- What a text stands for in which references were replaced and the call of a default is left:
what is given, or the default where that is still a reference. -/
def defaulted (text : String) : String :=
  let cs := text.toList
  if defaultCall.isPrefixOf cs then
    let arguments := (cs.drop defaultCall.length).dropLast
    let given := arguments.takeWhile (· ≠ ',')
    String.ofList (if given.head? = some '$' then arguments.drop (given.length + 2) else given)
  else text

theorem defaulted_call {given default : List Char} (whole : ',' ∉ given) :
    defaulted (String.ofList (defaultCall ++ (given ++ ", ".toList ++ default ++ [')']))) =
      String.ofList (if given.head? = some '$' then default else given) := by
  have taken : (given ++ ", ".toList ++ default).takeWhile (· ≠ ',') = given := by
    rw [List.append_assoc, List.takeWhile_append_of_pos]
    · simp
    · intro c member
      exact decide_eq_true fun same => whole (same ▸ member)
  unfold defaulted
  simp only [String.toList_ofList, List.isPrefixOf_iff_prefix.mpr (List.prefix_append _ _), if_true,
    List.drop_left, List.dropLast_concat, taken]
  have rest : (given ++ ", ".toList ++ default).drop (given.length + 2) = default :=
    List.drop_left' (by simp)
  rw [rest]

end Text

/-! ### Sizes of pages -/

namespace Store

/-- The number that is bound to the limit of the statement of a request. -/
def rowLimit? (body : Value) : Option Int :=
  match (body.field "statements").items with
  | [statement] =>
    match (Text.words (statement.text?.getD "")).reverse with
    | _ :: "OFFSET" :: limit :: "LIMIT" :: _ => ((body.field "variableMap").field limit).int?
    | _ => none
  | _ => none

/-- The limit in the query of a request to an endpoint. -/
def queryLimit? (body : Value) : Option String :=
  ((((body.field "params").field "query").field "limit").text?).map Text.defaulted

/-- A request asks its data source for a page of this size. -/
def AsksPage (request : Binding × Value) (size : Int) : Prop :=
  match request.1.kind with
  | .documentTable => request.2.field "limit" = .int size
  | .relationalCluster => rowLimit? request.2 = some size
  | .httpEndpoint => queryLimit? request.2 = some (toString size)
  | .requestQueue | .function | .none => False

theorem AsksPage.kind_ne {request : Binding × Value} {size : Int} (asks : AsksPage request size) :
    request.1.kind ≠ .function := by
  intro function
  simp [AsksPage, function] at asks

end Store

/-- The size is within the bounds of the configuration, what the caller asks for if that is within
them too, and the usual one if the caller asks for none. -/
structure Config.Bounds (config : Config) (asked : Option Int) (size : Int) : Prop where
  least : 1 ≤ size
  most : size ≤ config.maxPageSize
  kept : ∀ limit ∈ asked, 1 ≤ limit → limit ≤ config.maxPageSize → size = limit
  usual : asked = none → size = config.defaultPageSize

/-- The size of the pages that the list of a model asks for. -/
def Model.listSize (m : Model) (config : Config) (asked : Option Int) : Int :=
  if m.engine = .http then asked.getD config.defaultPageSize else config.page.size asked

theorem Config.page_bounds {config : Config} (accepted : config.IsDecoded) (asked : Option Int) :
    config.Bounds asked (config.page.size asked) := by
  obtain ⟨positive, ordered⟩ := accepted.pageSizes
  obtain ⟨least, most⟩ := PageBounds.size_bounds config.page positive ordered asked
  refine ⟨least, most, ?_, ?_⟩
  · rintro limit ⟨⟩ low high
    have kept : min limit config.maxPageSize = limit := Int.min_eq_left high
    simp only [PageBounds.size, Option.getD_some, page, PageBounds.ofArguments, kept]
    exact if_neg (by omega)
  · rintro rfl
    have kept : min config.defaultPageSize config.maxPageSize = config.defaultPageSize :=
      Int.min_eq_left ordered
    simp only [PageBounds.size, Option.getD_none, page, PageBounds.ofArguments, kept, ite_self]

/-- A list of an endpoint passes on what the caller asks for. -/
theorem Model.listSize_bounds {config : Config} (accepted : config.IsDecoded) (m : Model)
    (asked : Option Int) : config.Bounds asked (m.listSize config asked) ↔
      (m.engine = .http → ∀ limit ∈ asked, 1 ≤ limit ∧ limit ≤ config.maxPageSize) := by
  obtain ⟨positive, ordered⟩ := accepted.pageSizes
  unfold listSize
  split
  · next http =>
    simp only [http, forall_const]
    constructor
    · rintro bounds limit ⟨⟩
      exact ⟨bounds.least, bounds.most⟩
    · intro within
      cases asked with
      | none => exact ⟨positive, ordered, nofun, fun _ => rfl⟩
      | some limit =>
        obtain ⟨least, most⟩ := within limit rfl
        refine ⟨least, most, ?_, nofun⟩
        rintro _ ⟨⟩ _ _
        rfl
  · next stored => simp [stored, Config.page_bounds accepted asked]

/-! ### Requests for pages -/

namespace Template

section Operations

variable {w : World} {s : State} {config : Config} {asked : Option Int}

/-- The caller asks for pages of this size, or of none. -/
def AskedFor (asked : Option Int) (s : State) : Prop :=
  s.args.field "limit" = (asked.map Value.int).getD .null

theorem read_limit (given : AskedFor asked s) :
    w.read s config.page.limitExpression = (asked.map Value.int).getD .null :=
  (read_argument (Text.isWord_of_isIdentifier (by decide))).trans given

/-- What is sent behind the bounds of a page sees the size of the page. -/
theorem boundPage_sends {body : Body} (given : AskedFor asked s) :
    ((boundPage config.page ++ acts [.send body]).exec w s).Reaches fun t => ∃ u : State,
      u.local? "limit" = .int (config.page.size asked) ∧ t.output = body.eval w u := by
  rw [exec_append]
  refine (boundPage_reaches (read_limit given)).andThen fun u bound => ?_
  rw [exec_acts_cons, Action.perform, Step.next_andThen, exec_acts_nil]
  exact .now ⟨u, bound.2, rfl⟩

theorem scanItems_sized (given : AskedFor asked s) :
    ((perform config (.scanItems config.page)).exec w s).Reaches fun t =>
      t.output.field "limit" = .int (config.page.size asked) := by
  refine (boundPage_sends given).mono fun t ⟨u, limit, sent⟩ => ?_
  simp [sent, versioned_eval, evalMembers, Body.eval, Term.inBody, eval_var, limit,
    Entries.putAll, Entries.put, Entries.sameKey_text, Entries.get?]

theorem queryIndex_sized (indexName partitionKey valueExpression : String)
    (given : AskedFor asked s) :
    ((perform config (.queryIndex indexName partitionKey valueExpression
      (some config.page))).exec w s).Reaches fun t =>
        t.output.field "limit" = .int (config.page.size asked) := by
  refine (boundPage_sends given).mono fun t ⟨u, limit, sent⟩ => ?_
  simp [sent, versioned_eval, evalMembers, Body.eval, Term.inBody, eval_var, limit,
    Entries.putAll, Entries.put, Entries.sameKey_text, Entries.get?]

/-- Where a page begins does not change how large it is. -/
theorem boundOffset_keeps (page : PageBounds) :
    ((boundOffset page).exec w s).Reaches fun t => t.local? "limit" = s.local? "limit" := by
  have asks : (boundOffset page).Only Action.asks := by simp [boundOffset, Action.asks]
  have apart : "limit" ∉ (boundOffset page).changed := by
    simp [boundOffset, changed, Action.changed, Term.stashPut, Term.context]
  obtain ⟨t, reached, _⟩ := asks.exec_reaches w s
  have kept := exec_local (w := w) apart s
  rw [reached] at kept
  exact ⟨t, reached, kept⟩

theorem pageQuery_sized (table : String) (column : Option String) (expression : String)
    (given : AskedFor asked s) :
    ((perform config (.sql (pageQuery table column expression config.page))).exec w s).Reaches
      fun t => Store.rowLimit? t.output = some (config.page.size asked) := by
  rw [pageQuery_parts, exec_append, exec_append]
  refine ((boundPage_reaches (read_limit given)).andThen fun t bound =>
    (boundOffset_keeps config.page).mono fun u kept => kept.trans bound.2).andThen
      fun u limit => ?_
  rw [exec_acts_cons, Action.perform, Step.next_andThen, exec_acts_nil, pageBody_binds]
  generalize same : Value.map (Entries.putAll [] _) = body
  obtain ⟨front, ends⟩ := select_words (w := w) (s := u) table column
  have listed : body.field "statements" =
      .list [.text (w.expand u (SqlStatement.select table column false .page).text)] := by
    simp [← same, Entries.putAll, Entries.put, Entries.sameKey_text, Entries.get?]
  have mapped : body.field "variableMap" =
      .map (Entries.putAll [] (boundValues w u (pageVariables column expression))) := by
    simp [← same, Entries.putAll, Entries.put, Entries.sameKey_text, Entries.get?]
  have sized : (Entries.putAll [] (boundValues w u (pageVariables column expression))).get?
      (placeholder "limit") = some (.int (config.page.size asked)) := by
    have read : w.read u "$limit" = .int (config.page.size asked) :=
      (read_variable (Text.isWord_of_isIdentifier (by decide)) (by decide)).trans limit
    have apart : placeholder "offset" ≠ placeholder "limit" := by decide
    rw [pageVariables, boundValues, List.map_append, ← read]
    exact Entries.get?_putAll _ (List.forall_mem_singleton.mpr apart) []
  refine .now ?_
  rw [State.handOut, Store.rowLimit?, listed, mapped]
  simp only [Value.items, Value.text?, Option.getD_some, ends, List.reverse_append]
  simp only [List.reverse_cons, List.reverse_nil, List.nil_append, List.cons_append,
    Value.field_map, sized, Option.getD_some]
  rfl

/-- What the caller asks for, as it is written into the text of a query. -/
def limitText (asked : Option Int) : String := asked.elim (argument "limit") toString

theorem limitText_whole (asked : Option Int) : ',' ∉ (limitText asked).toList := by
  cases asked with
  | none => decide
  | some n => exact fun member => absurd (Text.mem_int member) (by decide)

/-- Both references of the query are replaced, and the call around them is left. -/
theorem expand_defaultCall (read : List Char → List Char) {behind : List Char}
    (plain : '$' ∉ behind) :
    Text.expand read none ("$util.defaultIfNull($ctx.args.limit, ".toList ++ behind) =
      read "util.defaultIfNull".toList ++ '(' :: (read "ctx.args.limit".toList ++
        ", ".toList ++ behind) := by
  have chars : "$util.defaultIfNull($ctx.args.limit, ".toList ++ behind =
      '$' :: ("util.defaultIfNull".toList ++ '(' :: '$' :: ("ctx.args.limit".toList ++
        ',' :: ' ' :: behind)) := by
    have lead : "$util.defaultIfNull($ctx.args.limit, ".toList =
        '$' :: ("util.defaultIfNull".toList ++ '(' :: '$' :: ("ctx.args.limit".toList ++
          [',', ' '])) := rfl
    rw [lead]
    simp only [List.cons_append, List.append_assoc, List.nil_append]
  have trail : Text.expand read none (',' :: ' ' :: behind) = ',' :: ' ' :: behind :=
    Text.expand_plain (by simpa using plain)
  have second : Text.expand read none ('$' :: ("ctx.args.limit".toList ++ ',' :: ' ' :: behind)) =
      read "ctx.args.limit".toList ++ Text.expand read none (',' :: ' ' :: behind) :=
    Text.expand_path (by decide) (Text.ends_cons (by decide) _)
  have called : ∀ c ∈ ('(' :: '$' :: ("ctx.args.limit".toList ++ ',' :: ' ' :: behind)).head?,
      Text.isPathChar c = false := Text.ends_cons (by decide) _
  rw [chars, Text.expand_path (by decide) called, Text.expand, if_neg (by decide), second, trail]
  simp only [List.append_assoc]
  rfl

theorem expand_queryLimit (prints : ∀ n : Int, w.library.print (.int n) = toString n)
    (given : AskedFor asked s) (unnamed : s.local? "util" = .null) (default : Int) :
    w.expand s s!"$util.defaultIfNull($ctx.args.limit, {default})" =
      String.ofList (Text.defaultCall ++ ((limitText asked).toList ++ ", ".toList ++
        (toString default).toList ++ [')'])) := by
  have spelled : s!"$util.defaultIfNull($ctx.args.limit, {default})" =
      "$util.defaultIfNull($ctx.args.limit, " ++ (toString default ++ ")") :=
    String.append_assoc
  have called : w.reference s "util.defaultIfNull".toList = "$util.defaultIfNull".toList := by
    have path : Text.path "util.defaultIfNull".toList = ["util", "defaultIfNull"] := by decide
    have followed : w.follow s ["util", "defaultIfNull"] = .null := by
      rw [World.follow, World.lookup, if_neg (by decide), unnamed]
      rfl
    simp only [World.reference, path, followed]
    rfl
  have read : w.reference s "ctx.args.limit".toList = (limitText asked).toList := by
    have path : Text.path "ctx.args.limit".toList = ["ctx", "args", "limit"] := by decide
    have followed : w.follow s ["ctx", "args", "limit"] = (asked.map Value.int).getD .null := by
      rw [← given]
      rfl
    simp only [World.reference, path, followed]
    cases asked with
    | none => rfl
    | some n => exact congrArg String.toList (prints n)
  have plain : '$' ∉ (toString default ++ ")").toList := by
    have digits : '$' ∉ (toString default).toList :=
      fun member => absurd (Text.mem_int member) (by decide)
    rw [String.toList_append, List.mem_append]
    exact not_or.mpr ⟨digits, by decide⟩
  have opened : "$util.defaultIfNull".toList ++ ['('] = Text.defaultCall := by decide
  rw [World.expand, spelled, String.toList_append, expand_defaultCall _ plain, called, read,
    ← List.singleton_append, ← List.append_assoc, opened, String.toList_append]
  simp only [List.append_assoc]
  rfl

/-- The list of an endpoint sends what the caller asks for, or the usual size. -/
theorem http_sized {method path : String}
    (prints : ∀ n : Int, w.library.print (.int n) = toString n) (given : AskedFor asked s)
    (unnamed : s.local? "util" = .null) :
    ((perform config (.http ⟨method, path, none, Model.httpQuery config⟩)).exec w s).Reaches
      fun t => Store.queryLimit? t.output =
        some (toString (asked.getD config.defaultPageSize)) := by
  rw [perform, http, exec_acts_cons, Action.perform, Step.next_andThen, exec_acts_nil]
  refine .now ?_
  have sent := expand_queryLimit prints given unnamed config.defaultPageSize
  have settled : Text.defaulted (w.expand s
      s!"$util.defaultIfNull($ctx.args.limit, {config.defaultPageSize})") =
        toString (asked.getD config.defaultPageSize) := by
    rw [sent, Text.defaulted_call (limitText_whole asked)]
    cases asked with
    | none => exact String.ofList_toList
    | some n =>
      have filled : (limitText (some n)).toList.head? ≠ some '$' := by
        intro first
        exact absurd (Text.mem_int (List.mem_of_head? first)) (by decide)
      rw [if_neg filled]
      exact String.ofList_toList
  refine Option.map_eq_some_iff.mpr ⟨_, ?_, settled⟩
  rw [State.handOut, versioned_eval]
  rfl

end Operations

/-! ### What runs ask for -/

section Models

variable {w : World} {s : State} {m : Model} {config : Config} {cluster : Option Cluster}
  {binding : Binding} {asked : Option Int}

theorem list_sized (unqueued : m.engine ≠ .queued)
    (bound : Binding.forModel m cluster config = .ok binding) (gated : Bool)
    (prints : ∀ n : Int, w.library.print (.int n) = toString n) (given : AskedFor asked s)
    (unnamed : s.local? "util" = .null) :
    ((perform config (m.mainOperation config .list gated).1).exec w s).Reaches fun t =>
      Store.AsksPage (binding, t.output) (m.listSize config asked) := by
  have kind := Binding.forModel_storeKind bound
  cases engine : m.engine with
  | document =>
    have size : m.listSize config asked = config.page.size asked := by
      simp [Model.listSize, engine]
    have operation : (m.mainOperation config .list gated).1 = .scanItems config.page := by
      rw [Model.mainOperation, engine]
      rfl
    rw [operation, size]
    refine (scanItems_sized given).mono fun t sized => ?_
    rw [Store.AsksPage, kind, engine]
    exact sized
  | relational =>
    have size : m.listSize config asked = config.page.size asked := by
      simp [Model.listSize, engine]
    rw [congrArg Prod.fst (Host.mainOperation_page engine config gated), size]
    refine (pageQuery_sized _ _ _ given).mono fun t sized => ?_
    rw [Store.AsksPage, kind, engine]
    exact sized
  | http =>
    have size : m.listSize config asked = asked.getD config.defaultPageSize := by
      simp [Model.listSize, engine]
    have operation : (m.mainOperation config .list gated).1 =
        .http ⟨"GET", m.collectionPath, none, Model.httpQuery config⟩ := by
      rw [Model.mainOperation, engine]
      rfl
    rw [operation, size]
    refine (http_sized prints given unnamed).mono fun t sized => ?_
    rw [Store.AsksPage, kind, engine]
    exact sized
  | queued => exact absurd engine unqueued

/-- A relationship with many asks for pages within the bounds, wherever its target is stored. -/
theorem link_sized {target : Model} {foreignKey : String} {operation : DataOperation}
    {shape : ResultShape} (bound : Binding.forModel target cluster config = .ok binding)
    (reached : Model.traversalTo config target .hasMany foreignKey = some (operation, shape))
    (given : AskedFor asked s) :
    ((perform config operation).exec w s).Reaches fun t =>
      Store.AsksPage (binding, t.output) (config.page.size asked) := by
  have kind := Binding.forModel_storeKind bound
  unfold Model.traversalTo at reached
  split at reached
  · next engine =>
    obtain ⟨rfl, _⟩ := Prod.mk.inj (Option.some.inj reached)
    refine (queryIndex_sized _ _ _ given).mono fun t sized => ?_
    rw [Store.AsksPage, kind, engine]
    exact sized
  · next engine =>
    obtain ⟨rfl, _⟩ := Prod.mk.inj (Option.some.inj reached)
    refine (pageQuery_sized _ (some foreignKey) _ given).mono fun t sized => ?_
    rw [Store.AsksPage, kind, engine]
    exact sized
  · cases reached
  · cases reached

end Models

end Template

namespace Host

variable {host : Host} {m : Model} {cluster : Option Cluster} {asked : Option Int}

/-- The stage sends one request, for a page of this size. -/
def SendsPage (host : Host) (p : Progress) (s : Stage) (size : Int) : Prop :=
  ∃ body, (host.runStage p s).sent = [(s.binding, body)] ∧ Store.AsksPage (s.binding, body) size

theorem sendsPage_of_begins {p : Progress} {s : Stage} {u : State} {size : Int}
    (begun : host.Begins p s.exchange.request u)
    (sized : ((perform host.config s.exchange.request.operation).exec (host.world p .null)
      u).Reaches fun t => Store.AsksPage (s.binding, t.output) size) : host.SendsPage p s size := by
  obtain ⟨t, reached, asks⟩ := sized
  have sent : host.ask p s.exchange.request =
      .sent t.output { p with stash := t.stash, args := t.args } := by
    rw [ask, begun, reached]
  exact ⟨t.output, by rw [runStage_sent sent], asks⟩

/-- A list that lets the caller in asks for one page, behind the function of its hook. -/
theorem list_asks {r : RootResolver} {flags : List String} (unqueued : m.engine ≠ .queued)
    (prints : ∀ n : Int, host.library.print (.int n) = toString n)
    (given : host.call.args.field "limit" = (asked.map Value.int).getD .null)
    (resolved : m.resolver host.config cluster .list = .ok r)
    (admitted : (m.authCheck .read .collection).flagsFor host.call.caller = some flags) :
    ∃ called request, (host.run r).sent = called ++ [request] ∧
      (∀ other ∈ called, other.1.kind = .function) ∧
      Store.AsksPage request (m.listSize host.config asked) := by
  obtain ⟨check, ungated⟩ := Model.resolver_request resolved
  have settled := ask_settled host host.start r.exchange.request check ungated
    fun _ => Model.authCheck_unstamped (by decide)
  have allowed : (m.authCheck RootField.list.operation RootField.list.scope).flagsFor
      host.call.caller = some flags := admitted
  rw [allowed] at settled
  obtain ⟨t, same, begun⟩ := settled
  have asks : AskedFor asked t := (congrArg (Value.field · "limit") same.args).trans given
  have unnamed : t.local? "util" = .null := same.locals "util" (by decide)
  obtain ⟨binding, bound, _, ⟨_, rfl⟩ | ⟨_, fetch, fetched, rfl⟩⟩ := Model.resolver_ok resolved
  · obtain ⟨body, sent, sized⟩ := sendsPage_of_begins (s := ⟨Naming.rootField m.name .list, .main,
      binding, (m.unitResolver host.config .list binding).exchange⟩) begun
      (list_sized unqueued bound _ prints asks unnamed)
    exact ⟨[], _, by rw [run_unit, sent]; rfl, List.forall_mem_nil _, sized⟩
  · obtain rfl : [] = fetch := Except.ok.inj fetched
    obtain ⟨p, _, args, sent⟩ := run_pipeline begun
    obtain ⟨called, q, reached, kept⟩ := hookStage_run host p m .list .before
    have asks : AskedFor asked q.state :=
      (congrArg (Value.field · "limit") (kept.args.trans args)).trans asks
    obtain ⟨body, main, sized⟩ := sendsPage_of_begins (p := q)
      (s := m.mainStage host.config .list binding) (ofRequest_open rfl rfl)
      (list_sized unqueued bound _ prints asks rfl)
    have unhooked : m.hookStage .list .after = [] := rfl
    refine ⟨_, _, ?_, called, sized⟩
    rw [sent, unhooked, List.append_nil, List.append_nil, runStages_append,
      Trace.sent_andThen reached, runStages_single, main]

theorem list_refused {r : RootResolver}
    (resolved : m.resolver host.config cluster .list = .ok r)
    (refused : (m.authCheck .read .collection).flagsFor host.call.caller = none) :
    (host.run r).sent = [] := by
  have aborted := ask_first host (by decide) resolved
  have none : (m.authCheck RootField.list.operation RootField.list.scope).flagsFor
      host.call.caller = none := refused
  rw [none] at aborted
  rw [run_aborted resolved aborted]

theorem link_asks {source : Model} {name : String} {lookup : String → Option Model}
    {r : Relationship} {t : TraversalResolver}
    (given : host.call.args.field "limit" = (asked.map Value.int).getD .null)
    (resolved : source.traversal host.config cluster lookup name r = .ok t)
    (many : r.kind = .hasMany) :
    host.SendsPage host.start ⟨t.fieldName, .main, t.binding, t.exchange⟩
      (host.config.page.size asked) := by
  obtain ⟨target, operation, shape, _, reached, bound, _, asks, unasked, ungated, _⟩ :=
    Model.traversal_ok resolved
  rw [many] at reached
  refine sendsPage_of_begins (u := host.start.state) (ofRequest_open unasked ungated) ?_
  rw [asks]
  exact link_sized bound reached given

end Host

/-- The lists of a set and its relationships with many ask for one page, which is within the
bounds except where the list of an endpoint is asked for one that is not. -/
theorem pages_bounded_iff {host : Host} {models : List Model} {c : Compilation}
    {asked : Option Int} (accepted : host.config.IsDecoded)
    (built : Compilation.build host.config models = .ok c)
    (prints : ∀ n : Int, host.library.print (.int n) = toString n)
    (given : host.call.args.field "limit" = (asked.map Value.int).getD .null) :
    (∀ m ∈ models, m.engine ≠ .queued → ∃ k ∈ c.models, m.compile host.config models = .ok k ∧
      ∃ list, k.resolver .list = .ok list ∧
        (((m.authCheck .read .collection).flagsFor host.call.caller).isSome = true →
          ∃ request ∈ (host.run list).sent, request.1.kind ≠ .function) ∧
        (∀ request ∈ (host.run list).sent, request.1.kind ≠ .function →
          Store.AsksPage request (m.listSize host.config asked)) ∧
        (host.config.Bounds asked (m.listSize host.config asked) ↔
          (m.engine = .http → ∀ limit ∈ asked, 1 ≤ limit ∧ limit ≤ host.config.maxPageSize))) ∧
    ∀ k ∈ c.models, ∀ t ∈ k.traversals, t.relationship.kind = .hasMany →
      ∃ size, host.SendsPage host.start ⟨t.fieldName, .main, t.binding, t.exchange⟩ size ∧
        host.config.Bounds asked size := by
  have compiled := (Compilation.build_ok built).1
  constructor
  · intro m member unqueued
    obtain ⟨k, known, made⟩ := exists_of_mapM_ok compiled m member
    obtain ⟨list, found, resolved⟩ := Model.compile_resolver made .list
    refine ⟨k, known, made, list, found, ?_, ?_, Model.listSize_bounds accepted m asked⟩
    · intro admitted
      obtain ⟨flags, allowed⟩ := Option.isSome_iff_exists.mp admitted
      obtain ⟨called, request, sent, _, asks⟩ :=
        Host.list_asks unqueued prints given resolved allowed
      exact ⟨request, by simp [sent], asks.kind_ne⟩
    · cases allowed : (m.authCheck .read .collection).flagsFor host.call.caller with
      | none => simp [Host.list_refused resolved allowed]
      | some flags =>
        obtain ⟨called, request, sent, functions, asks⟩ :=
          Host.list_asks unqueued prints given resolved allowed
        intro other member apart
        rw [sent] at member
        rcases List.mem_append.mp member with hooked | last
        · exact absurd (functions other hooked) apart
        · obtain rfl := List.mem_singleton.mp last
          exact asks
  · intro k known t member many
    obtain ⟨m, _, made⟩ := mem_of_mapM_ok compiled k known
    obtain ⟨_, related, _⟩ := Model.compileWith_ok made
    obtain ⟨link, _, resolved⟩ := mem_of_mapM_ok related t member
    obtain ⟨_, _, _, _, _, _, relationship, _⟩ := Model.traversal_ok resolved
    have asks := Host.link_asks given resolved (relationship ▸ many)
    exact ⟨_, asks, Config.page_bounds accepted asked⟩

/-- A feed that is kept elsewhere. -/
def feed : Value := .object [
  ("name", .text "Feed"), ("properties", .object [("id", .object [("type", .text "ID")])]),
  ("dataSource", .object [("type", .text "thirdPartyApi"),
    ("endpoint", .text "https://feeds.example")])]

/-- A post to which there are replies. -/
def repliedPost : Value := .object [
  ("name", .text "Post"),
  ("properties", .object [
    ("id", .object [("type", .text "ID")]), ("postId", .object [("type", .text "ID")])]),
  ("dataSource", .object [("type", .text "database"), ("engine", .text "nosql")]),
  ("relationships", .object [
    ("replies", .object [("type", .text "hasMany"), ("target", .text "Post")])])]

def annScrolls : Host where
  config := .default
  library := {
    call _ _ _ := .null
    written := .text
    print
      | .scalar (.int i) => toString i
      | _ => "" }
  call := ⟨⟨some "ann", none⟩, .object [("limit", .int 5000)], .null, .null⟩
  reply _ := .null

/-- She asks for five thousand records at once. -/
theorem pages_bounded_iff_feed :
    ∃ m n c, Model.decode feed = .ok m ∧ Model.decode repliedPost = .ok n ∧
      Compilation.build .default [m, n] = .ok c ∧
      (∃ k ∈ c.models, ∃ list, k.resolver .list = .ok list ∧
        ∃ request ∈ (annScrolls.run list).sent, Store.AsksPage request 5000) ∧
      ¬ Config.default.Bounds (some 5000) 5000 ∧
      ∃ k ∈ c.models, ∃ t ∈ k.traversals, ∃ size ≤ 100,
        annScrolls.SendsPage annScrolls.start ⟨t.fieldName, .main, t.binding, t.exchange⟩ size := by
  obtain ⟨m, n, j, t, first, second, engine, admitted, made, linked, many, harmless,
      written⟩ : ∃ m n j t,
      Model.decode feed = .ok m ∧ Model.decode repliedPost = .ok n ∧ m.engine = .http ∧
      ((m.authCheck .read .collection).flagsFor annScrolls.call.caller).isSome = true ∧
      n.compile .default [m, n] = .ok j ∧ t ∈ j.traversals ∧ t.relationship.kind = .hasMany ∧
      (∀ f ∈ Review.all .default [m, n] [], f.level ≠ .error) ∧ ∀ x ∈ [m, n], ¬ x.HasLongLimit :=
    ⟨_, _, _, _, rfl, rfl, rfl, rfl, rfl, List.mem_cons_self, rfl, by decide +kernel,
      by decide +kernel⟩
  have passes : Review.Passes .default [m, n] [] := Report.isValid_ofFindings.mpr harmless
  obtain ⟨c, built⟩ := passes.builds_of_written written
  have accepted : annScrolls.config.IsDecoded := ⟨.map [], rfl⟩
  have generated : Compilation.build annScrolls.config [m, n] = .ok c := built
  have given : annScrolls.call.args.field "limit" =
      ((some 5000 : Option Int).map Value.int).getD .null := rfl
  obtain ⟨lists, links⟩ := pages_bounded_iff accepted generated (fun _ => rfl) given
  obtain ⟨k, known, _, list, found, sends, asks, bounds⟩ :=
    lists m List.mem_cons_self (by rw [engine]; decide)
  have size : m.listSize annScrolls.config (some 5000) = 5000 := by
    simp [Model.listSize, engine]
  obtain ⟨request, sent, stored⟩ := sends admitted
  obtain ⟨i, listed, same⟩ := exists_of_mapM_ok (Compilation.build_ok built).1 n (by simp)
  obtain rfl := Except.ok.inj (made.symm.trans same)
  obtain ⟨most, page, bounded⟩ := links j listed t linked many
  refine ⟨m, n, c, first, second, built, ⟨k, known, list, found, request, sent, ?_⟩, ?_,
    j, listed, t, linked, most, bounded.most, page⟩
  · exact size ▸ asks request sent stored
  · intro within
    exact absurd within.most (by decide)

end ApiLoom
