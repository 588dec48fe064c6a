import ApiLoom.Proofs.GuardedWrite
import ApiLoom.Proofs.PageResponses

/-!
# Paging

A caller walks over the pages of a list: begins without a token, sends each token that is
handed out with the next limit, and ends at a page without one.  Whatever the limits are,
such a walk ends, and has then seen every row once.
-/

namespace ApiLoom

open Template

/-! ### Windows side by side -/

/-- The windows lie side by side, from the start to the stop. -/
inductive Tiles : Nat → List Window → Nat → Prop where
  | nil (stop : Nat) : Tiles stop [] stop
  | cons {start limit stop : Nat} {rest : List Window} (tail : Tiles (start + limit) rest stop) :
      Tiles start (⟨start, limit⟩ :: rest) stop

namespace Tiles

variable {start stop : Nat} {windows : List Window}

theorem ordered (tiles : Tiles start windows stop) : start ≤ stop := by
  induction tiles with
  | nil => exact Nat.le_refl _
  | cons tail ih => omega

/-- Every place between the start and the stop is in one window, and no other place in any. -/
theorem countP_holds (tiles : Tiles start windows stop) (i : Nat) :
    windows.countP (fun window => window.holds i) = if start ≤ i ∧ i < stop then 1 else 0 := by
  induction tiles with
  | nil stop =>
    have outside : ¬ (stop ≤ i ∧ i < stop) := by omega
    rw [if_neg outside, List.countP_nil]
  | @cons start limit stop rest tail ih =>
    have later := tail.ordered
    rw [List.countP_cons, ih]
    simp only [Window.holds, Bool.and_eq_true, decide_eq_true_eq]
    grind

theorem flatMap_slice {α : Type} (tiles : Tiles start windows stop) (rows : List α) :
    windows.flatMap (fun window => window.slice rows) = (rows.drop start).take (stop - start) := by
  induction tiles with
  | nil => simp
  | @cons start limit stop rest tail ih =>
    have later := tail.ordered
    rw [List.flatMap_cons, ih, Window.slice, ← List.drop_drop]
    have split : stop - start = limit + (stop - (start + limit)) := by omega
    rw [split, List.take_add]

end Tiles

/-! ### Walks -/

/-- What a caller gets for one request, and the window of which it is made. -/
structure Page where
  window : Window
  items : List Value
  token : Option String
deriving Repr

namespace Page

def connection (page : Page) : Value := connectionValue page.token page.items

/-- The page that a connection holds. -/
def ofConnection (window : Window) (connection : Value) : Option Page :=
  match connection.field "items", connection.field? "nextToken" with
  | .list items, none => some ⟨window, items, none⟩
  | .list items, some (.scalar (.text token)) => some ⟨window, items, some token⟩
  | _, _ => none

theorem ofConnection_connection (page : Page) :
    ofConnection page.window page.connection = some page := by
  obtain ⟨window, items, _ | token⟩ := page <;> rfl

end Page

/-- A walk over the pages that `ask` hands out, which ends at the first one without a token. -/
inductive Walk (ask : Option Int → Option String → Option Page) :
    (Nat → Option Int) → Option String → List Page → Prop where
  | last {limits : Nat → Option Int} {token : Option String} {page : Page}
      (answered : ask (limits 0) token = some page) (ended : page.token = none) :
      Walk ask limits token [page]
  | next {limits : Nat → Option Int} {token : Option String} {page : Page} {later : String}
      {pages : List Page} (answered : ask (limits 0) token = some page)
      (handed : page.token = some later)
      (rest : Walk ask (fun n => limits (n + 1)) (some later) pages) :
      Walk ask limits token (page :: pages)

theorem Walk.unique {ask : Option Int → Option String → Option Page} {limits : Nat → Option Int}
    {token : Option String} {pages others : List Page} (walk : Walk ask limits token pages)
    (other : Walk ask limits token others) : others = pages := by
  induction walk generalizing others with
  | last answered ended =>
    cases other with
    | last again _ => rw [Option.some.inj (again.symm.trans answered)]
    | next again handed _ =>
      rw [Option.some.inj (again.symm.trans answered), ended] at handed
      cases handed
  | next answered handed _ ih =>
    cases other with
    | last again ended =>
      rw [Option.some.inj (again.symm.trans answered), handed] at ended
      cases ended
    | next again later rest =>
      obtain rfl := Option.some.inj (again.symm.trans answered)
      obtain rfl := Option.some.inj (later.symm.trans handed)
      rw [ih rest]

/-- What rows are shown as: those that pass, each in its place. -/
structure Showing where
  passes : Record → Bool
  shown : Record → Record

namespace Showing

def items (showing : Showing) (rows : List Record) : List Value :=
  ((rows.filter showing.passes).map showing.shown).map Value.map

theorem items_append (showing : Showing) (first rest : List Record) :
    showing.items (first ++ rest) = showing.items first ++ showing.items rest := by
  simp [items]

/-- The page of a window into the rows; whether there is a next one is counted before the rows
are dropped that do not pass. -/
def page (showing : Showing) (rows : List Record) (window : Window) : Page :=
  ⟨window, showing.items (window.slice rows), nextToken window (window.slice rows).length⟩

end Showing

/-- Rows are shown as they are, but for the local times of these fields, which are added. -/
structure Showing.AddsTimes (showing : Showing) (fields : List String) : Prop where
  plain : fields = [] → ∀ r, showing.shown r = r
  kept : ∀ r name, (∀ field ∈ fields, name ≠ Naming.localTimeField field) →
    (showing.shown r).get? name = r.get? name

/-- Every request asks for a window that begins where its token says, and gets its page. -/
structure Paged (ask : Option Int → Option String → Option Page) (size : Option Int → Nat)
    (rows : List Record) (showing : Showing) : Prop where
  positive : ∀ limit, 1 ≤ size limit
  answers : ∀ limit token offset, Opens token offset →
    ask limit token = some (showing.page rows ⟨offset, size limit⟩)

/-- The pages have the sizes that were asked for, lie side by side over all of the rows, and
show each of them once. -/
structure VisitsOnce (size : Option Int → Nat) (limits : Nat → Option Int) (rows : List Record)
    (showing : Showing) (pages : List Page) : Prop where
  sized : pages.map (fun page => page.window.limit) =
    (List.range pages.length).map fun i => size (limits i)
  tiled : ∃ stop, rows.length ≤ stop ∧ Tiles 0 (pages.map Page.window) stop
  once : ∀ i < rows.length, pages.countP (fun page => page.window.holds i) = 1
  whole : pages.flatMap (fun page => page.window.slice rows) = rows
  items : pages.flatMap Page.items = showing.items rows

/-- There is one walk over the pages from the first one on; it ends, and has then visited every
row once. -/
def WalksOnce (ask : Option Int → Option String → Option Page) (size : Option Int → Nat)
    (limits : Nat → Option Int) (rows : List Record) (showing : Showing) : Prop :=
  ∃ pages, (∀ others, Walk ask limits none others ↔ others = pages) ∧
    VisitsOnce size limits rows showing pages

section Walks

variable {ask : Option Int → Option String → Option Page} {size : Option Int → Nat}
  {rows : List Record} {showing : Showing}

theorem Window.slice_length {α : Type} (window : Window) (rows : List α) :
    (window.slice rows).length = min window.limit (rows.length - window.offset) := by
  simp [Window.slice]

/-- From any offset on, a walk ends and has then seen the rest of the rows. -/
theorem Paged.walk (paged : Paged ask size rows showing) (limits : Nat → Option Int)
    {token : Option String} {offset : Nat} (opens : Opens token offset) :
    ∃ pages stop, Walk ask limits token pages ∧ rows.length ≤ stop ∧
      Tiles offset (pages.map Page.window) stop ∧
      pages.map (fun page => page.window.limit) =
        (List.range pages.length).map (fun i => size (limits i)) ∧
      pages.flatMap Page.items = showing.items (rows.drop offset) := by
  induction left : rows.length - offset using Nat.strongRecOn generalizing limits token offset with
  | ind left' ih =>
    let window : Window := ⟨offset, size (limits 0)⟩
    have answered := paged.answers (limits 0) token offset opens
    have positive := paged.positive (limits 0)
    have counted : (window.slice rows).length = min (size (limits 0)) (rows.length - offset) :=
      window.slice_length rows
    -- A full window lies within the rows, so that fewer of them are left behind it; any other
    -- one reaches their end.
    by_cases full : (window.slice rows).length = window.limit
    · have inside : offset + size (limits 0) ≤ rows.length := by
        have limited : (window.slice rows).length = size (limits 0) := full
        omega
      obtain ⟨pages, stop, walk, covered, tiles, sized, items⟩ :=
        ih (rows.length - (offset + size (limits 0))) (by omega) (fun n => limits (n + 1))
          (.token _) rfl
      refine ⟨_ :: pages, stop, .next answered (if_pos full) walk, covered, .cons tiles, ?_, ?_⟩
      · rw [List.map_cons, sized, List.length_cons, List.range_succ_eq_map, List.map_cons,
          List.map_map]
        rfl
      · rw [List.flatMap_cons, items, Showing.page, ← showing.items_append, Window.slice,
          ← List.drop_drop, List.take_append_drop]
    · have short : rows.length - offset < size (limits 0) := by
        have limited : ¬ (window.slice rows).length = size (limits 0) := full
        omega
      refine ⟨[_], offset + size (limits 0), .last answered (if_neg full), by omega,
        .cons (.nil _), rfl, ?_⟩
      rw [List.flatMap_singleton, Showing.page, Window.slice, List.take_of_length_le]
      rw [List.length_drop]
      exact Nat.le_of_lt short

theorem Paged.walksOnce (paged : Paged ask size rows showing) (limits : Nat → Option Int) :
    WalksOnce ask size limits rows showing := by
  obtain ⟨pages, stop, walk, covered, tiles, sized, items⟩ := paged.walk limits .first
  refine ⟨pages, fun others => ⟨walk.unique, ?_⟩, sized, ⟨stop, covered, tiles⟩, ?_, ?_, items⟩
  · rintro rfl
    exact walk
  · intro i inside
    have counted := tiles.countP_holds i
    rw [List.countP_map, if_pos ⟨Nat.zero_le i, by omega⟩] at counted
    exact counted
  · have whole := tiles.flatMap_slice rows
    rw [List.flatMap_map, List.drop_zero, Nat.sub_zero, List.take_of_length_le covered] at whole
    exact whole

end Walks

/-! ### Pages of a store -/

/-- The page that a run hands out, if it sent one request to the cluster. -/
def Trace.page? (t : Trace) : Option Page :=
  match t.sent.filter fun request => request.1.kind = .relationalCluster, t.progress with
  | [(_, body)], some p =>
    (Store.window? body).bind fun window => Page.ofConnection window p.previous
  | _, _ => none

/-- The arguments of a caller who asks for a page with a limit and with a token, or without. -/
def pageArguments (limit : Option Int) (token : Option String) : Value :=
  .object ((limit.map fun n => ("limit", Value.int n)).toList ++
    (token.map fun t => ("nextToken", Value.text t)).toList)

theorem wanted_of_args {limit : Option Int} {token : Option String} {s : State}
    (given : s.args = pageArguments limit token) : Wanted limit token s := by
  constructor <;> rw [given] <;> cases limit <;> cases token <;> rfl

namespace Host

def asking (host : Host) (limit : Option Int) (token : Option String) : Host :=
  { host with call := { host.call with args := pageArguments limit token } }

/-- The page that the resolver of a field hands out. -/
def listPage (host : Host) (store : Value → Value) (r : RootResolver) (limit : Option Int)
    (token : Option String) : Option Page :=
  ((host.asking limit token).serve store r).page?

/-- The page that the resolver of a relationship hands out. -/
def linkPage (host : Host) (store : Value → Value) (t : TraversalResolver) (limit : Option Int)
    (token : Option String) : Option Page :=
  let asking := host.asking limit token
  (asking.serveStage store asking.start ⟨t.fieldName, .main, t.binding, t.exchange⟩).page?

/-- The size of a page for which the caller asks. -/
def pageSize (host : Host) (limit : Option Int) : Nat := (host.config.page.size limit).toNat

/-- What a page of a model shows to the caller: what its filter admits with these entries of the
stash, with local times. -/
def showing (host : Host) (m : Model) (access : Option ItemAccess) (stash : Stash) : Showing where
  passes r := access.all fun access => access.admits host.call.caller stash (.map r)
  shown := host.library.shown host.config host.call.headers (m.localTimeFields host.config)

theorem showing_addsTimes (host : Host) (m : Model) (access : Option ItemAccess) (stash : Stash) :
    (host.showing m access stash).AddsTimes (m.localTimeFields host.config) where
  plain none r := by
    rw [showing, none]
    rfl
  kept r name apart := by
    dsimp only [showing, Library.shown]
    split
    · split
      · rfl
      · exact Library.localized_get? _ _ apart r
    · rfl

/-- The stage asks for a page of a table, and hands out what the filter admits. -/
structure ServesPages (host : Host) (m : Model) (column : Option String) (expression : String)
    (access : Option ItemAccess) (s : Stage) : Prop where
  main : s.kind = .main
  bound : s.binding.kind = .relationalCluster
  asks : ∃ table, s.exchange.request.operation =
    .sql (pageQuery table column expression host.config.page)
  answers : s.exchange.response.shape =
    .list ⟨.sqlRows 0, access, m.localTimeFields host.config⟩

/-- The stage sends one request, and hands out the page of its window. -/
def Serves (host : Host) (store : Value → Value) (p : Progress) (s : Stage) (page : Page) : Prop :=
  ∃ body q, host.serveStage store p s = ⟨[(s.binding, body)], some q⟩ ∧
    Store.window? body = some page.window ∧ q.previous = page.connection

section Stages

variable {host : Host} {p : Progress} {u : State} {s : Stage} {m : Model}

theorem localTimes_plain (decoded : m.IsDecoded) (config : Config) :
    ∀ name ∈ m.localTimeFields config, '$' ∉ (Naming.localTimeField name).toList := by
  intro name member
  have stamped : name ∈ m.timestampFields := by
    unfold Model.localTimeFields at member
    split at member
    · exact member
    · cases member
  obtain ⟨property, listed, rfl⟩ := List.mem_map.mp stamped
  have word := Text.isWord_of_isIdentifier
    (decoded.property_identifier (List.mem_filter.mp listed).1)
  simp [Naming.localTimeField, String.toList_append, word.plain]

theorem pageSize_cast (accepted : host.config.IsDecoded) (limit : Option Int) :
    host.config.page.size limit = (host.pageSize limit : Nat) ∧ 1 ≤ host.pageSize limit := by
  obtain ⟨positive, ordered⟩ := accepted.pageSizes
  obtain ⟨least, _⟩ := PageBounds.size_bounds host.config.page positive ordered limit
  unfold pageSize
  omega

/-- A stage that serves pages sends one request, for the window where its token says, and hands
out its page. -/
theorem stage_serves (host : Host) {column : Option String} {expression : String}
    {access : Option ItemAccess} {stash : Stash} {limit : Option Int} {token : Option String}
    {offset : Nat} {v : Value} (matching : Entries → List Record)
    (accepted : host.config.IsDecoded) (counts : host.library.Counts) (decoded : m.IsDecoded)
    (serves : host.ServesPages m column expression access s)
    (apart : ∀ c, column = some c → c ≠ "limit" ∧ c ≠ "offset")
    (read : ∀ u, (host.world p .null).read u expression = v) (opens : Opens token offset)
    (begun : host.Begins p s.exchange.request u) (given : u.args = pageArguments limit token)
    (noted : ∀ f flag, access = some (.filter f) → f.gateFlag = some flag →
      (u.page ⟨offset, host.pageSize limit⟩).flagged flag = stash.contains flag) :
    host.Serves (Store.select matching) p s ((host.showing m access stash).page
      (matching (pageKey column v)) ⟨offset, host.pageSize limit⟩) := by
  let window : Window := ⟨offset, host.pageSize limit⟩
  let rows := window.slice (matching (pageKey column v))
  obtain ⟨table, asks⟩ := serves.asks
  obtain ⟨sized, _⟩ := pageSize_cast accepted limit
  obtain ⟨t, run, asked⟩ := pageQuery_asks (w := host.world p .null) table window counts
    (wanted_of_args given) opens sized apart read
  let q : Progress := { p with stash := t.stash, args := t.args }
  have sent : host.askInPlace p s.exchange.request = .sent t.output q := by
    rw [askInPlace_eq, ask, begun, asks, run]
  have returned : Store.select matching t.output = .list [.list (rows.map Value.map)] := by
    rw [Store.select, asked.window, asked.conditions]
    rfl
  have flagged : ∀ f flag, access = some (.filter f) → f.gateFlag = some flag →
      q.state.flagged flag = stash.contains flag := by
    intro f flag filters gate
    rw [← noted f flag filters gate, State.flagged, State.flagged, ← asked.stash]
    rfl
  let w := host.world q (Store.select matching t.output)
  obtain ⟨v, answered, _, _, output⟩ := recordList_reaches (w := w) counts (host.told q _) returned
    (noted_of_page asked.stash : Noted window q.state) flagged (localTimes_plain decoded _)
  have responded : host.respondInPlace q (Store.select matching t.output) s.exchange.response =
      some ⟨v.stash, v.args, v.output⟩ := by
    rw [respondInPlace, ofResponse_execInPlace rfl, serves.answers, handOut, answered,
      Progress.ofStep?]
  refine ⟨t.output, ⟨v.stash, v.args, v.output⟩, ?_, asked.window, output⟩
  rw [serveStage, sent]
  simp only [serves.main, if_true, responded]

end Stages

/-! ### Pages of a list -/

section Lists

variable {host : Host} {m : Model} {cluster : Option Cluster} {binding : Binding}
  {flags : List String} {limit : Option Int} {token : Option String} {offset : Nat} {page : Page}

/-- A run that asked the cluster last, and handed out what it answers, handed out a page. -/
theorem page?_of {store : Value → Value} {p : Progress} {s : Stage}
    {others : List (Binding × Value)} (serves : host.Serves store p s page)
    (bound : s.binding.kind = .relationalCluster)
    (apart : ∀ request ∈ others, request.1.kind ≠ .relationalCluster) :
    (Trace.andThen ⟨others, some p⟩ fun p => host.serveStage store p s).page? = some page := by
  obtain ⟨body, q, run, asked, handed⟩ := serves
  have sent : ((others ++ [(s.binding, body)]).filter fun request =>
      request.1.kind = .relationalCluster) = [(s.binding, body)] := by
    rw [List.filter_append, List.filter_eq_nil_iff.mpr (by simpa using apart)]
    simp [bound]
  simp only [Trace.andThen, run, Trace.page?, sent, asked, Option.bind_some, handed,
    Page.ofConnection_connection]

theorem page_withLocalTimes (source : ListSource) (access : Option ItemAccess)
    (fields : List String) :
    (ResultShape.list ⟨source, access, []⟩).withLocalTimes fields =
      .list ⟨source, access, fields⟩ := by
  unfold ResultShape.withLocalTimes
  split
  · next none => rw [List.isEmpty_iff.mp none]
  · rfl

theorem mainOperation_page (relational : m.engine = .relational) (config : Config) (gated : Bool) :
    m.mainOperation config .list gated =
      (.sql (pageQuery (Naming.tableName m.name) none "" config.page),
        .list ⟨.sqlRows 0, m.collectionFilter.map .filter, m.localTimeFields config⟩) := by
  rw [Model.mainOperation, relational]
  dsimp only [Model.relationalMain, Model.readPage]
  rw [page_withLocalTimes]
  rfl

theorem collectionFilter_gate {f : ItemFilter} {flag : String}
    (filters : m.collectionFilter.map ItemAccess.filter = some (.filter f))
    (gate : f.gateFlag = some flag) : flag = filterByOwner := by
  unfold Model.collectionFilter at filters
  cases guarded : m.guardedOwner .read with
  | none => simp [guarded] at filters
  | some owner =>
    simp only [guarded, Option.map_some, Option.some.injEq, ItemAccess.filter.injEq] at filters
    subst filters
    exact (Option.some.inj gate).symm

/-- The stage of a list serves the rows of the table, begun with the flags of its check. -/
theorem listStage_serves {s : Stage} {p : Progress} {u : State} (matching : Entries → List Record)
    (accepted : host.config.IsDecoded) (counts : host.library.Counts) (decoded : m.IsDecoded)
    (serves : host.ServesPages m none "" (m.collectionFilter.map .filter) s)
    (opens : Opens token offset) (begun : host.Begins p s.exchange.request u)
    (given : u.args = pageArguments limit token)
    (flagged : u.flagged filterByOwner = flags.contains filterByOwner) :
    host.Serves (Store.select matching) p s
      ((host.showing m (m.collectionFilter.map .filter) flags).page (matching [])
        ⟨offset, host.pageSize limit⟩) := by
  have apart : ∀ c : String, none = some c → c ≠ "limit" ∧ c ≠ "offset" := nofun
  have read : ∀ u, (host.world p .null).read u "" = host.library.written "" := by
    simp [World.read, world]
  have noted : ∀ f flag, m.collectionFilter.map ItemAccess.filter = some (.filter f) →
      f.gateFlag = some flag →
        (u.page ⟨offset, host.pageSize limit⟩).flagged flag = flags.contains flag := by
    intro f flag filters gate
    rw [collectionFilter_gate filters gate, State.page, State.flagged_flag_of_ne (by decide),
      State.flagged_flag_of_ne (by decide), flagged]
  have served := stage_serves host matching accepted counts decoded serves apart read opens begun
    given noted
  have unbound : pageKey none (host.library.written "") = [] := rfl
  rwa [unbound] at served

/-- What the function of a hook returns is kept under a key of its own. -/
theorem hookStage_serves (host : Host) (store : Value → Value) (p : Progress) (m : Model)
    (field : RootField) (phase : HookPhase) :
    ∃ sent q, host.serveStages store p (m.hookStage field phase) = ⟨sent, some q⟩ ∧
      (∀ request ∈ sent, request.1.kind ≠ .relationalCluster) ∧ q.args = p.args ∧
      ∀ flag, flag ≠ hookName phase field.operation ++ "Result" →
        q.state.flagged flag = p.state.flagged flag := by
  unfold Model.hookStage
  split
  · next function named =>
    let hook := functionStage m.name (Naming.rootField m.name field) function field.operation phase
    obtain ⟨body, q, run, args, _, flags⟩ := functionStage_run host p (Eq.refl hook)
    have called : host.serveStage store p hook = host.runStage p hook := by
      refine serveStage_eq (fun main => ?_) (by simp [hook, functionStage])
      cases phase <;> cases main
    refine ⟨[(Binding.forFunction function, body)], q, ?_, ?_, args, flags⟩
    · rw [serveStages_single]
      exact called.trans run
    · simp [Binding.forFunction]
  · exact ⟨[], p, rfl, by simp, rfl, fun _ _ => rfl⟩

/-- A pipeline hands out what its stages do, which go on from its own request. -/
theorem serve_pipeline {field : RootField} {fetch : List Stage} {t : State}
    (store : Value → Value) (begun : host.Begins host.start
      (m.pipelineResolver host.config field binding fetch).exchange.request t) :
    ∃ p : Progress, p.state.stash = t.stash ∧ p.args = t.args ∧
      host.serve store (m.pipelineResolver host.config field binding fetch) =
        host.serveStages store p (m.hookStage field .before ++ fetch ++
          [m.mainStage host.config field binding] ++ m.hookStage field .after) := by
  let exchange := m.pipelineExchange field (m.authCheck field.operation field.scope)
  obtain ⟨body, sent⟩ : ∃ body, host.askInPlace host.start exchange.request =
      .sent body ⟨t.stash, t.args, .null⟩ := by
    simp only [Begins, Model.pipelineResolver] at begun
    rw [askInPlace_eq, ask, begun]
    exact ⟨_, rfl⟩
  have passed : ∀ q, host.respondInPlace q q.previous exchange.response = some q := by
    intro q
    rw [respondInPlace_eq _ (by simp [exchange, Model.pipelineExchange]), respond,
      ofResponse_exec rfl]
    simp only [exchange, Model.pipelineExchange, handOut, Script.exec_acts_cons,
      Script.exec_acts_nil, Action.perform, Step.next_andThen, eval_result]
    rfl
  refine ⟨⟨t.stash, t.args, body.field "payload"⟩, rfl, rfl, ?_⟩
  simp only [exchange] at sent passed
  simp only [serve, Model.pipelineResolver, sent, passed, Option.bind_fun_some]

/-- With the arguments of a page, a list hands out the page where its token says, shown to the
caller by the flags of the check. -/
theorem list_serves {r : RootResolver} (matching : Entries → List Record)
    (accepted : host.config.IsDecoded) (counts : host.library.Counts) (decoded : m.IsDecoded)
    (relational : m.engine = .relational)
    (resolved : m.resolver host.config cluster .list = .ok r)
    (admitted : (m.authCheck .read .collection).flagsFor host.call.caller = some flags)
    (given : host.call.args = pageArguments limit token) (opens : Opens token offset) :
    (host.serve (Store.select matching) r).page? =
      some ((host.showing m (m.collectionFilter.map .filter) flags).page (matching [])
        ⟨offset, host.pageSize limit⟩) := by
  have asks := ask_first host (by decide) resolved
  have allowed : (m.authCheck RootField.list.operation RootField.list.scope).flagsFor
      host.call.caller = some flags := admitted
  rw [allowed] at asks
  obtain ⟨t, flagged, args, begun⟩ := asks
  have given := args.trans given
  have operation := mainOperation_page relational host.config (m.isGated .list)
  obtain ⟨binding, bound, _, ⟨_, rfl⟩ | ⟨_, fetch, fetched, rfl⟩⟩ := Model.resolver_ok resolved
  all_goals have cluster := (Binding.forModel_kind bound).2 relational
  -- A unit asks with the flags in its own stash; in a pipeline they come by way of the hook.
  · let s : Stage := ⟨Naming.rootField m.name .list, .main, binding,
      (m.unitResolver host.config .list binding).exchange⟩
    have serves : host.ServesPages m none "" (m.collectionFilter.map .filter) s :=
      ⟨rfl, cluster, ⟨_, congrArg Prod.fst operation⟩, congrArg Prod.snd operation⟩
    have served := listStage_serves matching accepted counts decoded serves opens begun given
      (flagged _)
    exact page?_of served cluster (List.forall_mem_nil _)
  · obtain rfl : [] = fetch := Except.ok.inj fetched
    let s := m.mainStage host.config .list binding
    have serves : host.ServesPages m none "" (m.collectionFilter.map .filter) s :=
      ⟨rfl, cluster, ⟨_, congrArg Prod.fst operation⟩, congrArg Prod.snd operation⟩
    obtain ⟨p, stash, kept, staged⟩ := serve_pipeline (Store.select matching) begun
    obtain ⟨hooked, q, before, apart, unchanged, unset⟩ := hookStage_serves host
      (Store.select matching) p m .list .before
    have filtered : q.state.flagged filterByOwner = flags.contains filterByOwner := by
      rw [unset _ (by decide), State.flagged, stash, ← flagged]
      rfl
    have opened : host.Begins q s.exchange.request q.state := ofRequest_open rfl rfl
    have served := listStage_serves matching accepted counts decoded serves opens opened
      (unchanged.trans (kept.trans given)) filtered
    have unhooked : m.hookStage .list .after = [] := rfl
    rw [staged, unhooked, List.append_nil, List.append_nil, serveStages_append, before]
    simp only [serveStages_single]
    exact page?_of served cluster apart

theorem list_paged {r : RootResolver} (matching : Entries → List Record)
    (accepted : host.config.IsDecoded) (counts : host.library.Counts) (decoded : m.IsDecoded)
    (relational : m.engine = .relational)
    (resolved : m.resolver host.config cluster .list = .ok r)
    (admitted : (m.authCheck .read .collection).flagsFor host.call.caller = some flags) :
    Paged (host.listPage (Store.select matching) r) host.pageSize (matching [])
      (host.showing m (m.collectionFilter.map .filter) flags) where
  positive limit := (pageSize_cast accepted limit).2
  answers limit token _ opens := (host.asking limit token).list_serves matching accepted counts
    decoded relational resolved admitted rfl opens

end Lists

/-! ### Pages of a relationship -/

/-- The key by which the records of a relationship find the one that it starts from. -/
def linkKey (host : Host) : Value :=
  (host.world host.start .null).read host.start.state (sourceField host.config.identifierField)

section Links

variable {host : Host} {m : Model} {cluster : Option Cluster} {t : TraversalResolver}

theorem itemAccess_ungated {f : ItemFilter} (filters : m.itemAccess = .filter f) :
    f.gateFlag = none := by
  unfold Model.itemAccess at filters
  cases controlled : m.accessControl with
  | none => simp [controlled] at filters
  | some access =>
    simp only [controlled] at filters
    split at filters
    · cases standard : access.default <;> simp [standard] at filters
    · obtain rfl := ItemAccess.filter.inj filters
      rfl

/-- A relationship with many asks for pages of the rows that have its key in their column. -/
theorem traversal_page {source : Model} {config : Config} {name : String}
    {lookup : String → Option Model} {r : Relationship} (relational : m.engine = .relational)
    (resolved : source.traversal config cluster lookup name r = .ok t)
    (found : lookup r.target = some m) (many : r.kind = .hasMany) :
    t.binding.kind = .relationalCluster ∧
      t.exchange.request.auth = none ∧ t.exchange.request.gate = none ∧
      t.exchange.request.operation = .sql (pageQuery (Naming.tableName m.name)
        (some t.foreignKey) (sourceField config.identifierField) config.page) ∧
      t.exchange.response.shape =
        .list ⟨.sqlRows 0, some m.itemAccess, m.localTimeFields config⟩ := by
  obtain ⟨target, operation, shape, binding, looked, reached, bound, rfl⟩ :=
    Model.traversal_eq resolved
  obtain rfl := Option.some.inj (found.symm.trans looked)
  rw [Model.traversalTo, relational, many] at reached
  obtain ⟨rfl, rfl⟩ := Prod.mk.inj (Option.some.inj reached)
  exact ⟨(Binding.forModel_kind bound).2 relational, rfl, rfl, rfl, page_withLocalTimes _ _ _⟩

/-- A relationship with many serves the rows that are linked with the record of its start. -/
theorem link_paged {source : Model} {name : String} {lookup : String → Option Model}
    {r : Relationship} (matching : Entries → List Record) (accepted : host.config.IsDecoded)
    (counts : host.library.Counts) (decoded : m.IsDecoded) (relational : m.engine = .relational)
    (resolved : source.traversal host.config cluster lookup name r = .ok t)
    (found : lookup r.target = some m) (many : r.kind = .hasMany)
    (apart : t.foreignKey ≠ "limit" ∧ t.foreignKey ≠ "offset") :
    Paged (host.linkPage (Store.select matching) t) host.pageSize
      (matching (pageKey (some t.foreignKey) host.linkKey))
      (host.showing m (some m.itemAccess) []) where
  positive limit := (pageSize_cast accepted limit).2
  answers limit token offset opens := by
    let asking := host.asking limit token
    let s : Stage := ⟨t.fieldName, .main, t.binding, t.exchange⟩
    obtain ⟨bound, unasked, ungated, asks, answers⟩ := traversal_page relational resolved found many
    have serves : asking.ServesPages m (some t.foreignKey)
        (sourceField host.config.identifierField) (some m.itemAccess) s :=
      ⟨rfl, bound, ⟨_, asks⟩, answers⟩
    have named : ∀ c, some t.foreignKey = some c → c ≠ "limit" ∧ c ≠ "offset" := by
      intro c same
      obtain rfl := Option.some.inj same
      exact apart
    have read : ∀ u, (asking.world asking.start .null).read u
        (sourceField host.config.identifierField) = host.linkKey := fun u => read_source _ u _
    have begun : asking.Begins asking.start s.exchange.request asking.start.state :=
      ofRequest_open unasked ungated
    have noted : ∀ f flag, some m.itemAccess = some (.filter f) → f.gateFlag = some flag →
        (asking.start.state.page ⟨offset, asking.pageSize limit⟩).flagged flag =
          List.contains [] flag := by
      intro f flag filters gate
      rw [itemAccess_ungated (Option.some.inj filters)] at gate
      cases gate
    have served := stage_serves asking matching accepted counts decoded serves named read opens
      begun rfl noted
    exact page?_of served bound (List.forall_mem_nil _)

end Links

end Host

/-- Whatever limits a caller sends along, the walk over the pages of a list ends and has then
visited every row of the table once, and so does the walk over those of a relationship with
many for the rows that are linked.  It has seen those rows that the filter of the response
admits, as they are but for local times. -/
theorem pages_visited_once {host : Host} {models : List Model} {m : Model}
    (matching : Entries → List Record) (limits : Nat → Option Int)
    (accepted : host.config.IsDecoded) (counts : host.library.Counts) (decoded : m.IsDecoded)
    (relational : m.engine = .relational) :
    (∀ c, m.compile host.config models = .ok c → ∃ list, c.resolver .list = .ok list ∧
      ∀ flags, (m.authCheck .read .collection).flagsFor host.call.caller = some flags →
        WalksOnce (host.listPage (Store.select matching) list) host.pageSize limits (matching [])
          (host.showing m (m.collectionFilter.map .filter) flags)) ∧
    (∀ (source : Model) c, source.compile host.config models = .ok c → ∀ t ∈ c.traversals,
      modelNamed models t.relationship.target = some m → t.relationship.kind = .hasMany →
        t.foreignKey ≠ "limit" → t.foreignKey ≠ "offset" →
          WalksOnce (host.linkPage (Store.select matching) t) host.pageSize limits
            (matching (pageKey (some t.foreignKey) host.linkKey))
            (host.showing m (some m.itemAccess) [])) ∧
    ∀ access stash, (host.showing m access stash).AddsTimes (m.localTimeFields host.config) := by
  refine ⟨?_, ?_, host.showing_addsTimes m⟩
  · intro c compiled
    obtain ⟨list, listed, resolved⟩ := Model.compile_resolver compiled .list
    refine ⟨list, listed, fun flags admitted => ?_⟩
    exact (Host.list_paged matching accepted counts decoded relational resolved
      admitted).walksOnce limits
  · intro source c compiled t member found many limit offset
    obtain ⟨_, related, _⟩ := Model.compileWith_ok compiled
    obtain ⟨named, _, resolved⟩ := mem_of_mapM_ok related t member
    obtain ⟨_, _, _, _, _, _, _, same⟩ := Model.traversal_eq resolved
    have relationship : t.relationship = named.2 := by rw [same]; rfl
    rw [relationship] at found many
    exact (Host.link_paged matching accepted counts decoded relational resolved found many
      ⟨limit, offset⟩).walksOnce limits

def repliedNote : Value := .object [
  ("name", .text "Note"),
  ("properties", .object [
    ("id", .object [("type", .text "ID")]),
    ("author", .object [("type", .text "String"), ("isOwner", .bool true)])]),
  ("dataSource", .object [("type", .text "database"), ("engine", .text "sql"),
    ("cluster", .object [("name", .text "main"), ("secretRef", .text "secret"),
      ("database", .text "notes")])]),
  ("relationships", .object [
    ("replies", .object [("type", .text "hasMany"), ("target", .text "Note")])]),
  ("accessControl", .object [("rules", .list [
    .object [("allow", .text "read"), ("groups", .texts ["staff"])],
    .object [("allow", .text "read"), ("owner", .bool true)]])])]

def noteBy (id author : String) : Record := [(.text "id", .text id), (.text "author", .text author)]

def notes : List Record := [noteBy "n1" "ann", noteBy "n2" "bob", noteBy "n3" "ann"]

def annLists : Host where
  config := .default
  library := {
    call
      | "", "parseJson", [.scalar (.text s)] => .int (Nat.ofDigitChars 10 s.toList 0 : Nat)
      | _, _, _ => .null
    written := .text
    print
      | .scalar (.int i) => toString i.toNat
      | _ => "" }
  call := ⟨⟨some "ann", none⟩, .null, .object [("id", .text "n1")], .null⟩
  reply _ := .null

/-- She asks for pages of two. -/
theorem pages_visited_once_repliedNote :
    ∃ m c list replies, Model.decode repliedNote = .ok m ∧ m.compile .default [m] = .ok c ∧
      c.resolver .list = .ok list ∧ replies ∈ c.traversals ∧
      (∃ pages, Walk (annLists.listPage (Store.select fun _ => notes) list) (fun _ => some 2) none
          pages ∧ pages.flatMap (fun page => page.window.slice notes) = notes ∧
        pages.flatMap Page.items = [.map (noteBy "n1" "ann"), .map (noteBy "n3" "ann")]) ∧
      WalksOnce (annLists.linkPage (Store.select fun _ => notes) replies) annLists.pageSize
        (fun _ => some 2) notes (annLists.showing m (some m.itemAccess) []) := by
  obtain ⟨m, c, replies, read, compiled, relational, filter, untimed, admitted, member, related,
      keyed, named⟩ :
      ∃ m c replies, Model.decode repliedNote = .ok m ∧ m.compile .default [m] = .ok c ∧
        m.engine = .relational ∧
        m.collectionFilter = some ⟨[], some "author", some filterByOwner⟩ ∧
        m.localTimeFields .default = [] ∧
        (m.authCheck .read .collection).flagsFor annLists.call.caller = some [filterByOwner] ∧
        replies ∈ c.traversals ∧ replies.relationship = ⟨.hasMany, "Note", none⟩ ∧
        replies.foreignKey = "noteId" ∧ modelNamed [m] "Note" = some m :=
    ⟨_, _, _, rfl, rfl, rfl, rfl, rfl, rfl, List.mem_cons_self, rfl, rfl, rfl⟩
  have accepted : annLists.config.IsDecoded := ⟨.map [], rfl⟩
  have counts : annLists.library.Counts := by
    refine ⟨fun n => rfl, fun n => ?_⟩
    have read : Nat.ofDigitChars 10 (toString n).toList 0 = n := by
      rw [Nat.toString_eq_repr, Nat.toList_repr, Nat.ofDigitChars_ten_toDigits]
    exact congrArg (fun k : Nat => Value.int k) read
  have generated : m.compile annLists.config [m] = .ok c := compiled
  obtain ⟨lists, links, times⟩ := pages_visited_once (fun _ => notes) (fun _ => some 2) accepted
    counts ⟨repliedNote, read⟩ relational
  obtain ⟨list, found, walks⟩ := lists c generated
  obtain ⟨pages, walk, visits⟩ := walks _ admitted
  have shown : (annLists.showing m (m.collectionFilter.map .filter) [filterByOwner]).items notes =
      [.map (noteBy "n1" "ann"), .map (noteBy "n3" "ann")] := by
    have same := (times (m.collectionFilter.map .filter) [filterByOwner]).plain untimed
    rw [Showing.items, List.map_congr_left fun r _ => same r, List.map_id', Host.showing, filter]
    rfl
  refine ⟨m, c, list, replies, read, compiled, found, member,
    ⟨pages, (walk pages).mpr rfl, visits.whole, visits.items.trans shown⟩, ?_⟩
  exact links m c generated replies member (by rw [related]; exact named) (by rw [related])
    (by rw [keyed]; decide) (by rw [keyed]; decide)

end ApiLoom
