import Mathlib.Algebra.BigOperators.Group.List.Basic
import Mathlib.Algebra.Ring.Nat
import ApiLoom.Proofs.CreateRequests
import ApiLoom.Proofs.DisciplinedResolvers
import ApiLoom.Proofs.Quiet
import ApiLoom.Proofs.Surface

/-!
# Stamping owners

The caller becomes the owner of a record by one line in the templates of its model.  It
stands in the request of the create, behind the one place where that request refuses; no
other template of the model has it.
-/

namespace ApiLoom

open Text (Quiet lineCount joined)

/-! ### Lines of templates -/

namespace Template

open Script

variable {owner : String}

/-- The line that writes the caller into the owner property of the input. -/
def stampLine (owner : String) : String :=
  "$util.qr($ctx.args.input.put(\"" ++ owner ++ "\", $userId))"

def stampComment (owner : String) : String :=
  "## " ++ s!"Stamp the caller as {owner} of the new record"

theorem stampLine_toList (owner : String) : (stampLine owner).toList =
    "$util.qr($ctx.args.input.put(\"".toList ++ (owner.toList ++ "\", $userId))".toList) := by
  unfold stampLine
  simp only [String.toList_append, List.append_assoc]

theorem stampLine_writes (owner : String) :
    Text.inputWrite.toList <+: (stampLine owner).toList := by
  rw [stampLine_toList]
  exact List.IsPrefix.trans (by decide) (List.prefix_append _ _)

theorem stampOwner_lines (owner : String) :
    (stampOwner owner).lines = [stampComment owner, stampLine owner] := by
  have line : "$util.qr(" ++ ((Term.arguments.member "input").call "put"
      [.plain owner, .var "userId"]).text ++ ")" = stampLine owner := by
    apply String.toList_injective
    rw [stampLine_toList]
    simp only [Term.text, Term.texts, Term.arguments, Term.context,
      String.intercalate_cons_cons, String.intercalate_singleton, String.toList_append,
      List.append_assoc]
    rfl
  simp only [stampOwner, acts, lines, Action.lines, line, stampComment, List.cons_append,
    List.nil_append]

theorem Script.text_toList {s : Script} (filled : s.lines ≠ []) :
    s.text.toList = joined s.lines := by
  rw [text]
  generalize s.lines = lines at filled
  induction lines with
  | nil => exact absurd rfl filled
  | cons line rest ih =>
    cases rest with
    | nil => simp [joined]
    | cons next later =>
      have tail := ih (List.cons_ne_nil _ _)
      rw [String.intercalate_cons_cons, String.append_assoc, String.append_assoc,
        String.toList_append, String.toList_append, tail]
      simp [joined]

theorem lineCount_calm {s : Script} (calm : s.Obeys .calm) (filled : s.lines ≠ []) :
    lineCount (stampLine owner) s.text = 0 := by
  have counted := Text.startsFrom_quiet (stampLine_writes owner) (Script.lines_quiet calm) []
  rwa [List.append_nil, ← Script.text_toList filled] at counted

theorem lineCount_stamped {first last : Script} (before : first.Obeys .calm)
    (after : last.Obeys .calm) (owned : Text.Calm owner) :
    lineCount (stampLine owner) (first ++ stampOwner owner ++ last).text = 1 := by
  have writes := stampLine_writes owner
  have comment : Quiet (stampComment owner) := .of_runs
    ((by decide : Text.Runs true false "## ").append
      (((by decide : Text.Runs false false "Stamp the caller as ").append owned).append
        (by decide : Text.Runs true true " of the new record")))
  have line : Text.Calm (stampLine owner) :=
    ((by decide : Text.Runs false false "$util.qr($ctx.args.input.put(\"").append owned).append
      (by decide : Text.Runs true true "\", $userId))")
  have whole : (first ++ stampOwner owner ++ last).text.toList =
      joined (first.lines ++ [stampComment owner]) ++
        ((stampLine owner).toList ++ '\n' :: (joined last.lines ++ [])) := by
    rw [Script.text_toList (by simp [Script.lines_append, stampOwner_lines]),
      Script.lines_append, Script.lines_append, stampOwner_lines]
    simp [joined]
  rw [lineCount, whole, Text.startsFrom_quiet writes, Text.startsFrom_self writes line,
    Text.startsFrom_quiet writes (Script.lines_quiet after)]
  · rfl
  · exact List.forall_mem_append.mpr
      ⟨Script.lines_quiet before, List.forall_mem_singleton.mpr comment⟩

end Template

open Template

/-! ### What is written as it is given -/

/-- The settings that are written into templates as they are. -/
structure Config.IsCalm (config : Config) : Prop where
  identifier : Text.Calm config.identifierField
  updated : Text.Calm config.updatedAtField
  version : Text.Calm config.templateVersion
  queue : Text.Calm config.queueUrlStashKey

/-- The texts of a model that are no names and are written into templates as they are. -/
structure Model.IsCalm (m : Model) : Prop where
  groups : ∀ access ∈ m.accessControl, ∀ rule ∈ access.rules, ∀ group ∈ rule.groups,
    Text.Calm group
  hooks : ∀ phase operation, ∀ function ∈ m.hooks.hookFor phase operation, Text.Calm function
  foreignKeys : ∀ r ∈ m.relationships, ∀ key ∈ r.2.foreignKey, Text.Calm key

theorem Config.IsCalm.obeys {config : Config} (calm : config.IsCalm) : config.Obeys .calm :=
  ⟨calm.identifier, calm.updated, calm.version, trivial, fun _ _ => trivial⟩

theorem Model.IsCalm.obeys {m : Model} (calm : m.IsCalm) : m.Obeys .calm :=
  ⟨calm.groups, calm.hooks⟩

/-! ### Exchanges -/

namespace Exchange

variable {e : Exchange} {config : Config} {owner : String}

/-- The exchange makes nobody the owner of a record. -/
def IsUnstamped (e : Exchange) : Prop :=
  ∀ check, e.request.auth = some (.rules check) → check.stamp = none

/-- How often the templates of the exchange make the caller the owner. -/
def stampCount (e : Exchange) (config : Config) (owner : String) : Nat :=
  lineCount (stampLine owner) (e.requestText config) +
    lineCount (stampLine owner) (e.responseText config)

theorem isUnstamped_of_auth (unasked : e.request.auth = none) : e.IsUnstamped := by
  intro check asked
  rw [unasked] at asked
  cases asked

section Calm

variable (settings : config.Obeys .calm)

include settings

theorem responseText_unstamped (calm : e.response.Obeys .calm) :
    lineCount (stampLine owner) (e.responseText config) = 0 :=
  lineCount_calm (ofResponse_obeys settings calm) (by
    simp [ofResponse, Script.lines_append, Script.acts, Script.lines, Action.lines])

theorem stampCount_unstamped (calm : e.Obeys .calm) (unstamped : e.IsUnstamped) :
    e.stampCount config owner = 0 := by
  have decided : ∀ check ∈ e.request.auth, (authorize config check).Obeys .calm := by
    intro check asked
    refine authorize_obeys settings calm_isOpen (calm.request.auth check asked) ?_
    rintro c owner rfl stamped
    rw [unstamped c asked] at stamped
    cases stamped
  have request : lineCount (stampLine owner) (e.requestText config) = 0 :=
    lineCount_calm
      (ofRequest_obeys settings calm.request (calm.request.operation.marked calm_marks) decided) (by
        simp [ofRequest, Script.lines_append, Script.acts, Script.lines, Action.lines])
  rw [stampCount, request, responseText_unstamped settings calm.response]

theorem stampCount_stamped {first last : Script}
    (parts : ofRequest config e.request = first ++ stampOwner owner ++ last)
    (before : first.Obeys .calm) (after : last.Obeys .calm) (owned : Text.Calm owner)
    (calm : e.response.Obeys .calm) : e.stampCount config owner = 1 := by
  have request : lineCount (stampLine owner) (e.requestText config) = 1 := by
    unfold requestText
    rewrite [parts]
    exact lineCount_stamped before after owned
  simp only [stampCount, request, responseText_unstamped settings calm]

end Calm

end Exchange

namespace CompiledModel

/-- The texts of all templates of a model. -/
def templates (c : CompiledModel) (config : Config) : List String :=
  (Compilation.modelExchanges c).flatMap fun e =>
    [e.2.requestText config, e.2.responseText config]

/-- How often the templates make the caller the owner of a record. -/
def stampCount (c : CompiledModel) (config : Config) (owner : String) : Nat :=
  ((c.templates config).map (lineCount (stampLine owner))).sum

theorem stampCount_eq_sum (c : CompiledModel) (config : Config) (owner : String) :
    c.stampCount config owner =
      ((Compilation.modelExchanges c).map fun e => e.2.stampCount config owner).sum := by
  simp [stampCount, templates, List.flatMap_def, Function.comp_def, Exchange.stampCount]

theorem stampCount_eq (c : CompiledModel) (config : Config) (owner : String) :
    c.stampCount config owner =
      (c.resolvers.map fun r => r.exchange.stampCount config owner +
        (r.stages.map fun s => s.exchange.stampCount config owner).sum).sum +
      (c.traversals.map fun t => t.exchange.stampCount config owner).sum +
      (c.sides.map fun r => r.exchange.stampCount config owner).sum := by
  simp [stampCount_eq_sum, Compilation.modelExchanges, sides, List.flatMap_def, Function.comp_def,
    Nat.add_assoc]

end CompiledModel

/-! ### Requests that stamp -/

/-- The request decides about the caller, refuses at one place, stamps the owner, and then asks
the store. -/
structure RequestPlan.StampsDecided (plan : RequestPlan) (config : Config) (owner : String)
    (before note : Script) : Prop where
  script : ofRequest config plan = before ++ Script.whenNot .isAuthorized
    (note ++ Script.acts [.refuse]) ++ stampOwner owner ++ perform config plan.operation
  lines : (ofRequest config plan).lines =
    before.lines ++
      "#if(!$isAuthorized)" :: Script.shift (note.lines ++ ["$util.unauthorized()"]) ++
      ["#end", stampComment owner, stampLine owner] ++ (perform config plan.operation).lines
  before : before.Only Action.computes
  note : note.Only Action.computes
  after : (perform config plan.operation).Only Action.asks

theorem ofRequest_stamped (config : Config) {plan : RequestPlan} {check : RuleCheck}
    {owner : String} (asked : plan.auth = some (.rules check)) (ungated : plan.gate = none)
    (stamped : check.stamp = some owner) :
    plan.StampsDecided config owner
      (Script.acts [.comment plan.description] ++ deliberation config check)
      (denialNote config check) := by
  have script : ofRequest config plan =
      Script.acts [.comment plan.description] ++ deliberation config check ++
        Script.whenNot .isAuthorized (denialNote config check ++ Script.acts [.refuse]) ++
          stampOwner owner ++ perform config plan.operation := by
    simp only [ofRequest, asked, ungated, nonEmpty, Option.filter_none, authorize, ruleCheck_parts,
      stamped, Option.elim_some, denial, Script.append_assoc, Script.done_append]
  have opening : "#if(" ++ (Cond.fails Term.isAuthorized).text ++ ")" = "#if(!$isAuthorized)" :=
    rfl
  refine ⟨script, ?_, ?_, denialNote_computes, perform_asks config plan.operation⟩
  · simp only [script, Script.lines_append, stampOwner_lines, Script.whenNot, Script.when,
      Script.lines, opening, Script.isDone, if_true, Script.acts, Action.lines, List.append_nil,
      List.append_assoc, List.cons_append, List.nil_append]
  · exact Script.only_append.mpr ⟨by simp [Action.computes], deliberation_computes⟩

namespace Model

variable {m : Model} {models : List Model} {config : Config} {cluster : Option Cluster}
  {field : RootField} {r : RootResolver} {owner : String}

namespace IsDecoded

variable (decoded : m.IsDecoded) (texts : m.IsCalm) (settled : config.IsCalm)

include decoded texts settled in
theorem resolver_calm (resolved : m.resolver config cluster field = .ok r) :
    r.exchange.Obeys .calm ∧
      ∀ s ∈ r.stages, s.exchange.Obeys .calm ∧ s.exchange.request.auth = none :=
  decoded.resolver_obeys texts.obeys settled.obeys calm_isOpen settled.queue resolved

include decoded texts settled in
theorem stages_stampCount (resolved : m.resolver config cluster field = .ok r) :
    (r.stages.map fun s => s.exchange.stampCount config owner).sum = 0 := by
  obtain ⟨_, calm⟩ := decoded.resolver_calm texts settled resolved
  refine List.sum_eq_zero (List.forall_mem_map.mpr fun s member => ?_)
  exact Exchange.stampCount_unstamped settled.obeys (calm s member).1
    (Exchange.isUnstamped_of_auth (calm s member).2)

include decoded texts settled in
theorem resolver_stampCount_none (resolved : m.resolver config cluster field = .ok r)
    (plain : field ≠ .create ∨ m.ownerField = none ∨ ¬ m.RulesCreate) :
    r.exchange.stampCount config owner = 0 := by
  obtain ⟨asked, _⟩ := resolver_request resolved
  obtain ⟨calm, _⟩ := decoded.resolver_calm texts settled resolved
  refine Exchange.stampCount_unstamped settled.obeys calm fun check same => ?_
  have rules := Option.some.inj (asked.symm.trans same)
  by_cases creates : field = .create
  · subst creates
    exact create_unstamped (plain.resolve_left (fun other => other rfl)) rules
  · refine authCheck_unstamped ?_ rules
    cases field <;> simp_all [RootField.operation]

include decoded texts settled in
theorem resolver_stampCount_create (resolved : m.resolver config cluster .create = .ok r)
    (owned : m.ownerField = some owner) (ruled : m.RulesCreate) :
    r.exchange.stampCount config owner = 1 := by
  obtain ⟨asked, ungated⟩ := resolver_request resolved
  obtain ⟨check, rules, stamped⟩ := create_stamps .item owned ruled
  obtain ⟨⟨request, response⟩, _⟩ := decoded.resolver_calm texts settled resolved
  have settings := settled.obeys
  have asked := asked.trans (congrArg some rules)
  have obeys : check.Obeys .calm := request.auth _ asked
  have text := (ofRequest_stamped config asked ungated stamped).script
  have first : (Script.acts [.comment r.exchange.request.description] ++
      deliberation config check ++ denial config check).Obeys .calm := by
    simp only [Script.obeys_append]
    exact ⟨⟨Script.obeys_acts.mpr (List.forall_mem_singleton.mpr request.description),
      deliberation_obeys settings calm_isOpen obeys⟩, denial_obeys calm_isOpen obeys⟩
  have last : (perform config r.exchange.request.operation).Obeys .calm :=
    perform_obeys settings request.operation (request.operation.marked calm_marks)
  exact Exchange.stampCount_stamped settings text first last
    (.plain ((decoded.owner_isName owned).notMem rfl)) response

include decoded texts settled in
theorem traversals_stampCount (owner : String) (known : ∀ m ∈ models, m.IsDecoded)
    {c : CompiledModel} (compiled : m.compile config models = .ok c) :
    (c.traversals.map fun t => t.exchange.stampCount config owner).sum = 0 := by
  obtain ⟨_, related, _⟩ := compileWith_ok compiled
  refine List.sum_eq_zero (List.forall_mem_map.mpr fun t member => ?_)
  obtain ⟨⟨name, relation⟩, listed, resolved⟩ := mem_of_mapM_ok related t member
  have target : ∀ target, modelNamed models relation.target = some target →
      target.IsDecoded ∧ target.EachGroup (Discipline.quoted .calm) := by
    intro target found
    exact ⟨known target (mem_of_modelNamed found).1, fun _ _ _ _ _ _ => trivial⟩
  have key : Text.Calm (foreignKeyOf m relation) := by
    obtain ⟨reached, _, _, _, found, _⟩ := traversal_eq resolved
    obtain ⟨among, named⟩ := mem_of_modelNamed found
    exact foreignKeyOf_text (d := .calm) decoded (known reached among) named
      (texts.foreignKeys _ listed)
  have field := Text.isName_of_isIdentifier (decoded.relationship_identifier listed)
  have calm := decoded.traversal_obeys settled.obeys calm_isOpen target field key resolved
  obtain ⟨_, _, _, _, _, _, _, _, unasked, _⟩ := traversal_ok resolved
  exact Exchange.stampCount_unstamped settled.obeys calm (Exchange.isUnstamped_of_auth unasked)

omit decoded in
/-- Subscriptions and lookups of results are reads. -/
theorem side_auth {r : SideResolver}
    (listed : r ∈ m.subscriptions ++ (m.jobResultLookup config).toList) :
    ∃ scope, r.exchange.request.auth = some (m.authCheck .read scope) := by
  rcases List.mem_append.mp listed with subscribed | lookedUp
  · unfold subscriptions at subscribed
    split at subscribed
    · obtain ⟨field, _, rfl⟩ := List.mem_map.mp subscribed
      exact ⟨.collection, rfl⟩
    · cases subscribed
  · rw [Option.mem_toList, jobResultLookup] at lookedUp
    split at lookedUp
    · obtain rfl := Option.some.inj lookedUp
      exact ⟨.item, rfl⟩
    · cases lookedUp

include decoded texts settled in
/-- A read stamps nobody. -/
theorem sides_stampCount (owner : String) {c : CompiledModel}
    (compiled : m.compile config models = .ok c) :
    (c.sides.map fun r => r.exchange.stampCount config owner).sum = 0 := by
  obtain ⟨_, _, subscriptions, results⟩ := compileWith_ok compiled
  refine List.sum_eq_zero (List.forall_mem_map.mpr fun r member => ?_)
  have listed : r ∈ m.subscriptions ++ (m.jobResultLookup config).toList := by
    rwa [CompiledModel.sides, subscriptions, results] at member
  refine Exchange.stampCount_unstamped settled.obeys (decoded.side_obeys texts.obeys listed) ?_
  intro check asked
  obtain ⟨scope, reads⟩ := side_auth listed
  exact authCheck_unstamped (by decide) (Option.some.inj (reads.symm.trans asked))

include decoded texts settled in
/-- Of all templates of a model, only those of the create resolver can stamp. -/
theorem stampCount_eq_resolver (owner : String) (known : ∀ m ∈ models, m.IsDecoded)
    {c : CompiledModel} (compiled : m.compile config models = .ok c)
    (creates : m.resolver config (sharedCluster models config) .create = .ok r) :
    c.stampCount config owner = r.exchange.stampCount config owner := by
  obtain ⟨resolved, _⟩ := compileWith_ok compiled
  have traversals := decoded.traversals_stampCount texts settled owner known compiled
  have sides := decoded.sides_stampCount texts settled owner compiled
  have roots : (c.resolvers.map fun r => r.exchange.stampCount config owner +
      (r.stages.map fun s => s.exchange.stampCount config owner).sum) =
      RootField.all.map fun field =>
        if field = .create then r.exchange.stampCount config owner else 0 := by
    refine map_eq_of_mapM_ok (fun field other made => ?_) resolved
    rw [decoded.stages_stampCount texts settled made, Nat.add_zero]
    split
    · next create =>
      subst create
      rw [Except.ok.inj (made.symm.trans creates)]
    · next apart => exact decoded.resolver_stampCount_none texts settled made (Or.inl apart)
  rw [CompiledModel.stampCount_eq, roots, traversals, sides]
  simp [RootField.all]

end IsDecoded

end Model

/-- The caller is stamped as the owner of a new record in one place, where there are an owner
property and rules for creates, and then only after the create was granted. -/
theorem owner_stamped_once {config : Config} {models : List Model} {m : Model} {c : CompiledModel}
    (decoded : ∀ m ∈ models, m.IsDecoded) (member : m ∈ models)
    (compiled : m.compile config models = .ok c) (texts : m.IsCalm)
    (settled : config.IsCalm) :
    (∀ owner, m.ownerField = some owner → m.RulesCreate → c.stampCount config owner = 1) ∧
      (m.ownerField = none ∨ ¬ m.RulesCreate → ∀ owner, c.stampCount config owner = 0) ∧
      ∃ r, c.resolver .create = .ok r ∧
        (∀ owner, m.ownerField = some owner → m.RulesCreate →
          ∃ before note, r.exchange.request.StampsDecided config owner before note) ∧
        ∀ host : Host, host.ask host.start r.exchange.request = .aborted ↔
          ¬ m.Grants .create host.call.caller fun _ =>
            host.call.caller.isIdentified = true := by
  obtain ⟨r, found, resolved⟩ := Model.compile_resolver compiled .create
  obtain ⟨asked, ungated⟩ := Model.resolver_request resolved
  have own := decoded m member
  have total (owner : String) : c.stampCount config owner = r.exchange.stampCount config owner :=
    own.stampCount_eq_resolver texts settled owner decoded compiled resolved
  refine ⟨fun owner owned ruled => ?_, fun plain owner => ?_, r, found,
    fun owner owned ruled => ?_, fun host => ?_⟩
  · rw [total, own.resolver_stampCount_create texts settled resolved owned ruled]
  · rw [total, own.resolver_stampCount_none texts settled resolved (Or.inr plain)]
  · obtain ⟨check, rules, stamped⟩ := Model.create_stamps .item owned ruled
    exact ⟨_, _, ofRequest_stamped config (asked.trans (congrArg some rules)) ungated stamped⟩
  · rw [host.ask_aborted_iff asked ungated, ← Option.not_isSome_iff_eq_none]
    exact not_congr Model.create_flagsFor_iff

/-- A note in the document store, with further parts of its definition. -/
def noteOf (dataSource : Value) (others : List (String × Value)) : Value :=
  .object ([("name", .text "Note"),
    ("properties", .object [
      ("id", .object [("type", .text "ID")]),
      ("author", .object [("type", .text "String"), ("isOwner", .bool true)])]),
    ("dataSource", dataSource)] ++ others)

def documentSource : Value :=
  .object [("type", .text "database"), ("engine", .text "nosql")]

/-- Staff may create notes, and everybody for themselves. -/
def stampedNote : Value :=
  noteOf documentSource [("hooks", .object [("beforeCreate", .text "checkNote")]),
    ("accessControl", .object [("rules", .list [
      .object [("allow", .text "create"), ("groups", .texts ["staff"])],
      .object [("allow", .text "create"), ("owner", .bool true)]])])]

theorem owner_stamped_once_stampedNote :
    ∃ m c r, Model.decode stampedNote = .ok m ∧ m.compile .default [m] = .ok c ∧
      c.stampCount .default "author" = 1 ∧ c.resolver .create = .ok r ∧
      (∃ before note, r.exchange.request.StampsDecided .default "author" before note) ∧
      ∀ host : Host, host.call.caller = ⟨none, some ["guests"]⟩ →
        host.ask host.start r.exchange.request = .aborted := by
  obtain ⟨m, c, read, compiled, owned, controlled, hooked, unrelated⟩ : ∃ m c,
      Model.decode stampedNote = .ok m ∧ m.compile .default [m] = .ok c ∧
      m.ownerField = some "author" ∧
      m.accessControl = some ⟨.deny, [⟨.create, ["staff"], false⟩, ⟨.create, [], true⟩]⟩ ∧
      m.hooks = { Hooks.none with beforeCreate := some "checkNote" } ∧ m.relationships = [] :=
    ⟨_, _, rfl, rfl, rfl, rfl, rfl, rfl⟩
  have decoded : ∀ n ∈ [m], n.IsDecoded := by
    intro n member
    exact List.mem_singleton.mp member ▸ ⟨stampedNote, read⟩
  have ruled : m.RulesCreate := ⟨_, controlled, by decide⟩
  have texts : m.IsCalm := by
    refine ⟨fun access same => ?_, fun phase operation => ?_, by simp [unrelated]⟩
    · obtain rfl := Option.some.inj (controlled.symm.trans same)
      decide
    · rw [hooked]
      cases phase <;> cases operation <;> decide
  have settled : Config.default.IsCalm := ⟨by decide, by decide, by decide, by decide⟩
  obtain ⟨once, _, r, found, stamps, refused⟩ := owner_stamped_once decoded
    (List.mem_singleton_self m) compiled texts settled
  refine ⟨m, c, r, read, compiled, once "author" owned ruled, found, stamps "author" owned ruled,
    fun host guest => (refused host).mpr ?_⟩
  rw [guest]
  intro granted
  cases granted with
  | unrestricted uncontrolled => simp [controlled] at uncontrolled
  | byDefault access unruled _ =>
    obtain rfl := Option.some.inj (controlled.symm.trans access)
    exact absurd unruled (by decide)
  | toGroup access rule named inside =>
    obtain rfl := Option.some.inj (controlled.symm.trans access)
    have outside : ∀ rule ∈ [⟨.create, ["staff"], false⟩, ⟨.create, [], true⟩],
        ∀ group ∈ AccessRule.groups rule, group ∉ ["guests"] := by decide
    exact outside _ (List.mem_of_mem_filter rule) _ named inside
  | toOwner _ _ _ _ known => simp [Caller.isIdentified, nonEmpty] at known

end ApiLoom
