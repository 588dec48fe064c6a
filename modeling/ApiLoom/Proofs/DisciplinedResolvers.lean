import ApiLoom.Proofs.DisciplinedModels
import ApiLoom.Proofs.Generation
import ApiLoom.Proofs.Keys

/-!
# Disciplined resolvers

Every exchange that is generated for a set of models obeys the disciplines that its settings and
its models obey.
-/

namespace ApiLoom

open Template

open Text (IsName)

structure Exchange.Obeys (d : Discipline) (e : Exchange) : Prop where
  request : e.request.Obeys d
  response : e.response.Obeys d

variable {d : Discipline}

namespace Model

variable {m : Model} {config : Config} {cluster : Option Cluster} {field : RootField}
  {binding : Binding}

namespace IsDecoded

variable (decoded : m.IsDecoded)

/-! ### Stages -/

include decoded in
theorem hookStage_obeys (texts : m.Obeys d) (isOpen : d.IsOpen) {phase : HookPhase} {s : Stage}
    (member : s ∈ m.hookStage field phase) :
    s.exchange.Obeys d ∧ s.exchange.request.auth = none := by
  obtain ⟨function, _, named, rfl⟩ := mem_hookStage member
  have called := texts.hooks phase field.operation function named
  have title := decoded.rootField_text (d := d) field
  have hook : d.text (hookName phase field.operation) :=
    d.text_free (by cases phase <;> cases field <;> decide)
  have titled := d.text_join (g := ": ") title (by decide) hook
  have outcome : d.plain (hookName phase field.operation ++ "Result") :=
    d.plain_text (d.text_free (by cases phase <;> cases field <;> decide))
  refine ⟨⟨⟨?_, ⟨d.row_text hook, d.row_text called, d.row_text decoded.name_text,
    fun _ => isOpen.handed⟩, by simp [functionStage], by simp [functionStage]⟩,
    ⟨?_, outcome, fun _ => isOpen.handed⟩⟩, rfl⟩
  · exact d.text_ends (d.text_join (g := " hook (") titled (by decide) called) (by decide)
  · exact d.text_ends titled (by decide)

section Stored

variable (settings : config.Obeys d)

include decoded settings

theorem preFetchStage_obeys {fetch : List Stage}
    (fetched : m.preFetchStage config field binding = .ok fetch) :
    ∀ s ∈ fetch, s.exchange.Obeys d ∧ s.exchange.request.auth = none := by
  unfold preFetchStage at fetched
  dsimp only at fetched
  split at fetched
  · next plan _ planned =>
    obtain ⟨owner, guarded, rfl⟩ := Option.map_eq_some_iff.mp planned
    obtain ⟨name, named, keyed⟩ : ∃ name, d.text name ∧
        (if field.operation = .read then "$ctx.args." else "$ctx.args.input.") ++
          config.identifierField = argument name := by
      split
      · exact ⟨_, settings.identifier, rfl⟩
      · exact ⟨_, d.text_ahead (by decide) settings.identifier, inputArgument_eq _⟩
    split at fetched
    · cases fetched
    · next operation source found =>
      obtain rfl := Except.ok.inj fetched
      dsimp only at found
      rw [keyed] at found
      have title := decoded.rootField_text (d := d) field
      have fetches := decoded.fetchByKey_obeys settings named found
      refine List.forall_mem_singleton.mpr ⟨⟨⟨?_, fetches, by simp, by simp⟩, ⟨?_, ?_⟩⟩, rfl⟩
      · exact d.text_join (g := ": fetch the stored record to check its ") title (by decide)
          (d.text_name (decoded.guardedOwner_isName owner guarded))
      · exact d.text_ends title (by decide)
      · exact ⟨decoded.verification_obeys,
          d.plain_fixed (by decide : Text.Fixed ownershipConfirmed)⟩
  · obtain rfl := Except.ok.inj fetched
    simp

theorem mainExchange_obeys (field : RootField)
    (queued : m.engine = .queued →
      (Term.stash config.queueUrlStashKey).Obeys d ∧ (Term.stash requestIdKey).Obeys d) :
    (m.mainExchange config field).Obeys d := by
  have title := decoded.rootField_text (d := d) field
  have word : d.text field.word := d.text_free (by cases field <;> decide)
  have engine : d.text m.engine.word := d.text_free (by cases m.engine <;> decide)
  have titled := d.text_join (g := ": ") title (by decide) word
  refine ⟨⟨?_, decoded.mainOperation_obeys settings field _ fun own => (queued own).1,
    by simp [mainExchange], fun gate gated => ?_⟩,
    ⟨?_, decoded.mainOperation_shape_obeys field _ fun own => (queued own).2⟩⟩
  · have named := d.text_behind (d.text_ends (t := " ") titled (by decide)) decoded.name_text
      (decoded.name_isName.notMem rfl)
    exact d.text_ends (d.text_join (g := " (") named (by decide) engine) (by decide)
  · dsimp only [mainExchange] at gated
    split at gated
    · exact Option.some.inj gated ▸ working_obeys (by decide)
    · cases gated
  · exact d.text_ends titled (by decide)

end Stored

/-! ### Root fields -/

section Open

variable (texts : m.Obeys d) (settings : config.Obeys d) (isOpen : d.IsOpen)

include isOpen in
omit decoded in
theorem queue_obeys (queue : d.text config.queueUrlStashKey) :
    (Term.stash config.queueUrlStashKey).Obeys d ∧ (Term.stash requestIdKey).Obeys d :=
  ⟨stash_obeys (d.name_text queue) (isOpen.stash _),
    stash_obeys (d.name_fixed (by decide)) (isOpen.stash _)⟩

include decoded texts settings isOpen

/-- What stands at the resolver itself asks for the check of the field; its stages ask for
none. -/
theorem resolver_obeys (queue : d.text config.queueUrlStashKey) {r : RootResolver}
    (resolved : m.resolver config cluster field = .ok r) :
    r.exchange.Obeys d ∧ ∀ s ∈ r.stages, s.exchange.Obeys d ∧ s.exchange.request.auth = none := by
  have title := decoded.rootField_text (d := d) field
  have check : ∀ c ∈ some (m.authCheck field.operation field.scope), c.Obeys d :=
    fun c same => Option.some.inj same ▸ decoded.authCheck_obeys texts
  have main := decoded.mainExchange_obeys settings field fun _ => queue_obeys isOpen queue
  obtain ⟨_, _, _, ⟨_, rfl⟩ | ⟨_, fetch, fetched, rfl⟩⟩ := resolver_ok resolved
  · obtain ⟨⟨description, operation, _, gate⟩, response⟩ := main
    refine ⟨⟨⟨description, operation, check, gate⟩, response⟩, ?_⟩
    simp [unitResolver, RootResolver.stages, Execution.stages]
  · refine ⟨⟨⟨?_, by simp [pipelineResolver, pipelineExchange, DataOperation.Obeys], check,
      by simp [pipelineResolver, pipelineExchange]⟩, ⟨?_, trivial⟩⟩, fun s member => ?_⟩
    · exact d.text_ends title (by decide)
    · exact d.text_ends title (by decide)
    · simp only [pipelineResolver, RootResolver.stages, Execution.stages, List.mem_append,
        List.mem_singleton] at member
      rcases member with ((before | fetching) | rfl) | after
      · exact decoded.hookStage_obeys texts isOpen before
      · exact decoded.preFetchStage_obeys settings fetched s fetching
      · exact ⟨main, rfl⟩
      · exact decoded.hookStage_obeys texts isOpen after

end Open

/-! ### Relationships -/

theorem foreignKeyOf_text {target : Model} (decoded : m.IsDecoded) (reached : target.IsDecoded)
    {r : Relationship} (named : target.name = r.target)
    (written : ∀ key ∈ r.foreignKey, d.text key) : d.text (foreignKeyOf m r) := by
  have made {name : String} (named : IsName name) : d.text (Text.lower name ++ "Id") :=
    d.text_name (named.lower.append (by decide))
  unfold foreignKeyOf
  split
  · next key declared => exact of_nonEmpty written declared
  · split
    · exact made (named ▸ reached.name_isName)
    · exact made decoded.name_isName
    · exact made decoded.name_isName

theorem traversalTo_obeys {target : Model} (reached : target.IsDecoded)
    (groups : target.EachGroup d.quoted) (settings : config.Obeys d) (isOpen : d.IsOpen)
    {kind : RelationshipKind} {key : String} (keyed : d.text key) {operation : DataOperation}
    {shape : ResultShape}
    (planned : traversalTo config target kind key = some (operation, shape)) :
    operation.Obeys d ∧ shape.Obeys d := by
  have identifier := settings.identifier
  have source := d.expression_source identifier
  have foreign := d.expression_source keyed
  have access := reached.itemAccess_obeys groups isOpen
  have single (source : RecordSource) : ResultShape.Obeys d (.single
      { SingleRecord.plain source with access := some target.itemAccess }) :=
    ⟨by simp [SingleRecord.plain], fun a same => Option.some.inj same ▸ access,
      by simp [SingleRecord.plain]⟩
  have page (source : ListSource) :
      ResultShape.Obeys d (.list ⟨source, some target.itemAccess, []⟩) :=
    ⟨fun a same => Option.some.inj same ▸ access, by simp⟩
  have index : d.plain (Naming.indexName key) :=
    d.plain_text (d.text_ends keyed (by decide))
  have bounds : ∀ p ∈ some config.page, p.Obeys d :=
    fun p same => Option.some.inj same ▸ page_obeys config
  have select (column : String) (extent : SqlExtent) (named : d.text column) :
      d.row (SqlStatement.select (Naming.tableName target.name) (some column) false extent).text :=
    d.row_statement (List.forall_mem_cons.mpr
      ⟨reached.tableName_text, List.forall_mem_singleton.mpr named⟩)
  unfold traversalTo at planned
  split at planned
  · cases kind <;> obtain ⟨rfl, rfl⟩ := Prod.mk.inj (Option.some.inj planned)
    · exact ⟨⟨index, keyed, source, bounds⟩, page _⟩
    · exact ⟨⟨identifier, foreign⟩, single _⟩
    · exact ⟨⟨index, keyed, source, by simp⟩, single _⟩
  · cases kind <;> obtain ⟨rfl, rfl⟩ := Prod.mk.inj (Option.some.inj planned)
    · refine ⟨⟨?_, ?_, by simp [statements], bounds, by simp [statements]⟩, page _⟩
      · exact List.forall_mem_singleton.mpr (select key _ keyed)
      · exact List.forall_mem_cons.mpr ⟨bindColumn_obeys keyed source, pageVariables_obey⟩
    · exact ⟨statements_obey (List.forall_mem_singleton.mpr (select _ _ identifier))
        (List.forall_mem_singleton.mpr (bindColumn_obeys identifier foreign)), single _⟩
    · exact ⟨statements_obey (List.forall_mem_singleton.mpr (select _ _ keyed))
        (List.forall_mem_singleton.mpr (bindColumn_obeys keyed source)), single _⟩
  · cases planned
  · cases planned

include decoded in
theorem traversal_obeys (settings : config.Obeys d) (isOpen : d.IsOpen)
    {lookup : String → Option Model} {name : String} {r : Relationship} {t : TraversalResolver}
    (known : ∀ target, lookup r.target = some target →
      target.IsDecoded ∧ target.EachGroup d.quoted)
    (named : IsName name) (keyed : d.text (foreignKeyOf m r))
    (resolved : m.traversal config cluster lookup name r = .ok t) : t.exchange.Obeys d := by
  obtain ⟨target, operation, shape, _, found, planned, _, rfl⟩ := traversal_eq resolved
  obtain ⟨reached, groups⟩ := known target found
  obtain ⟨asked, shaped⟩ := traversalTo_obeys reached groups settings isOpen keyed planned
  have kind : d.text r.kind.word := d.text_free (by cases r.kind <;> decide)
  have link := d.text_join (g := ": ") (d.text_join (g := ".") decoded.name_text (by decide)
    (d.text_name named)) (by decide) kind
  have reaching := d.text_behind (d.text_ends (t := " ") link (by decide)) reached.name_text
    (reached.name_isName.notMem rfl)
  have description :
      d.text s!"{m.name}.{name}: {r.kind.word} {target.name} via {foreignKeyOf m r}" :=
    d.text_join (g := " via ") reaching (by decide) keyed
  refine ⟨⟨description, asked, by simp [traversalResolver], by simp [traversalResolver]⟩,
    ⟨?_, reached.withLocalTimes_obeys shaped⟩⟩
  exact d.text_ends (d.text_join (g := " (filtered by ") description (by decide)
    reached.name_text) (by decide)

/-! ### Beside the root fields -/

include decoded in
theorem side_obeys (texts : m.Obeys d) {r : SideResolver}
    (listed : r ∈ m.subscriptions ++ (m.jobResultLookup config).toList) : r.exchange.Obeys d := by
  have check {scope : AccessScope} : ∀ c ∈ some (m.authCheck .read scope), c.Obeys d :=
    fun c same => Option.some.inj same ▸ decoded.authCheck_obeys texts
  rcases List.mem_append.mp listed with subscribed | lookedUp
  · unfold subscriptions at subscribed
    split at subscribed
    · obtain ⟨field, _, rfl⟩ := List.mem_map.mp subscribed
      have word : IsName field.capitalized := by
        cases field <;> decide
      have title : d.text (Naming.subscriptionField m.name field) :=
        d.text_name ((IsName.append (by decide) word).append decoded.name_isName)
      refine ⟨⟨?_, by simp [DataOperation.Obeys, subscription], check, by simp [subscription]⟩,
        ⟨?_, fun owner narrowed => ?_, working_obeys (by decide)⟩⟩
      · exact d.text_ends title (by decide)
      · exact d.text_ends title (by decide)
      · obtain ⟨f, filtered, owned⟩ := Option.bind_eq_some_iff.mp narrowed
        exact (decoded.collectionFilter_obeys f filtered).1 owner owned
    · cases subscribed
  · rw [Option.mem_toList, jobResultLookup] at lookedUp
    split at lookedUp
    · obtain rfl := Option.some.inj lookedUp
      have title : d.text (Naming.jobResultField m.name) :=
        d.text_name ((IsName.append (by decide) decoded.name_isName).append (by decide))
      have key : d.text "requestId" := d.text_free (by decide)
      refine ⟨⟨?_, ⟨key, d.expression_argument key⟩, check, by simp⟩, ⟨?_, ?_⟩⟩
      · exact d.text_ends (d.text_join (g := ": result record for a queued ") title (by decide)
          decoded.name_text) (by decide)
      · exact d.text_ends title (by decide)
      · constructor <;> simp [SingleRecord.plain]
    · cases lookedUp

end IsDecoded

end Model

theorem shared_obeys {models : List Model} {r : SideResolver}
    (listed : r ∈ sharedResolvers models) : r.exchange.Obeys d := by
  unfold sharedResolvers at listed
  split at listed
  · rcases List.mem_pair.mp listed with rfl | rfl
    · refine ⟨⟨d.text_free (by decide), fun e same => ?_, by simp [jobPublication],
        by simp [jobPublication]⟩, ⟨d.text_free (by decide), trivial⟩⟩
      exact Option.some.inj same ▸ d.expression_arguments
    · exact ⟨⟨d.text_free (by decide), by simp [jobNotification, DataOperation.Obeys],
        by simp [jobNotification], by simp [jobNotification]⟩,
        ⟨d.text_free (by decide), by simp, working_obeys (by decide)⟩⟩
  · cases listed

/-! ### Whole sets -/

/-- Whatever is generated for a set obeys, where its settings and models do. -/
theorem Compilation.Generated.obeys {config : Config} {models : List Model} {e : Exchange}
    (generated : Compilation.Generated config models e) (isOpen : d.IsOpen)
    (settings : config.Obeys d) (queue : d.text config.queueUrlStashKey)
    (decoded : ∀ m ∈ models, m.IsDecoded) (texts : ∀ m ∈ models, m.Obeys d)
    (keys : ∀ m ∈ models, ∀ link ∈ m.relationships, d.text (foreignKeyOf m link.2)) :
    e.Obeys d := by
  have own {m : Model} (member : m ∈ models) : m.IsDecoded := decoded m member
  cases generated with
  | root member resolved =>
    exact ((own member).resolver_obeys (texts _ member) settings isOpen queue resolved).1
  | stage member resolved staged =>
    exact (((own member).resolver_obeys (texts _ member) settings isOpen queue resolved).2 _
      staged).1
  | traversal member related resolved =>
    refine (own member).traversal_obeys settings isOpen (fun target found => ?_)
      (Text.isName_of_isIdentifier ((own member).relationship_identifier related))
      (keys _ member _ related) resolved
    have listed := (mem_of_modelNamed found).1
    exact ⟨own listed, (texts target listed).quotes⟩
  | side member listed => exact (own member).side_obeys (texts _ member) listed
  | shared listed => exact shared_obeys listed

end ApiLoom
