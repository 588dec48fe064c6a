import ApiLoom.Proofs.Stamping

/-!
# Texts that break lines

Some texts are written into templates as they were given: the functions of hooks, foreign keys
that are declared, and a few settings.  Where such a text holds line breaks, it can bring a
line of its own into a template, and that line may be the stamp of an owner.
-/

namespace ApiLoom

open Template

variable {config : Config} {m : Model} {models : List Model} {c : CompiledModel} {owner : String}
  {field : RootField}

/-- A text that holds the stamp between line breaks stamps wherever a template has it in a line. -/
theorem Exchange.stampCount_pos {e : Exchange} {l : String}
    (member : l ∈ (ofRequest config e.request).lines)
    (held : Text.HasLine (stampLine owner) l) : 0 < e.stampCount config owner := by
  have counted := Text.startsFrom_hasLine member held
  rw [← Script.text_toList (List.ne_nil_of_mem member)] at counted
  exact Nat.lt_of_lt_of_le counted (Nat.le_add_right _ _)

theorem CompiledModel.stampCount_pos {e : Exchange} {path : String}
    (listed : (path, e) ∈ Compilation.modelExchanges c) (stamps : 0 < e.stampCount config owner) :
    0 < c.stampCount config owner := by
  obtain ⟨first, last, parts⟩ := List.append_of_mem listed
  rw [stampCount_eq_sum, parts, List.map_append, List.map_cons, List.sum_append, List.sum_cons]
  dsimp only
  omega

theorem description_mem (plan : RequestPlan) :
    "## " ++ plan.description ∈ (ofRequest config plan).lines := by
  simp [ofRequest, Script.lines_append, Script.acts, Script.lines, Action.lines]

theorem operation_mem {plan : RequestPlan} {l : String}
    (member : l ∈ (perform config plan.operation).lines) :
    l ∈ (ofRequest config plan).lines := by
  simp [ofRequest, Script.lines_append, member]

theorem getItem_version_mem (config : Config) (key expression : String) :
    margin 1 ++ "\"version\": " ++ ("\"" ++ config.templateVersion ++ "\"") ++ "," ∈
      (getItem config key expression).lines := by
  simp [getItem, Script.acts, Script.lines, Action.lines, versioned, Body.lines, Body.linesAt,
    memberLines, Body.plain, Term.text, Member.isAlways]

theorem getItem_key_mem (config : Config) (key expression : String) :
    margin 2 ++ ("\"" ++ key ++ "\": ") ++ (Term.verbatim expression).typedJson.text ++ "" ∈
      (getItem config key expression).lines := by
  simp [getItem, Script.acts, Script.lines, Action.lines, versioned, keyMember, Body.lines,
    Body.linesAt, memberLines, Body.plain, Member.isAlways]

theorem updateItem_stamp_mem (config : Config) (u : UpdateItem) :
    "#set($updateNames = " ++ (Term.entry (.plain ("#" ++ u.updatedAtField))
      (.plain u.updatedAtField)).text ++ ")" ∈ (updateItem config u).lines := by
  simp [updateItem, Script.acts, Script.lines, Action.lines, Script.lines_append]

theorem enqueue_queue_mem (config : Config) (operation model queue request : String) :
    "$util.qr(" ++ ((Term.var "body").call "put" [.plain "QueueUrl", .stash queue]).text ++ ")" ∈
      (enqueue config operation model queue request).lines := by
  simp [enqueue, Script.acts, Script.lines, Action.lines]

namespace Model

theorem resolver_listed (compiled : m.compile config models = .ok c) (field : RootField) :
    ∃ r path, (path, r.exchange) ∈ Compilation.modelExchanges c ∧
      (∀ s ∈ r.stages, ∃ path, (path, s.exchange) ∈ Compilation.modelExchanges c) ∧
      m.resolver config (sharedCluster models config) field = .ok r := by
  obtain ⟨r, found, resolved⟩ := compile_resolver compiled field
  have listed : r ∈ c.resolvers := by
    unfold CompiledModel.resolver at found
    split at found
    · next listed =>
      obtain rfl := Except.ok.inj found
      exact List.mem_of_find?_eq_some listed
    · cases found
  refine ⟨r, s!"resolvers/{r.typeName}.{r.fieldName}", ?_,
    fun s member => ⟨s!"functions/{s.name}", ?_⟩, resolved⟩
  · exact List.mem_append_left _ (List.mem_append_left _
      (List.mem_flatMap.mpr ⟨r, listed, List.mem_cons_self⟩))
  · exact List.mem_append_left _ (List.mem_append_left _ (List.mem_flatMap.mpr
      ⟨r, listed, List.mem_cons_of_mem _ (List.mem_map_of_mem member)⟩))

/-- Some request of the model asks for the operation of the field. -/
theorem mainOperation_listed (compiled : m.compile config models = .ok c) (field : RootField) :
    ∃ path e, (path, e) ∈ Compilation.modelExchanges c ∧
      e.request.operation = (m.mainOperation config field (m.isGated field)).1 := by
  obtain ⟨r, path, own, stages, resolved⟩ := resolver_listed compiled field
  obtain ⟨binding, _, _, ⟨_, rfl⟩ | ⟨_, fetch, _, rfl⟩⟩ := resolver_ok resolved
  · exact ⟨path, _, own, rfl⟩
  · obtain ⟨path, listed⟩ := stages (m.mainStage config field binding) (by
      simp [pipelineResolver, RootResolver.stages, Execution.stages])
    exact ⟨path, _, listed, rfl⟩

theorem stampCount_of_operation (compiled : m.compile config models = .ok c) (field : RootField)
    {l : String}
    (member : l ∈ (perform config (m.mainOperation config field (m.isGated field)).1).lines)
    (held : Text.HasLine (stampLine owner) l) : 0 < c.stampCount config owner := by
  obtain ⟨path, e, listed, asks⟩ := mainOperation_listed compiled field
  refine CompiledModel.stampCount_pos listed (Exchange.stampCount_pos (operation_mem ?_) held)
  rwa [asks]

theorem hook_stamps (compiled : m.compile config models = .ok c) {function : String}
    (named : m.hooks.beforeCreate = some function)
    (held : Text.HasLine (stampLine owner) function) : 0 < c.stampCount config owner := by
  have hook : nonEmpty (m.hooks.hookFor .before .create) = some function :=
    nonEmpty_eq_some_iff.mpr ⟨named, held.filled⟩
  have stage : m.hookStage .create .before = [functionStage m.name
      (Naming.rootField m.name .create) function .create .before] := by
    simp only [hookStage, RootField.operation, hook]
  obtain ⟨r, _, _, stages, resolved⟩ := resolver_listed compiled .create
  have staged : functionStage m.name (Naming.rootField m.name .create) function .create .before ∈
      r.stages := by
    obtain ⟨_, _, _, ⟨unit, _⟩ | ⟨_, fetch, _, rfl⟩⟩ := resolver_ok resolved
    · simp [isUnit, stage] at unit
    · simp [pipelineResolver, RootResolver.stages, Execution.stages, stage]
  obtain ⟨path, listed⟩ := stages _ staged
  exact CompiledModel.stampCount_pos listed (Exchange.stampCount_pos (description_mem _)
    ((((held.before _).behind _).before _)))

theorem relationship_stamps (compiled : m.compile config models = .ok c) {name key : String}
    {r : Relationship} (related : (name, r) ∈ m.relationships) (declared : r.foreignKey = some key)
    (held : Text.HasLine (stampLine owner) key) : 0 < c.stampCount config owner := by
  obtain ⟨_, traversals, _⟩ := compileWith_ok compiled
  obtain ⟨t, made, resolved⟩ := exists_of_mapM_ok traversals _ related
  have listed : (s!"resolvers/{t.typeName}.{t.fieldName}", t.exchange) ∈
      Compilation.modelExchanges c :=
    List.mem_append_left _ (List.mem_append_right _ (List.mem_map_of_mem made))
  refine CompiledModel.stampCount_pos listed (Exchange.stampCount_pos (description_mem _) ?_)
  have foreign : foreignKeyOf m r = key := by
    simp only [foreignKeyOf, nonEmpty_eq_some_iff.mpr ⟨declared, held.filled⟩]
  obtain ⟨target, description⟩ := traversal_description resolved
  rw [description, foreign]
  exact (held.before _).before _

theorem version_stamps (compiled : m.compile config models = .ok c) (stored : m.engine = .document)
    (held : Text.HasLine (stampLine owner) config.templateVersion) :
    0 < c.stampCount config owner := by
  refine stampCount_of_operation compiled .get ?_
    ((((held.before "\"").behind "\"").before (margin 1 ++ "\"version\": ")).behind ",")
  simpa only [mainOperation, stored, documentMain, perform] using
    getItem_version_mem config config.identifierField _

theorem identifier_stamps (compiled : m.compile config models = .ok c)
    (stored : m.engine = .document)
    (held : Text.HasLine (stampLine owner) config.identifierField) :
    0 < c.stampCount config owner := by
  refine stampCount_of_operation compiled .get ?_
    (((((held.before "\"").behind "\": ").before (margin 2)).behind
      (Term.verbatim (argument config.identifierField)).typedJson.text).behind "")
  simpa only [mainOperation, stored, documentMain, perform] using
    getItem_key_mem config config.identifierField (argument config.identifierField)

theorem updatedAt_stamps (compiled : m.compile config models = .ok c)
    (stored : m.engine = .document)
    (held : Text.HasLine (stampLine owner) config.updatedAtField) :
    0 < c.stampCount config owner := by
  have entry : Text.HasLine (stampLine owner) (Term.entry (.plain ("#" ++ config.updatedAtField))
      (.plain config.updatedAtField)).text := by
    simp only [Term.text]
    exact (((held.before "\"").behind "\"").before _).behind _
  refine stampCount_of_operation compiled .update ?_
    ((entry.before "#set($updateNames = ").behind ")")
  simpa only [mainOperation, stored, documentMain, perform] using updateItem_stamp_mem config _

theorem queue_stamps (compiled : m.compile config models = .ok c) (queued : m.engine = .queued)
    (held : Text.HasLine (stampLine owner) config.queueUrlStashKey) :
    0 < c.stampCount config owner := by
  have call : Text.HasLine (stampLine owner) ((Term.var "body").call "put"
      [.plain "QueueUrl", .stash config.queueUrlStashKey]).text := by
    simp only [Term.text, Term.texts, Term.stash, String.intercalate_cons_cons,
      String.intercalate_singleton]
    exact ((((held.before _).before _).before _).behind _)
  refine stampCount_of_operation compiled .create ?_
    ((call.before "$util.qr(").behind ")")
  simpa only [mainOperation, queued, queuedMain, perform] using
    enqueue_queue_mem config _ _ _ _

end Model

/-! ### A note with such texts -/

def queuedSource : Value := .object [
  ("type", .text "thirdPartyApi"), ("endpoint", .text "https://notes.example"),
  ("limits", .object [("limit", .int 1), ("frequencyInSeconds", .int 1)])]

def authorStamp : String := "a\n$util.qr($ctx.args.input.put(\"author\", $userId))\nb"

theorem authorStamp_hasLine : Text.HasLine (stampLine "author") authorStamp :=
  ⟨['a'], ['b'], by decide⟩

def hookedNote : Value :=
  noteOf documentSource [("hooks", .object [("beforeCreate", .text authorStamp)])]

def answeredNote : Value :=
  noteOf documentSource [("relationships", .object [("replies", .object [
    ("type", .text "hasMany"), ("target", .text "Note"), ("foreignKey", .text authorStamp)])])]

/-- Some template of the model stamps its author, and there is no rule for creates. -/
def StampsUnruled (raw : Value) (config : Config) : Prop :=
  ∃ m c, Model.decode raw = .ok m ∧ m.compile config [m] = .ok c ∧
    m.ownerField = some "author" ∧ m.accessControl = none ∧ 0 < c.stampCount config "author"

theorem stamps_unruled :
    StampsUnruled hookedNote .default ∧ StampsUnruled answeredNote .default ∧
      StampsUnruled (noteOf documentSource [])
        { Config.default with identifierField := authorStamp } ∧
      StampsUnruled (noteOf documentSource [])
        { Config.default with updatedAtField := authorStamp } ∧
      StampsUnruled (noteOf documentSource [])
        { Config.default with templateVersion := authorStamp } ∧
      StampsUnruled (noteOf queuedSource [])
        { Config.default with queueUrlStashKey := authorStamp } := by
  have held := authorStamp_hasLine
  refine ⟨?hook, ?foreignKey, ?identifier, ?updatedAt, ?version, ?queue⟩
  case hook =>
    obtain ⟨m, c, read, compiled, owned, uncontrolled, hooked⟩ : ∃ m c,
        Model.decode hookedNote = .ok m ∧ m.compile .default [m] = .ok c ∧
        m.ownerField = some "author" ∧ m.accessControl = none ∧
        m.hooks.beforeCreate = some authorStamp := ⟨_, _, rfl, rfl, rfl, rfl, rfl⟩
    exact ⟨m, c, read, compiled, owned, uncontrolled, Model.hook_stamps compiled hooked held⟩
  case foreignKey =>
    obtain ⟨m, c, read, compiled, owned, uncontrolled, related⟩ : ∃ m c,
        Model.decode answeredNote = .ok m ∧ m.compile .default [m] = .ok c ∧
        m.ownerField = some "author" ∧ m.accessControl = none ∧
        m.relationships = [("replies", ⟨.hasMany, "Note", some authorStamp⟩)] :=
      ⟨_, _, rfl, rfl, rfl, rfl, rfl⟩
    have listed : ("replies", ⟨.hasMany, "Note", some authorStamp⟩) ∈ m.relationships := by
      rw [related]
      exact List.mem_singleton_self _
    exact ⟨m, c, read, compiled, owned, uncontrolled,
      Model.relationship_stamps compiled listed rfl held⟩
  case identifier =>
    obtain ⟨m, c, read, compiled, owned, uncontrolled, stored⟩ : ∃ m c,
        Model.decode (noteOf documentSource []) = .ok m ∧
        m.compile { Config.default with identifierField := authorStamp } [m] = .ok c ∧
        m.ownerField = some "author" ∧ m.accessControl = none ∧ m.engine = .document :=
      ⟨_, _, rfl, rfl, rfl, rfl, rfl⟩
    exact ⟨m, c, read, compiled, owned, uncontrolled,
      Model.identifier_stamps compiled stored held⟩
  case updatedAt =>
    obtain ⟨m, c, read, compiled, owned, uncontrolled, stored⟩ : ∃ m c,
        Model.decode (noteOf documentSource []) = .ok m ∧
        m.compile { Config.default with updatedAtField := authorStamp } [m] = .ok c ∧
        m.ownerField = some "author" ∧ m.accessControl = none ∧ m.engine = .document :=
      ⟨_, _, rfl, rfl, rfl, rfl, rfl⟩
    exact ⟨m, c, read, compiled, owned, uncontrolled, Model.updatedAt_stamps compiled stored held⟩
  case version =>
    obtain ⟨m, c, read, compiled, owned, uncontrolled, stored⟩ : ∃ m c,
        Model.decode (noteOf documentSource []) = .ok m ∧
        m.compile { Config.default with templateVersion := authorStamp } [m] = .ok c ∧
        m.ownerField = some "author" ∧ m.accessControl = none ∧ m.engine = .document :=
      ⟨_, _, rfl, rfl, rfl, rfl, rfl⟩
    exact ⟨m, c, read, compiled, owned, uncontrolled, Model.version_stamps compiled stored held⟩
  case queue =>
    obtain ⟨m, read, owned, uncontrolled, queued⟩ : ∃ m,
        Model.decode (noteOf queuedSource []) = .ok m ∧
        m.ownerField = some "author" ∧ m.accessControl = none ∧ m.engine = .queued :=
      ⟨_, rfl, rfl, rfl, rfl⟩
    have compiles : ((Model.decode (noteOf queuedSource [])).toOption.any fun m =>
        (m.compile { Config.default with queueUrlStashKey := authorStamp } [m]).isOk) = true := by
      decide +kernel
    rw [read] at compiles
    obtain ⟨c, compiled⟩ : ∃ c,
        m.compile { Config.default with queueUrlStashKey := authorStamp } [m] = .ok c :=
      exists_of_isOk compiles
    exact ⟨m, c, read, compiled, owned, uncontrolled, Model.queue_stamps compiled queued held⟩

end ApiLoom
