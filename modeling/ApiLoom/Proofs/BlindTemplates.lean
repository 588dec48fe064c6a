import ApiLoom.Proofs.Blindness
import ApiLoom.Proofs.DisciplinedModels
import ApiLoom.Proofs.Sent

/-!
# Blind templates

Templates that do not look at what a hook returned, nor at the variables of the decision about
the caller: that is a discipline.  Two runs of a script that obeys it end alike, and leave no
other difference behind.
-/

namespace ApiLoom

open Template Template.Script Template.Veil

namespace Template

/-- Behind the veil is at most what was left behind by a decision, or by a hook. -/
structure Veil.Thin (veil : Veil) : Prop where
  locals : ∀ name, name ∉ decisionLocals → name ∉ veil.locals
  keys : ∀ key ∈ workingKeys, key ∉ veil.keys

variable {veil : Veil}

theorem IsOwn.ne_context {name : String} (own : IsOwn name) : name ≠ "ctx" := by
  rintro rfl
  exact own.2.1 (List.prefix_refl _)

theorem IsOwn.path {name : String} (own : IsOwn name) (identifier : Text.isIdentifier name = true) :
    name.toList.all Text.isPathChar = true := by
  refine List.all_eq_true.mpr fun c member => ?_
  have sign := Text.isIdentifier_char identifier member
  have line : c ≠ '\n' := fun same => own.1.1 (same ▸ member)
  simp only [Bool.or_eq_true, decide_eq_true_eq, line, or_false] at sign
  simp only [Text.isPathChar, Bool.or_eq_true, decide_eq_true_eq]
  exact .inl sign

/-- A text shows the same in both runs if its one reference is to a variable of the template. -/
theorem Veil.Thin.showsText (thin : veil.Thin) {name : String} (own : IsOwn name)
    (identifier : Text.isIdentifier name = true) {front behind : List Char} (plain : '$' ∉ front)
    (fixed : '$' ∉ behind) (ends : behind = [] ∨ behind.head? = some ' ') :
    veil.ShowsText (front ++ '$' :: (name.toList ++ behind)) := by
  refine showsText_reference plain (own.path identifier) ?_ ?_ (showsText_plain fixed)
  · rcases ends with rfl | blank
    · simp
    · intro c first
      rw [blank] at first
      obtain rfl := Option.some.inj first
      decide
  · rw [path_word (Text.isWord_of_isIdentifier identifier)]
    exact shows_local own.ne_context (thin.locals name own.2.2) _

end Template

/-! ### Statements and paths -/

theorem SqlStatement.text_shows {veil : Veil} (thin : veil.Thin) {st : SqlStatement}
    (names : ∀ n ∈ st.table :: st.columns, '$' ∉ n.toList) : veil.ShowsText st.text.toList := by
  obtain ⟨front, behind, plain, known, blank, parts⟩ := sent_parts names
  rw [← sent_guard]
  rcases parts with placed | fixed
  · rw [placed, guard]
    split
    · exact thin.showsText (by decide : IsOwn "ownerGuard") (by decide) plain known blank
    · exact showsText_plain (by simp [plain, known])
  · rw [fixed]
    exact showsText_plain plain

/-- The path of a record is that of its collection and the key from the arguments. -/
theorem argumentPath_shows {veil : Veil} {front key : String} (plain : '$' ∉ front.toList)
    (keyed : '$' ∉ key.toList) : veil.ShowsText (front ++ argument key).toList := by
  have lead : ("ctx.args.".toList).all Text.isPathChar = true := by decide
  have within : ((key.toList).takeWhile Text.isPathChar).all Text.isPathChar = true :=
    List.all_takeWhile
  have spelled : (front ++ argument key).toList = front.toList ++
      '$' :: (("ctx.args.".toList ++ key.toList.takeWhile Text.isPathChar) ++
        key.toList.dropWhile Text.isPathChar) := by
    have start : "$ctx.args.".toList = '$' :: "ctx.args.".toList := rfl
    rw [String.toList_append, argument, String.toList_append, start, List.cons_append,
      List.append_assoc, List.takeWhile_append_dropWhile]
  rw [spelled]
  refine showsText_reference plain (by rw [List.all_append, lead, within]; rfl) ?_ ?_
    (showsText_plain fun member => keyed (List.dropWhile_subset _ member))
  · intro c first
    have stopped := List.head?_dropWhile_not Text.isPathChar key.toList
    rwa [Option.mem_def.mp first] at stopped
  · have parts : "ctx.args.".toList = "ctx".toList ++ '.' :: ("args".toList ++ ['.']) := rfl
    rw [parts, List.append_assoc, List.cons_append, List.append_assoc, List.singleton_append,
      path_cons _ (by decide), path_cons _ (by decide)]
    exact shows_context (by decide) (by decide) _

theorem httpQuery_shows {veil : Veil} (thin : veil.Thin) (config : Config) :
    ∀ q ∈ Model.httpQuery config, veil.ShowsText q.2.toList := by
  have util : "util" ∉ veil.locals := thin.locals _ (by decide)
  have number : '$' ∉ (toString config.defaultPageSize).toList := (Text.int_free _).2.1
  have limit : (s!"$util.defaultIfNull($ctx.args.limit, {config.defaultPageSize})").toList =
      [] ++ '$' :: ("util.defaultIfNull".toList ++ (['('] ++ '$' :: ("ctx.args.limit".toList ++
        ([',', ' '] ++ ((toString config.defaultPageSize).toList ++ [')']))))) := by
    simp only [toString, String.toList_append]
    rfl
  have token : "$util.defaultIfNullOrBlank($ctx.args.nextToken, '')".toList =
      [] ++ '$' :: ("util.defaultIfNullOrBlank".toList ++ (['('] ++ '$' ::
        ("ctx.args.nextToken".toList ++ ", '')".toList))) := rfl
  refine List.forall_mem_cons.mpr ⟨?_, List.forall_mem_singleton.mpr ?_⟩
  · dsimp only
    rw [limit]
    refine showsText_reference List.not_mem_nil (by decide) (Text.ends_cons (by decide) _)
      (shows_local (by decide) util ["defaultIfNull"]) ?_
    refine showsText_reference (by decide) (by decide) (Text.ends_cons (by decide) _)
      (shows_context (by decide) (by decide) ["limit"]) ?_
    exact showsText_plain (by simpa using number)
  · dsimp only
    rw [token]
    refine showsText_reference List.not_mem_nil (by decide) (Text.ends_cons (by decide) _)
      (shows_local (by decide) util ["defaultIfNullOrBlank"]) ?_
    exact showsText_reference (by decide) (by decide) (Text.ends_cons (by decide) _)
      (shows_context (by decide) (by decide) ["nextToken"]) (showsText_plain (by decide))

namespace Template

variable {veil : Veil}

/-! ### The discipline -/

/-- Texts have no references, and where one may stand it is to something that is the same in both
runs. -/
def Veil.Thin.discipline (thin : veil.Thin) : Discipline where
  text s := '$' ∉ s.toList
  name _ := True
  plain s := veil.ShowsText s.toList
  quoted _ := True
  row s := veil.ShowsText s.toList
  expression s := (Term.verbatim s).Blind veil
  reads name := name ≠ "ctx" ∧ name ∉ veil.locals
  part name := name ≠ "stash" ∧ name ≠ "prev"
  key name := name ∉ veil.keys
  receiver _ := True
  name_text _ := trivial
  plain_text := showsText_plain
  quoted_text _ := trivial
  row_text := showsText_plain
  quoted_behind _ _ := trivial
  name_fixed _ := trivial
  plain_fixed fixed := showsText_plain fixed.2.1
  plain_shown own identifier fixed ends := by
    rw [String.toList_append, String.toList_append, List.append_assoc]
    refine thin.showsText own identifier List.not_mem_nil fixed.2.1 ?_
    rcases ends with rfl | blank
    · exact .inl rfl
    · exact .inr blank
  reads_own own := ⟨own.ne_context, thin.locals _ own.2.2⟩
  part_other other later := ⟨other, later⟩
  key_working := thin.keys _
  receiver_own _ := trivial
  receiver_stash := trivial
  text_free free := free.2.1
  text_name name := name.notMem rfl
  text_behind first second _ := by simp [first, second]
  text_ahead free unread := by simp [free.2.1, unread]
  text_join first glue second := by simp [first, glue.1.2.1, second]
  expression_arguments := Term.blind_arguments
  expression_argument _ := Term.blind_argument _
  expression_input _ := Term.blind_input (thin.locals _ (by decide)) _
  expression_source _ := Term.blind_sourceField _
  expression_own own identifier := Term.blind_variable (Text.isWord_of_isIdentifier identifier)
    own.ne_context (thin.locals _ own.2.2)
  expression_called called _ _ := Term.blind_called called
  plain_path first second := argumentPath_shows (by simp [first]) second
  plain_query := httpQuery_shows thin _ _
  row_statement := SqlStatement.text_shows thin

theorem Veil.Thin.marks (thin : veil.Thin) : thin.discipline.Marks := by
  intro s unread
  have plain : '$' ∉ s.toList := unread
  exact ⟨showsText_plain (by simp [plain]), showsText_plain (by simp [plain])⟩

/-! ### Terms -/

variable {thin : veil.Thin}

mutual

theorem Term.Obeys.blind : (t : Term) → t.Obeys thin.discipline → t.Blind veil
  | .verbatim s, blind => blind
  | .var name, ⟨own, seen⟩ => Term.blind_var own seen
  | .plain s, shows => Term.blind_plain shows
  | .quoted s, _ => Term.blind_quoted s
  | .number n, _ => Term.blind_number n
  | .truth b, _ => Term.blind_truth b
  | .null, _ => Term.blind_null
  | .emptyMap, _ => Term.blind_emptyMap
  | .member of name, ⟨_, place⟩ => by
    rcases place with own | ⟨same, other, later⟩ | ⟨same, seen⟩
    · exact (Term.Obeys.blind of own).member name
    · exact same ▸ Term.blind_context other later
    · exact same ▸ Term.blind_stash seen
  | .item of key, obeys => (Term.Obeys.blind of obeys.1).item (Term.Obeys.blind key obeys.2)
  | .call of method arguments, ⟨received, _, given⟩ =>
    (Term.Obeys.blind of received).call (TermsObey.blind arguments given)
  | .list items, obeys => Term.blind_list (TermsObey.blind items obeys)
  | .entry key value, obeys =>
    (Term.Obeys.blind key obeys.1).entry (Term.Obeys.blind value obeys.2)
  | .sum left right, obeys => (Term.Obeys.blind left obeys.1).sum (Term.Obeys.blind right obeys.2)
  | .negated t, obeys => (Term.Obeys.blind t obeys).negated

theorem TermsObey.blind : (ts : List Term) → TermsObey thin.discipline ts →
    ∀ t ∈ ts, t.Blind veil
  | [], _ => List.forall_mem_nil _
  | t :: rest, obeys =>
    List.forall_mem_cons.mpr ⟨Term.Obeys.blind t obeys.1, TermsObey.blind rest obeys.2⟩

end

section Runs

variable {w w' : World} {s s' : State}

theorem Term.ObeysInBody.inBody {t : Term} (obeys : t.ObeysInBody thin.discipline)
    (covers : veil.Covers w w' s s') : t.inBody w' s' = t.inBody w s := by
  cases t with
  | quoted text => rw [Term.inBody, Term.inBody, World.expand, World.expand, obeys covers]
  | verbatim text =>
    rcases obeys with blind | rfl
    · exact blind covers
    · exact Term.blind_called (by decide) covers
  | _ => exact Term.Obeys.blind _ obeys covers

/-! ### Conditions and bodies -/

theorem Cond.Obeys.eval {c : Cond} (obeys : c.Obeys thin.discipline)
    (covers : veil.Covers w w' s s') : c.eval w' s' = c.eval w s := by
  induction c with
  | holds t => rw [Cond.eval, Cond.eval, Term.Obeys.blind t obeys covers]
  | fails t => rw [Cond.eval, Cond.eval, Term.Obeys.blind t obeys covers]
  | compare left how right =>
    rw [Cond.eval, Cond.eval, Term.Obeys.blind left obeys.1 covers,
      Term.Obeys.blind right obeys.2 covers]
  | oneOf subject texts => rw [Cond.eval, Cond.eval, Term.Obeys.blind subject obeys.1 covers]
  | both first second ihFirst ihSecond =>
    rw [Cond.eval, Cond.eval, ihFirst obeys.1, ihSecond obeys.2]

mutual

theorem Body.Obeys.eval {body : Body} (obeys : body.Obeys thin.discipline)
    (covers : veil.Covers w w' s s') : body.eval w' s' = body.eval w s := by
  cases body with
  | value t => rw [Body.eval, Body.eval, Term.ObeysInBody.inBody obeys covers]
  | rows items =>
    have same : ∀ t ∈ items, t.inBody w' s' = t.inBody w s := by
      intro t member
      obtain ⟨text, rfl, shows⟩ := obeys t member
      have quoted : (Term.quoted text).ObeysInBody thin.discipline := shows
      exact quoted.inBody covers
    rw [Body.eval, Body.eval, List.map_congr_left same]
  | object members => rw [Body.eval, Body.eval, evalMembers_obeys obeys covers]

theorem evalMembers_obeys {members : List Member} (obeys : MembersObey thin.discipline members)
    (covers : veil.Covers w w' s s') : evalMembers w' s' members = evalMembers w s members := by
  cases members with
  | nil => rfl
  | cons member rest =>
    cases member with
    | always key body =>
      obtain ⟨_, inner, later⟩ := obeys
      rw [evalMembers, evalMembers, inner.eval covers, evalMembers_obeys later covers]
    | provided condition key value =>
      obtain ⟨conditional, _, valued, later⟩ := obeys
      rw [evalMembers, evalMembers, conditional.eval covers, valued.inBody covers,
        evalMembers_obeys later covers]

end

/-! ### Actions -/

/-- What is given to a call. -/
def Term.given : Term → List Term
  | call _ _ arguments => arguments
  | _ => []

@[simp] theorem Term.given_call (of : Term) (method : String) (arguments : List Term) :
    (of.call method arguments).given = arguments := rfl

theorem Term.ObeysAsCall.given_blind {call : Term} (obeys : call.ObeysAsCall thin.discipline) :
    ∀ a ∈ call.given, a.Blind veil := by
  cases call with
  | call of method arguments => exact TermsObey.blind arguments obeys.2.2
  | _ => cases obeys

theorem Veil.Covers.effect (covers : veil.Covers w w' s s') {call : Term}
    (blind : ∀ a ∈ call.given, a.Blind veil) :
    veil.Covers w w' (s.effect w call) (s'.effect w' call) := by
  unfold State.effect
  split
  · next of key value =>
    have place : key.Blind veil := blind key (by simp)
    have content : value.Blind veil := blind value (by simp)
    simp only [place covers, content covers, covers.printed]
    exact covers.change (f := fun v => v.put (w.printed (key.eval w s)) (value.eval w s))
      (covers.put _ _) of
  · next of value =>
    simp only [List.forall_mem_singleton.mp blind covers]
    exact covers.change (f := fun v => v.add (value.eval w s)) covers of
  · exact covers

/-- What the action looks at is the same in both runs; what it changes may be behind the veil. -/
theorem Action.Obeys.perform {a : Action} (obeys : a.Obeys thin.discipline)
    (covers : veil.Covers w w' s s') : veil.Meet w w' (a.perform w s) (a.perform w' s') := by
  cases a with
  | comment text => exact .next covers
  | set name value =>
    exact .next (covers.bind fun _ => Term.Obeys.blind value obeys.2 covers)
  | run call => exact .next (covers.effect (Term.ObeysAsCall.given_blind obeys))
  | emit value =>
    rw [Action.perform, Action.perform, Term.Obeys.blind value obeys covers]
    exact .next (covers.handOut _)
  | emitNull => exact .next (covers.handOut _)
  | send body =>
    rw [Action.perform, Action.perform, obeys.1.eval covers]
    exact .next (covers.handOut _)
  | acknowledge key =>
    rw [Action.perform, Action.perform, Term.Obeys.blind (.stash key) obeys covers]
    exact .next (covers.handOut _)
  | deliverOwn ownerField =>
    exact .next ⟨covers.world, covers.args, covers.output, rfl, covers.stash, covers.locals⟩
  | refuse => exact .refused
  | fail message kind =>
    rw [Action.perform, Action.perform, Term.Obeys.blind message obeys.1 covers,
      Term.Obeys.blind kind obeys.2 covers]
    exact .failed _ _
  | leaveLoop => exact .left covers
  | stop => exact .stopped covers

/-! ### Scripts -/

/-- Two runs of a script that obeys end alike. -/
theorem Script.Obeys.meets {script : Script} (obeys : script.Obeys thin.discipline)
    (covers : veil.Covers w w' s s') :
    veil.Meet w w' (script.execInPlace w s) (script.execInPlace w' s') := by
  induction script generalizing s s' with
  | done => exact .next covers
  | act a next ih => exact (obeys.1.perform covers).andThen fun _ _ still => ih obeys.2 still
  | choose c yes no next ihYes ihNo ihNext =>
    obtain ⟨decides, first, second, later⟩ := obeys
    rw [execInPlace, execInPlace, decides.eval covers]
    refine Veil.Meet.andThen ?_ fun _ _ still => ihNext later still
    split
    · exact ihYes first covers
    · exact ihNo second covers
  | chooseOr c yes d no next ihYes ihNo ihNext =>
    obtain ⟨decides, first, further, second, later⟩ := obeys
    rw [execInPlace, execInPlace, decides.eval covers, further.eval covers]
    refine Veil.Meet.andThen ?_ fun _ _ still => ihNext later still
    split
    · exact ihYes first covers
    · split
      · exact ihNo second covers
      · exact .next covers
  | each name items body next ihBody ihNext =>
    obtain ⟨⟨_, _, seen⟩, listed, turns, later⟩ := obeys
    rw [execInPlace, execInPlace, Term.Obeys.blind items listed covers]
    exact (loopInPlace_meets seen (fun _ _ still => ihBody turns still) items 0 _ covers).andThen
      fun _ _ still => ihNext later still

end Runs

end Template

end ApiLoom
