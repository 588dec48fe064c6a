import ApiLoom.Proofs.Decision
import ApiLoom.Proofs.Directives
import ApiLoom.Proofs.Lines
import ApiLoom.Proofs.WrittenNames
import ApiLoom.Resolver.Engine
import ApiLoom.Template.Request
import ApiLoom.Template.Response

/-!
# Disciplines

What may be demanded of all parts of a template: that no line of it is a write into the input,
that its directives nest, that it does not look at some variables.  A discipline says which texts
may stand where, and allows what templates put together of texts that are allowed.  Which scripts
obey is then shown once, for every discipline.
-/

namespace ApiLoom

namespace Text

/-- The text neither ends a line nor has a reference or a directive in it. -/
def Free (s : String) : Prop := '\n' ∉ s.toList ∧ '$' ∉ s.toList ∧ '#' ∉ s.toList

/-- As `Free`, but a `#` may stand where it starts no directive. -/
def Fixed (s : String) : Prop := '\n' ∉ s.toList ∧ '$' ∉ s.toList ∧ Inert s

/-- The text keeps what is written behind it from the beginning of a line. -/
def Glue (s : String) : Prop := Free s ∧ Runs true false s

instance (s : String) : Decidable (Free s) := inferInstanceAs (Decidable (_ ∧ _ ∧ _))

instance (s : String) : Decidable (Fixed s) := inferInstanceAs (Decidable (_ ∧ _ ∧ _))

instance (s : String) : Decidable (Glue s) := inferInstanceAs (Decidable (_ ∧ _))

end Text

theorem Text.int_free (n : Int) : Text.Free (toString n) :=
  ⟨fun member => absurd (Text.mem_int member) (by decide),
    fun member => absurd (Text.mem_int member) (by decide),
    fun member => absurd (Text.mem_int member) (by decide)⟩

namespace Template

open Text (Free Fixed Glue IsName)

/-! ### What is demanded -/

/-- The stash entries that decisions and pages are kept in. -/
def workingKeys : List String :=
  [needsOwnershipCheck, ownershipConfirmed, filterByOwner, pageLimitKey, pageOffsetKey]

/-- Names of variables that templates set beside the decision about the caller. -/
def IsOwn (name : String) : Prop :=
  Fixed name ∧ ¬ "ctx".toList <+: name.toList ∧ name ∉ decisionLocals

instance (name : String) : Decidable (IsOwn name) := inferInstanceAs (Decidable (_ ∧ _ ∧ _))

/-- Which texts may stand where in a script. -/
structure Discipline where
  /-- The texts that may stand anywhere. -/
  text : String → Prop
  /-- Names of members, methods and keys, and of variables that are set. -/
  name : String → Prop
  /-- Between quotes, as they are. -/
  plain : String → Prop
  /-- With escapes, in what is computed. -/
  quoted : String → Prop
  /-- With escapes, in what is sent. -/
  row : String → Prop
  /-- Expressions of the template language. -/
  expression : String → Prop
  /-- The variables that may be looked at. -/
  reads : String → Prop
  /-- The parts of the context that may be looked at. -/
  part : String → Prop
  /-- The stash entries that may be looked at. -/
  key : String → Prop
  /-- What may be called for an effect. -/
  receiver : Term → Prop
  name_text {s : String} : text s → name s
  plain_text {s : String} : text s → plain s
  quoted_text {s : String} : text s → quoted s
  row_text {s : String} : text s → row s
  quoted_behind {s t : String} : Text.Bare s → text t → quoted (s ++ t)
  name_fixed {s : String} : Fixed s → name s
  plain_fixed {s : String} : Fixed s → plain s
  /-- A text that is shown together with the value of a variable. -/
  plain_shown {name s : String} : IsOwn name → Text.isIdentifier name = true → Fixed s →
    (s = "" ∨ s.toList.head? = some ' ') → plain ("$" ++ name ++ s)
  reads_own {s : String} : IsOwn s → reads s
  part_other {s : String} : s ≠ "stash" → s ≠ "prev" → part s
  key_working {s : String} : s ∈ workingKeys → key s
  receiver_own {s : String} : IsOwn s → receiver (.var s)
  receiver_stash : receiver (Term.context.member "stash")
  text_free {s : String} : Free s → text s
  text_name {s : String} : IsName s → text s
  text_behind {s t : String} : text s → text t → '$' ∉ t.toList → text (s ++ t)
  text_ahead {s t : String} : Free s → text t → text (s ++ t)
  text_join {s g t : String} : text s → Glue g → text t → text (s ++ g ++ t)
  expression_arguments : expression "$ctx.args"
  expression_argument {s : String} : text s → expression (argument s)
  expression_input {s : String} : text s → expression ("$input." ++ s)
  expression_source {s : String} : text s → expression (sourceField s)
  expression_own {s : String} : IsOwn s → Text.isIdentifier s = true → expression ("$" ++ s)
  expression_called {s : String} : '(' ∈ s.toList → Text.Calm s → Text.Inert s → expression s
  plain_path {s t : String} : text s → text t → plain (s ++ "/" ++ argument t)
  plain_query {config : Config} {q : String × String} : q ∈ Model.httpQuery config → plain q.2
  row_statement {st : SqlStatement} : (∀ s ∈ st.table :: st.columns, text s) → row st.text

variable {d : Discipline}

mutual

/-- All texts of the term are allowed where they stand. -/
@[simp] def Term.Obeys (d : Discipline) : Term → Prop
  | .verbatim s => d.expression s
  | .var s => d.reads s
  | .plain s => d.plain s
  | .quoted s => d.quoted s
  | .number _ | .truth _ | .null | .emptyMap => True
  | .member of name => d.name name ∧ (of.Obeys d ∨ (of = .context ∧ d.part name) ∨
      of = Term.context.member "stash" ∧ d.key name)
  | .item of key => of.Obeys d ∧ key.Obeys d
  | .call of method arguments => of.Obeys d ∧ d.name method ∧ TermsObey d arguments
  | .list items => TermsObey d items
  | .entry key value => key.Obeys d ∧ value.Obeys d
  | .sum left right => left.Obeys d ∧ right.Obeys d
  | .negated t => t.Obeys d

@[simp] def TermsObey (d : Discipline) : List Term → Prop
  | [] => True
  | t :: rest => t.Obeys d ∧ TermsObey d rest

end

/-- In a body there may also be the list of the set expressions. -/
def Term.ObeysInBody (d : Discipline) : Term → Prop
  | .quoted s => d.row s
  | .verbatim s => d.expression s ∨ s = setClause
  | t => t.Obeys d

/-- The term is a call, and allowed for its effect. -/
def Term.ObeysAsCall (d : Discipline) : Term → Prop
  | .call of method arguments => d.receiver of ∧ d.name method ∧ TermsObey d arguments
  | _ => False

@[simp] def Cond.Obeys (d : Discipline) : Cond → Prop
  | .holds t | .fails t => t.Obeys d
  | .compare left _ right => left.Obeys d ∧ right.Obeys d
  | .oneOf subject texts => subject.Obeys d ∧ ∀ s ∈ texts, d.quoted s
  | .both first second => first.Obeys d ∧ second.Obeys d

mutual

/-- The rows of a body are texts. -/
@[simp] def Body.Obeys (d : Discipline) : Body → Prop
  | .value t => t.ObeysInBody d
  | .rows items => ∀ t ∈ items, ∃ s, t = .quoted s ∧ d.row s
  | .object members => MembersObey d members

@[simp] def MembersObey (d : Discipline) : List Member → Prop
  | [] => True
  | .always key body :: rest => d.name key ∧ body.Obeys d ∧ MembersObey d rest
  | .provided condition key value :: rest =>
    condition.Obeys d ∧ d.name key ∧ value.ObeysInBody d ∧ MembersObey d rest

end

@[simp] def Body.isObject : Body → Bool
  | .object _ => true
  | _ => false

/-- What is sent is an object. -/
@[simp] def Action.Obeys (d : Discipline) : Action → Prop
  | .comment text => d.text text
  | .set name value => d.name name ∧ value.Obeys d
  | .run call => call.ObeysAsCall d
  | .emit value => value.Obeys d
  | .send body => body.Obeys d ∧ body.isObject = true
  | .acknowledge key => (Term.stash key).Obeys d
  | .deliverOwn owner => d.name owner
  | .fail message kind => message.Obeys d ∧ kind.Obeys d
  | .emitNull | .refuse | .leaveLoop | .stop => True

def Script.Obeys (d : Discipline) : Script → Prop
  | done => True
  | act a next => a.Obeys d ∧ next.Obeys d
  | choose c yes no next => c.Obeys d ∧ yes.Obeys d ∧ no.Obeys d ∧ next.Obeys d
  | chooseOr c yes e no next =>
    c.Obeys d ∧ yes.Obeys d ∧ e.Obeys d ∧ no.Obeys d ∧ next.Obeys d
  | each name items body next =>
    (d.name name ∧ d.reads name) ∧ items.Obeys d ∧ body.Obeys d ∧ next.Obeys d

/-- The discipline lets scripts look at the decision about the caller, at what the stage before
handed on, and at all of the stash. -/
structure Discipline.IsOpen (d : Discipline) : Prop where
  decision : ∀ name ∈ decisionLocals, d.reads name
  handed : d.part "prev"
  stash : ∀ key, d.key key

/-! ### Terms of templates -/

attribute [simp] Discipline.name_fixed Discipline.plain_fixed Discipline.reads_own
  Discipline.receiver_own Discipline.receiver_stash

section Terms

variable {t u : Term} {key name : String}

theorem context_obeys (named : d.name name) (other : name ≠ "stash") (later : name ≠ "prev") :
    (Term.context.member name).Obeys d :=
  ⟨named, .inr (.inl ⟨rfl, d.part_other other later⟩)⟩

theorem stash_obeys (named : d.name key) (seen : d.key key) : (Term.stash key).Obeys d :=
  ⟨named, .inr (.inr ⟨rfl, seen⟩)⟩

@[simp] theorem working_obeys (working : key ∈ workingKeys) : (Term.stash key).Obeys d := by
  refine stash_obeys (d.name_fixed ?_) (d.key_working working)
  have fixed : ∀ key ∈ workingKeys, Fixed key := by decide
  exact fixed key working

@[simp] theorem util_obeys : Term.util.Obeys d := d.reads_own (by decide)

@[simp] theorem canAccess_obeys : Term.canAccess.Obeys d := d.reads_own (by decide)

@[simp] theorem record_obeys : Term.record.Obeys d := d.reads_own (by decide)

@[simp] theorem visible_obeys : Term.visible.Obeys d := d.reads_own (by decide)

@[simp] theorem items_obeys : Term.items.Obeys d := d.reads_own (by decide)

@[simp] theorem connection_obeys : Term.connection.Obeys d := d.reads_own (by decide)

@[simp] theorem connection_receiver : d.receiver .connection := d.receiver_own (by decide)

@[simp] theorem arguments_obeys : Term.arguments.Obeys d :=
  context_obeys (d.name_fixed (by decide)) (by decide) (by decide)

@[simp] theorem result_obeys : Term.result.Obeys d :=
  context_obeys (d.name_fixed (by decide)) (by decide) (by decide)

@[simp] theorem identity_obeys : Term.identity.Obeys d :=
  context_obeys (d.name_fixed (by decide)) (by decide) (by decide)

@[simp] theorem caller_obeys : Term.caller.Obeys d :=
  ⟨d.name_fixed (by decide), .inl identity_obeys⟩

@[simp] theorem headers_obeys : Term.headers.Obeys d :=
  ⟨d.name_fixed (by decide),
    .inl (context_obeys (d.name_fixed (by decide)) (by decide) (by decide))⟩

theorem previousResult_obeys (handed : d.part "prev") : Term.previousResult.Obeys d :=
  ⟨d.name_fixed (by decide), .inl ⟨d.name_fixed (by decide), .inr (.inl ⟨rfl, handed⟩)⟩⟩

@[simp] theorem orDefault_obeys : (t.orDefault u).Obeys d ↔ t.Obeys d ∧ u.Obeys d := by
  simp +decide [Term.orDefault]

@[simp] theorem isBlank_obeys : t.isBlank.Obeys d ↔ t.Obeys d := by
  simp +decide [Term.isBlank]

@[simp] theorem asJson_obeys : t.asJson.Obeys d ↔ t.Obeys d := by
  simp +decide [Term.asJson]

@[simp] theorem quoted_obeysInBody {s : String} : (Term.quoted s).ObeysInBody d ↔ d.row s := Iff.rfl

@[simp] theorem verbatim_obeysInBody {s : String} :
    (Term.verbatim s).ObeysInBody d ↔ d.expression s ∨ s = setClause := Iff.rfl

@[simp] theorem plain_obeysInBody {s : String} : (Term.plain s).ObeysInBody d ↔ d.plain s := Iff.rfl

@[simp] theorem var_obeysInBody : (Term.var name).ObeysInBody d ↔ d.reads name := Iff.rfl

@[simp] theorem number_obeysInBody {n : Int} : (Term.number n).ObeysInBody d := trivial

@[simp] theorem emptyMap_obeysInBody : Term.emptyMap.ObeysInBody d := trivial

@[simp] theorem entry_obeysInBody :
    (Term.entry t u).ObeysInBody d ↔ t.Obeys d ∧ u.Obeys d := Iff.rfl

@[simp] theorem call_obeysInBody {arguments : List Term} :
    (t.call name arguments).ObeysInBody d ↔ (t.call name arguments).Obeys d := Iff.rfl

@[simp] theorem call_obeysAsCall {arguments : List Term} :
    (t.call name arguments).ObeysAsCall d ↔
      d.receiver t ∧ d.name name ∧ TermsObey d arguments := Iff.rfl

@[simp] theorem asJson_obeysInBody : t.asJson.ObeysInBody d ↔ t.Obeys d := asJson_obeys

@[simp] theorem parsed_obeys : t.parsed.Obeys d ↔ t.Obeys d := by
  simp +decide [Term.parsed]

@[simp] theorem typed_obeys : t.typed.Obeys d ↔ t.Obeys d := by
  simp +decide [Term.typed]

@[simp] theorem typedJson_obeys : t.typedJson.Obeys d ↔ t.Obeys d := by
  simp +decide [Term.typedJson]

@[simp] theorem typedJson_obeysInBody : t.typedJson.ObeysInBody d ↔ t.Obeys d := typedJson_obeys

@[simp] theorem now_obeys : Term.now.Obeys d := by
  simp +decide [Term.now]

@[simp] theorem stashPut_obeysAsCall :
    (Term.stashPut key t).ObeysAsCall d ↔ d.plain key ∧ t.Obeys d := by
  simp +decide [Term.stashPut]

@[simp] theorem flagged_obeys : (Cond.flagged key).Obeys d ↔ (Term.stash key).Obeys d := Iff.rfl

/-- A text may be followed by one that is `Free`. -/
theorem Discipline.text_ends (d : Discipline) {s t : String} (written : d.text s)
    (free : Free t) : d.text (s ++ t) :=
  d.text_behind written (d.text_free free) free.2.1

theorem Discipline.text_intercalate (d : Discipline) {sep : String} (between : Glue sep)
    {parts : List String} (each : ∀ s ∈ parts, d.text s) :
    d.text (String.intercalate sep parts) := by
  induction parts with
  | nil =>
    rw [String.intercalate_nil]
    exact d.text_free (by decide)
  | cons s rest ih =>
    obtain ⟨first, others⟩ := List.forall_mem_cons.mp each
    cases rest with
    | nil => simpa using first
    | cons t later =>
      rw [String.intercalate_cons_cons]
      exact d.text_join first between (ih others)

theorem of_nonEmpty {text : Option String} {s : String} {p : String → Prop}
    (each : ∀ s ∈ text, p s) (filled : nonEmpty text = some s) : p s :=
  each s (Option.eq_some_of_filter_eq_some filled)

end Terms

/-! ### Members and rows -/

@[simp] theorem body_plain_obeys {s : String} : (Body.plain s).Obeys d ↔ d.plain s := Iff.rfl

@[simp] theorem body_quoted_obeys {s : String} : (Body.quoted s).Obeys d ↔ d.row s := Iff.rfl

@[simp] theorem body_verbatim_obeys {s : String} :
    (Body.verbatim s).Obeys d ↔ d.expression s ∨ s = setClause := Iff.rfl

theorem rows_obey {texts : List String} :
    (Body.rows (texts.map .quoted)).Obeys d ↔ ∀ s ∈ texts, d.row s := by
  simp

@[simp] theorem membersObey_append {first second : List Member} :
    MembersObey d (first ++ second) ↔ MembersObey d first ∧ MembersObey d second := by
  induction first with
  | nil => simp [MembersObey]
  | cons m rest ih => cases m <;> simp [MembersObey, ih, and_assoc]

@[simp] theorem membersObey_map {α : Type} {key : α → String} {body : α → Body} {xs : List α} :
    MembersObey d (xs.map fun x => .always (key x) (body x)) ↔
      ∀ x ∈ xs, d.name (key x) ∧ (body x).Obeys d := by
  induction xs with
  | nil => simp [MembersObey]
  | cons x rest ih => simp [MembersObey, ih, and_assoc]

/-! ### Parts of scripts -/

namespace Script

variable {s t : Script}

@[simp] theorem obeys_done : done.Obeys d := trivial

@[simp] theorem obeys_append : (s ++ t).Obeys d ↔ s.Obeys d ∧ t.Obeys d := by
  induction s <;> simp_all [Obeys, and_assoc]

@[simp] theorem obeys_acts {actions : List Action} :
    (acts actions).Obeys d ↔ ∀ a ∈ actions, a.Obeys d := by
  induction actions with
  | nil => simp [acts]
  | cons a rest ih => simp [acts, Obeys, ih]

@[simp] theorem obeys_when {c : Cond} : (when c s).Obeys d ↔ c.Obeys d ∧ s.Obeys d := by
  simp [when, Obeys]

@[simp] theorem obeys_whenNot {term : Term} :
    (whenNot term s).Obeys d ↔ term.Obeys d ∧ s.Obeys d :=
  obeys_when

@[simp] theorem obeys_either {c : Cond} :
    (either c s t).Obeys d ↔ c.Obeys d ∧ s.Obeys d ∧ t.Obeys d := by
  simp [either, Obeys]

@[simp] theorem obeys_forEach {name : String} {items : Term} :
    (forEach name items s).Obeys d ↔
      (d.name name ∧ d.reads name) ∧ items.Obeys d ∧ s.Obeys d := by
  simp [forEach, Obeys]

@[simp] theorem obeys_concat {parts : List Script} :
    (concat parts).Obeys d ↔ ∀ p ∈ parts, p.Obeys d := by
  induction parts with
  | nil => simp [concat]
  | cons p rest ih => simp [concat, ih]

end Script

end Template

end ApiLoom
