import ApiLoom.Proofs.BodyLines
import ApiLoom.Proofs.Columns

/-!
# Bodies with statements

A request that sends statements reads back as what was planned: the statements, a value for each
placeholder, and the hints of those that have one.  The owner is bound behind the others where a
guard narrows the statements and the ownership of the row is checked.
-/

namespace ApiLoom

open Template

/-! ### What was planned -/

namespace SqlStatements

def bindings (q : SqlStatements) : List (String × Draft) :=
  q.placeholders.map fun v => (v.name, .computed v.expression)

/-- The hints of the placeholders that have one. -/
def hints (q : SqlStatements) : List (String × Draft) :=
  q.placeholders.filterMap fun v => (nonEmpty v.typeHint).map fun hint => (v.name, .text hint)

def ownerBinding (q : SqlStatements) (checked : Bool) : List (String × Draft) :=
  if checked ∧ (nonEmpty q.ownerGuard).isSome then [(":owner", .computed "$ctx.identity.sub")]
  else []

/-- The value that the body of the request stands for, with or without an ownership check. -/
def draft (q : SqlStatements) (config : Config) (checked : Bool) : Draft :=
  .object ([
    ("version", .text config.templateVersion),
    ("statements", .list (q.statements.map .text)),
    ("variableMap", .object (q.bindings ++ q.ownerBinding checked))] ++
    if q.hints.isEmpty then [] else [("variableTypeHints", .object q.hints)])

/-- What is written between quotes as it is needs no escape. -/
structure IsSpelled (q : SqlStatements) : Prop where
  names : ∀ v ∈ q.placeholders, Json.IsSpelled v.name
  hints : ∀ v ∈ q.placeholders, ∀ hint, v.typeHint = some hint → Json.IsSpelled hint

end SqlStatements

namespace Template

open Script

/-! ### Before the body -/

namespace Script

/-- No line of the script opens a body. -/
def Unopened (script : Script) : Prop := "\x7b" ∉ script.lines

theorem opening_ne {line : String} {c : Char} (starts : line.toList.head? = some c)
    (other : c ≠ '{') : "\x7b" ≠ line := by
  rintro rfl
  exact other (Option.some.inj starts).symm

theorem unopened_append {first second : Script} (before : first.Unopened)
    (behind : second.Unopened) : (first ++ second).Unopened := by
  unfold Unopened at *
  rw [lines_append, List.mem_append]
  exact fun either => either.elim before behind

theorem unopened_acts {actions : List Action} (each : ∀ a ∈ actions, "\x7b" ∉ a.lines) :
    (acts actions).Unopened := by
  induction actions with
  | nil => exact List.not_mem_nil
  | cons a rest ih =>
    simp only [Unopened, acts, lines, List.mem_append, not_or]
    exact ⟨each a List.mem_cons_self, ih fun b later => each b (List.mem_cons_of_mem _ later)⟩

/-- The lines of a choice are shifted. -/
theorem unopened_when (c : Cond) (body : Script) : (when c body).Unopened := by
  have shifted : "\x7b" ∉ shift body.lines := by
    intro member
    obtain ⟨line, -, same⟩ := List.mem_map.mp member
    exact opening_ne (c := ' ') (by simp [String.toList_append]) (by decide) same.symm
  have opens : "\x7b" ≠ "#if(" ++ c.text ++ ")" :=
    opening_ne (c := '#') (by simp [String.toList_append]) (by decide)
  simp [Unopened, when, lines, shifted, opens, isDone]

theorem set_unopened (name : String) (value : Term) : "\x7b" ∉ (Action.set name value).lines := by
  rw [Action.lines, List.mem_singleton]
  exact opening_ne (c := '#') (by simp [String.toList_append]) (by decide)

theorem run_unopened (call : Term) : "\x7b" ∉ (Action.run call).lines := by
  rw [Action.lines, List.mem_singleton]
  exact opening_ne (c := '$') (by simp [String.toList_append]) (by decide)

theorem comment_unopened (text : String) : "\x7b" ∉ (Action.comment text).lines := by
  rw [Action.lines, List.mem_singleton]
  exact opening_ne (c := '#') (by simp [String.toList_append]) (by decide)

end Script

theorem beforeGuard_unopened (q : SqlStatements) : (beforeGuard q).Unopened := by
  refine unopened_append (unopened_acts fun a member => ?_) ?_
  · obtain ⟨assignment, -, rfl⟩ := List.mem_map.mp member
    exact set_unopened _ _
  · cases q.page with
    | none => exact List.not_mem_nil
    | some page =>
      refine unopened_append (unopened_append (unopened_append ?_ ?_) ?_) ?_
      · exact unopened_acts (by simp [set_unopened])
      · exact unopened_when _ _
      · exact unopened_when _ _
      · refine unopened_append (unopened_append ?_ (unopened_when _ _)) ?_
        · exact unopened_acts (by simp [set_unopened])
        · exact unopened_acts (by simp [run_unopened])

theorem guardScript_unopened (guard : Option String) : (guardScript guard).Unopened := by
  unfold guardScript
  cases nonEmpty guard with
  | none => exact List.not_mem_nil
  | some owner =>
    refine unopened_append ?_ (unopened_when _ _)
    exact unopened_acts (by simp [set_unopened, comment_unopened])

/-! ### The body -/

section Body

variable {config : Config} {q : SqlStatements} {checked : Bool}

theorem statements_draw (q : SqlStatements) (checked : Bool) :
    (Body.rows (q.statements.map .quoted)).Draws checked (.list (q.statements.map .text)) := by
  let items := q.statements.map fun s => (Term.quoted s, Draft.text s)
  have draws : ∀ x ∈ items, x.1.Draws x.2 := by
    intro x member
    obtain ⟨s, -, rfl⟩ := List.mem_map.mp member
    exact .quoted s
  simpa only [items, List.map_map, Function.comp_def] using Body.draws_rows draws

/-- Each placeholder with the member that binds it. -/
def boundMembers (q : SqlStatements) : List (Member × String × Draft) :=
  q.placeholders.map fun v =>
    (.always v.name (.value (Term.verbatim v.expression).asJson), v.name, .computed v.expression)

theorem boundMembers_draw (spelled : q.IsSpelled) :
    ∀ x ∈ boundMembers q, x.1.Draws checked x.2 := by
  intro x member
  obtain ⟨v, listed, rfl⟩ := List.mem_map.mp member
  exact .always (spelled.names v listed) (Body.draws_value (.asJson (.verbatim v.expression)))

theorem caller_draws : Term.caller.asJson.Draws (.computed "$ctx.identity.sub") := by
  have text : Term.caller.text = "$ctx.identity.sub" := by
    simp [Term.caller, Term.identity, Term.context, Term.text]
  exact text ▸ Term.Draws.asJson Term.caller

theorem variableMap_draws (spelled : q.IsSpelled) :
    (Body.object ((q.placeholders.map fun v =>
      .always v.name (.value (Term.verbatim v.expression).asJson)) ++
        ownerMembers q.ownerGuard)).Draws checked
      (.object (q.bindings ++ q.ownerBinding checked)) := by
  have members : (q.placeholders.map fun v =>
      .always v.name (.value (Term.verbatim v.expression).asJson)) =
        (boundMembers q).map Prod.fst := by
    simp [boundMembers]
  have bindings : q.bindings = (boundMembers q).map Prod.snd := by
    simp [SqlStatements.bindings, boundMembers]
  have draws : ∀ x ∈ boundMembers q, x.1.Draws checked x.2 := boundMembers_draw spelled
  rw [members, bindings, SqlStatements.ownerBinding, ownerMembers]
  cases nonEmpty q.ownerGuard with
  | none => simpa using Body.draws_members draws
  | some owner =>
    simpa using Body.draws_checked draws (by decide) caller_draws

/-- Each hint with its placeholder. -/
def hintMembers (q : SqlStatements) : List (Member × String × Draft) :=
  q.placeholders.filterMap fun v =>
    (nonEmpty v.typeHint).map fun hint => (.always v.name (.plain hint), v.name, .text hint)

theorem hintMembers_draw (spelled : q.IsSpelled) :
    ∀ x ∈ hintMembers q, x.1.Draws checked x.2 := by
  intro x member
  obtain ⟨v, listed, hinted⟩ := List.mem_filterMap.mp member
  obtain ⟨hint, given, rfl⟩ := Option.map_eq_some_iff.mp hinted
  have plain := spelled.hints v listed hint (nonEmpty_eq_some_iff.mp given).1
  exact .always (spelled.names v listed) (Body.draws_value (.plain plain))

theorem typeHints_eq (q : SqlStatements) :
    typeHints q.placeholders = (hintMembers q).map Prod.fst := by
  simp [typeHints, hintMembers, List.map_filterMap, Function.comp_def]

theorem hints_eq (q : SqlStatements) : q.hints = (hintMembers q).map Prod.snd := by
  simp [SqlStatements.hints, hintMembers, List.map_filterMap, Function.comp_def]

theorem typeHints_draw (spelled : q.IsSpelled) :
    (Body.object (typeHints q.placeholders)).Draws checked (.object q.hints) := by
  rw [typeHints_eq, hints_eq]
  exact Body.draws_members (hintMembers_draw spelled)

/-- The members that every body with statements has. -/
def fixedMembers (config : Config) (q : SqlStatements) (checked : Bool) :
    List (Member × String × Draft) := [
  (.always "version" (.plain config.templateVersion), "version", .text config.templateVersion),
  (.always "statements" (.rows (q.statements.map .quoted)),
    "statements", .list (q.statements.map .text)),
  (.always "variableMap" (.object ((q.placeholders.map fun v =>
      .always v.name (.value (Term.verbatim v.expression).asJson)) ++ ownerMembers q.ownerGuard)),
    "variableMap", .object (q.bindings ++ q.ownerBinding checked))]

theorem fixedMembers_draw (version : Json.IsSpelled config.templateVersion)
    (spelled : q.IsSpelled) : ∀ x ∈ fixedMembers config q checked, x.1.Draws checked x.2 := by
  intro x member
  simp only [fixedMembers, List.mem_cons, List.not_mem_nil, or_false] at member
  rcases member with rfl | rfl | rfl
  · exact .always (by decide) (Body.draws_value (.plain version))
  · exact .always (by decide) (statements_draw q checked)
  · exact .always (by decide) (variableMap_draws spelled)

theorem sqlBody_draws (version : Json.IsSpelled config.templateVersion) (spelled : q.IsSpelled) :
    (versioned config (sqlMembers q)).Draws checked (q.draft config checked) := by
  have fixed : ∀ x ∈ fixedMembers config q checked, x.1.Draws checked x.2 :=
    fixedMembers_draw version spelled
  have filled : (typeHints q.placeholders).isEmpty = q.hints.isEmpty := by
    rw [typeHints_eq, hints_eq, List.isEmpty_map, List.isEmpty_map]
  unfold versioned sqlMembers SqlStatements.draft
  rw [filled]
  cases q.hints.isEmpty with
  | true => exact Body.draws_members fixed
  | false =>
    let hinted : Member × String × Draft :=
      (.always "variableTypeHints" (.object (typeHints q.placeholders)),
        "variableTypeHints", .object q.hints)
    have last : hinted.1.Draws checked hinted.2 := .always (by decide) (typeHints_draw spelled)
    have all : ∀ x ∈ fixedMembers config q checked ++ [hinted], x.1.Draws checked x.2 :=
      List.forall_mem_append.mpr ⟨fixed, List.forall_mem_singleton.mpr last⟩
    exact Body.draws_members all

end Body

end Template

/-- The body of a request with statements is well formed.  It reads back as the statements, the
values of the placeholders in their order, with that of the owner behind them if a guard narrows
the statements and the ownership is checked, and the hints of the placeholders that have one. -/
theorem sql_reads {config : Config} {q : SqlStatements}
    (version : Json.IsSpelled config.templateVersion) (spelled : q.IsSpelled) (checked : Bool) :
    Draft.readBody checked (perform config (.sql q)).lines = some (q.draft config checked) := by
  have lines : (perform config (.sql q)).lines =
      (beforeGuard q ++ guardScript q.ownerGuard).lines ++
        (versioned config (sqlMembers q)).lines := by
    rw [sql_parts, Script.lines_append]
    simp [Script.acts, Script.lines, Action.lines]
  have lead : (beforeGuard q ++ guardScript q.ownerGuard).Unopened :=
    Script.unopened_append (beforeGuard_unopened q) (guardScript_unopened q.ownerGuard)
  rw [lines]
  exact (sqlBody_draws version spelled).read lead

/-- Puts off a note of the caller, and hands out what it is then. -/
def putOff : SqlStatements where
  statements := ["UPDATE \"notes\" SET \"due\" = :due WHERE \"id\" = :id$ownerGuard",
    "SELECT * FROM \"notes\" WHERE \"id\" = :id"]
  placeholders := [⟨":id", "$input.id", none⟩, ⟨":due", "$input.due", some "TIMESTAMP"⟩]
  prelude := [⟨"input", "$ctx.args.input"⟩]
  page := none
  ownerGuard := some "author"

theorem sql_reads_putOff :
    putOff.IsSpelled ∧ Json.IsSpelled Config.default.templateVersion ∧
      ∀ checked, Draft.readBody checked (perform .default (.sql putOff)).lines =
        some (.object [
          ("version", .text "2018-05-29"),
          ("statements", .list (putOff.statements.map .text)),
          ("variableMap", .object ([(":id", .computed "$input.id"),
            (":due", .computed "$input.due")] ++
              if checked then [(":owner", .computed "$ctx.identity.sub")] else [])),
          ("variableTypeHints", .object [(":due", .text "TIMESTAMP")])]) := by
  have spelled : putOff.IsSpelled := ⟨by decide, by
    intro v listed hint given
    simp only [putOff, List.mem_cons, List.not_mem_nil, or_false] at listed
    rcases listed with rfl | rfl <;> cases given
    decide⟩
  have version : Json.IsSpelled Config.default.templateVersion := by decide
  refine ⟨spelled, version, fun checked => ?_⟩
  rw [sql_reads version spelled checked]
  cases checked <;> rfl

end ApiLoom
