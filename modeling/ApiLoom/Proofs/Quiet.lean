import ApiLoom.Proofs.DisciplinedModels

/-!
# Quiet scripts

Scripts none of whose lines writes into the input of the request.  What is put into a
template may hold line breaks, as long as none of them is followed by a reference: that is a
discipline, and a script that obeys it is quiet.
-/

namespace ApiLoom

namespace Text

/-! ### Written values -/

theorem quote_unbroken (s : String) : '\n' ∉ (quote s).toList := by
  intro member
  rcases mem_quote member with ⟨_, printable⟩ | other
  · exact absurd printable (by decide)
  · exact absurd other (by decide)

theorem int_unbroken (n : Int) : '\n' ∉ (toString n).toList :=
  fun member => absurd (mem_int member) (by decide)

end Text

namespace Template

open Text (Runs Calm Quiet)

/-! ### The discipline -/

theorem calm_ahead {s t : String} (free : '\n' ∉ s.toList) (calm : Calm t) : Calm (s ++ t) :=
  (Runs.unbroken free).append calm

theorem calm_httpQuery {config : Config} : ∀ q ∈ Model.httpQuery config, Calm q.2 := by
  have limit : Calm s!"$util.defaultIfNull($ctx.args.limit, {config.defaultPageSize})" :=
    (((by decide : Runs false false "$util.defaultIfNull($ctx.args.limit, ").append
      (Runs.unbroken (Text.int_unbroken _))).append (by decide : Runs false false ")")).toCalm
  exact List.forall_mem_cons.mpr ⟨limit, List.forall_mem_singleton.mpr
    (by decide : Calm "$util.defaultIfNullOrBlank($ctx.args.nextToken, '')")⟩

/-- Texts may hold line breaks, but no reference at the start of a line; only variables of the
template and the stash are written into. -/
def Discipline.calm : Discipline where
  text := Calm
  name := Calm
  plain := Calm
  quoted _ := True
  row _ := True
  expression := Calm
  reads := Calm
  part _ := True
  key _ := True
  receiver t := (∃ name, t = .var name ∧ Calm name ∧ ¬ "ctx".toList <+: name.toList) ∨
    t = Term.context.member "stash"
  name_text := id
  plain_text := id
  quoted_text _ := trivial
  row_text _ := trivial
  quoted_behind _ _ := trivial
  name_fixed fixed := (Runs.unbroken fixed.1).toCalm
  plain_fixed fixed := (Runs.unbroken fixed.1).toCalm
  plain_shown own _ fixed _ := by
    refine (Runs.unbroken ?_).toCalm
    simp only [String.toList_append, List.mem_append, not_or]
    exact ⟨⟨by decide, own.1.1⟩, fixed.1⟩
  reads_own own := (Runs.unbroken own.1.1).toCalm
  part_other _ _ := trivial
  key_working _ := trivial
  receiver_own own := .inl ⟨_, rfl, (Runs.unbroken own.1.1).toCalm, own.2.1⟩
  receiver_stash := .inr rfl
  text_free free := (Runs.unbroken free.1).toCalm
  text_name name := .plain (name.notMem rfl)
  text_behind first second unread := first.append (.plain unread)
  text_ahead free := calm_ahead free.1
  text_join first glue second := (first.append glue.2).append second
  expression_arguments := by decide
  expression_argument := calm_ahead (by decide)
  expression_input := calm_ahead (by decide)
  expression_source := calm_ahead (by decide)
  expression_own own _ := calm_ahead (by decide) (Runs.unbroken own.1.1).toCalm
  expression_called _ calm _ := calm
  plain_path first second :=
    (first.append (by decide : Runs true false "/")).append (calm_ahead (by decide) second)
  plain_query := calm_httpQuery _
  row_statement _ := trivial

theorem calm_isOpen : Discipline.calm.IsOpen where
  decision := (by decide : ∀ name ∈ decisionLocals, Calm name)
  handed := trivial
  stash _ := trivial

theorem calm_marks : Discipline.calm.Marks := fun s written =>
  ⟨calm_ahead (by decide) written, ((calm_ahead (by decide) written).append
    (by decide : Runs true false " = :")).append written⟩

/-! ### Terms -/

theorem plain_runs {s : String} (calm : Calm s) (fresh : Bool) :
    Runs fresh false ("\"" ++ s ++ "\"") := by
  have opened : Runs fresh false "\"" := Runs.anywhere (by decide) fresh
  have closed : Runs true false "\"" := by decide
  exact (opened.append calm).append closed

theorem quote_runs (s : String) (fresh : Bool) : Runs fresh true (Text.quote s) := by
  have calm : Calm (Text.quote s) := (Runs.unbroken (Text.quote_unbroken s)).toCalm
  have quotation : (Text.quote s).toList =
      '"' :: (s.toList.flatMap Text.Quoted.encodeChar ++ ['"']) := by
    rw [Text.quote, String.toList_ofList]
    rfl
  exact calm.within quotation (by decide) (by decide)

mutual

theorem Term.text_calm : (t : Term) → t.Obeys .calm → Calm t.text
  | .verbatim s, calm => calm
  | .var name, calm => Runs.append (by decide : Runs false false "$") calm
  | .plain s, calm => (plain_runs calm false).toCalm
  | .quoted s, _ => (Runs.unbroken (Text.quote_unbroken s)).toCalm
  | .number n, _ => (Runs.unbroken (Text.int_unbroken n)).toCalm
  | .truth true, _ | .truth false, _ | .null, _ | .emptyMap, _ => by
    simp only [Term.text]
    decide
  | .member of name, ⟨named, place⟩ => by
    have inner : Calm of.text := by
      rcases place with own | ⟨same, _⟩ | ⟨same, _⟩
      · exact Term.text_calm of own
      · exact same ▸ (by decide : Calm "$ctx")
      · exact same ▸ (by decide : Calm "$ctx.stash")
    exact (inner.append (by decide : Runs true false ".")).append named
  | .item of key, calm =>
    (((Term.text_calm of calm.1).append (by decide : Runs true false "[")).append
      (Term.text_calm key calm.2)).append (by decide : Runs true true "]")
  | .call of method arguments, calm =>
    (((((Term.text_calm of calm.1).append (by decide : Runs true false ".")).append
      calm.2.1).append (by decide : Runs true false "(")).append
        (Runs.intercalate (by decide : Runs true false ", ")
          (Term.texts_calm arguments calm.2.2))).append (by decide : Runs true true ")")
  | .list items, calm =>
    ((by decide : Runs false false "[").append
      (Runs.intercalate (by decide : Runs true false ", ") (Term.texts_calm items calm))).append
        (by decide : Runs true true "]")
  | .entry key value, calm =>
    ((((by decide : Runs false false "\x7b ").append (Term.text_calm key calm.1)).append
      (by decide : Runs true false ": ")).append (Term.text_calm value calm.2)).append
        (by decide : Runs true true " \x7d")
  | .sum left right, calm =>
    ((Term.text_calm left calm.1).append (by decide : Runs true false " + ")).append
      (Term.text_calm right calm.2)
  | .negated t, calm => (by decide : Runs false false "!").append (Term.text_calm t calm)

theorem Term.texts_calm : (ts : List Term) → TermsObey .calm ts → ∀ s ∈ Term.texts ts, Calm s
  | [], _ => by simp [Term.texts]
  | t :: rest, calm => by
    intro s member
    rcases List.mem_cons.mp member with rfl | later
    · exact Term.text_calm t calm.1
    · exact Term.texts_calm rest calm.2 s later

end

theorem Term.ObeysInBody.text_calm {t : Term} (obeys : t.ObeysInBody .calm) : Calm t.text := by
  cases t with
  | quoted s => exact (Runs.unbroken (Text.quote_unbroken s)).toCalm
  | verbatim s =>
    rcases obeys with calm | rfl
    · exact calm
    · exact (by decide : Calm setClause)
  | _ => exact Term.text_calm _ obeys

/-! ### Conditions -/

theorem Cond.text_calm : (c : Cond) → c.Obeys .calm → Calm c.text
  | .holds t, calm => t.text_calm calm
  | .fails t, calm => (by decide : Runs false false "!").append (t.text_calm calm)
  | .compare left how right, calm => by
    have sign : Runs true false (" " ++ how.sign ++ " ") := by
      cases how <;> decide
    have written : (Cond.compare left how right).text =
        left.text ++ (" " ++ how.sign ++ " ") ++ right.text := by
      simp only [Cond.text, String.append_assoc]
    rw [written]
    exact ((left.text_calm calm.1).append sign).append (right.text_calm calm.2)
  | .oneOf subject texts, calm => by
    refine Runs.intercalate (by decide) fun s member => ?_
    obtain ⟨text, _, rfl⟩ := List.mem_map.mp member
    exact ((subject.text_calm calm.1).append (by decide : Runs true false " == ")).append
      (quote_runs text false)
  | .both first second, calm =>
    ((first.text_calm calm.1).append (by decide : Runs true false " && ")).append
      (second.text_calm calm.2)

/-! ### Bodies -/

theorem margin_runs (depth : Nat) : Runs true true (margin depth) := by
  refine .plain ?_
  rw [margin, String.toList_ofList]
  intro member
  exact absurd (List.eq_of_mem_replicate member) (by decide)

theorem separated_runs {texts : List String} (each : ∀ s ∈ texts, Runs true true s) :
    ∀ s ∈ separated texts, Runs true true s := by
  induction texts with
  | nil => simp [separated]
  | cons text rest ih =>
    have first := each text List.mem_cons_self
    cases rest with
    | nil => simpa [separated] using first
    | cons next later =>
      intro s member
      rcases List.mem_cons.mp member with rfl | listed
      · exact first.append (by decide : Runs true true ",")
      · exact ih (fun u member => each u (List.mem_cons_of_mem _ member)) s listed

mutual

theorem Body.linesAt_runs : (body : Body) → body.Obeys .calm → (depth : Nat) →
    (lead trail : String) → Runs true false lead → Runs true true trail →
      ∀ l ∈ body.linesAt depth lead trail, Runs true true l
  | .value t, calm, depth, lead, trail, opened, closed => by
    intro l member
    obtain rfl := List.mem_singleton.mp member
    exact (((margin_runs depth).append opened).append (Term.ObeysInBody.text_calm calm)).append
      closed
  | .rows items, calm, depth, lead, trail, opened, closed => by
    intro l member
    simp only [Body.linesAt, List.mem_cons, List.mem_append, List.not_mem_nil, or_false] at member
    rcases member with rfl | row | rfl
    · exact ((margin_runs depth).append opened).append (by decide : Runs false true "[")
    · refine separated_runs (fun s listed => ?_) l row
      obtain ⟨t, item, rfl⟩ := List.mem_map.mp listed
      obtain ⟨text, rfl, _⟩ := calm t item
      exact (margin_runs _).append (quote_runs text true)
    · exact ((margin_runs depth).append (by decide : Runs true true "]")).append closed
  | .object members, calm, depth, lead, trail, opened, closed => by
    intro l member
    simp only [Body.linesAt, List.mem_cons, List.mem_append, List.not_mem_nil, or_false] at member
    rcases member with rfl | inner | rfl
    · exact ((margin_runs depth).append opened).append (by decide : Runs false true "\x7b")
    · exact memberLines_runs members calm _ _ l inner
    · exact ((margin_runs depth).append (by decide : Runs true true "\x7d")).append closed

theorem memberLines_runs : (members : List Member) → MembersObey .calm members → (depth : Nat) →
    (first : Bool) → ∀ l ∈ memberLines depth first members, Runs true true l
  | [], _, depth, first => by simp [memberLines]
  | .always key body :: rest, calm, depth, first => by
    intro l member
    have lead : Runs true false ("\"" ++ key ++ "\": ") :=
      ((by decide : Runs true false "\"").append calm.1).append (by decide : Runs true false "\": ")
    have trail : Runs true true (if rest.any Member.isAlways then "," else "") := by
      split <;> decide
    rcases List.mem_append.mp member with own | later
    · exact Body.linesAt_runs body calm.2.1 _ _ _ lead trail l own
    · exact memberLines_runs rest calm.2.2 depth false l later
  | .provided condition key value :: rest, calm, depth, first => by
    intro l member
    obtain ⟨conditional, named, valued, others⟩ := calm
    have comma : Runs true true (if first then "" else ", ") := by
      cases first <;> decide
    simp only [memberLines, List.mem_append, List.mem_cons, List.not_mem_nil, or_false] at member
    rcases member with (rfl | rfl | rfl) | later
    · exact ((by decide : Runs true false "#if(").append (condition.text_calm conditional)).append
        (by decide : Runs true true ")")
    · exact (((((margin_runs depth).append comma).append (by decide : Runs true false "\"")).append
        named).append (by decide : Runs true false "\": ")).append
          (Term.ObeysInBody.text_calm valued)
    · decide
    · exact memberLines_runs rest others depth false l later

end

/-! ### Actions -/

/-- How a call starts that writes into the input. -/
def inputPut : String := "$ctx.args.input.put("

/-- The call does not write into the input. -/
def Term.SparesInput (call : Term) : Prop := ¬ inputPut.toList <+: call.text.toList

theorem stash_spares {method : String} {arguments : List Term} :
    ((Term.context.member "stash").call method arguments).SparesInput := by
  intro writes
  have starts : ((Term.context.member "stash").call method arguments).text.toList =
      "$ctx.stash".toList ++
        ("." ++ method ++ "(" ++ String.intercalate ", " (Term.texts arguments) ++ ")").toList := by
    simp only [Term.context, Term.text, ← String.toList_append, String.append_assoc]
    rfl
  rw [starts] at writes
  rcases List.prefix_or_prefix_of_prefix writes (List.prefix_append _ _) with apart | apart
  · exact absurd apart (by decide)
  · exact absurd apart (by decide)

theorem var_spares {name method : String} {arguments : List Term}
    (apart : ¬ "ctx".toList <+: name.toList) :
    ((Term.var name).call method arguments).SparesInput := by
  intro writes
  have starts : ((Term.var name).call method arguments).text.toList = '$' :: (name.toList ++
      '.' :: (method ++ "(" ++ String.intercalate ", " (Term.texts arguments) ++ ")").toList) := by
    simp only [Term.text, String.toList_append, List.append_assoc]
    rfl
  rw [starts] at writes
  obtain ⟨_, tail⟩ := List.cons_prefix_cons.mp (show '$' :: _ <+: '$' :: _ from writes)
  exact apart (Text.prefix_of_append (by decide)
    ((by decide : "ctx".toList <+: inputPut.toList.tail).trans tail))

theorem quiet_of_start {start rest : String} (calm : Calm rest) (runs : Runs false false start)
    (apart : ¬ start.toList <+: Text.inputWrite.toList ∧ ¬ Text.inputWrite.toList <+: start.toList)
    (filled : start.toList.head? = some '$') : Quiet (start ++ rest) := by
  refine ⟨runs.append calm, fun writes => ?_⟩
  obtain ⟨tail, form⟩ := List.head?_eq_some_iff.mp filled
  have kept : Text.dropBlanks (start ++ rest) = start.toList ++ rest.toList := by
    rw [Text.dropBlanks, String.toList_append, form]
    exact List.dropWhile_cons_of_neg (by decide)
  rw [Text.WritesInput, kept] at writes
  rcases List.prefix_or_prefix_of_prefix writes (List.prefix_append _ _) with same | same
  · exact apart.2 same
  · exact apart.1 same

theorem Term.ObeysAsCall.calm_spares {call : Term} (obeys : call.ObeysAsCall .calm) :
    Calm call.text ∧ call.SparesInput := by
  cases call with
  | call of method arguments =>
    obtain ⟨received, named, given⟩ := obeys
    have written {receiver : String} (calm : Calm receiver) : Calm (receiver ++ "." ++ method ++
        "(" ++ String.intercalate ", " (Term.texts arguments) ++ ")") :=
      ((((calm.append (by decide : Runs true false ".")).append named).append
        (by decide : Runs true false "(")).append (Runs.intercalate
          (by decide : Runs true false ", ") (Term.texts_calm arguments given))).append
            (by decide : Runs true true ")")
    rcases received with ⟨name, rfl, calm, apart⟩ | rfl
    · exact ⟨written (calm_ahead (by decide) calm), var_spares apart⟩
    · exact ⟨written (by decide : Calm "$ctx.stash"), stash_spares⟩
  | _ => cases obeys

theorem run_quiet {call : Term} (obeys : call.ObeysAsCall .calm) :
    Quiet ("$util.qr(" ++ call.text ++ ")") := by
  obtain ⟨calm, spares⟩ := obeys.calm_spares
  refine ⟨((by decide : Runs false false "$util.qr(").append calm).append
    (by decide : Runs true true ")"), fun writes => spares ?_⟩
  have kept : Text.dropBlanks ("$util.qr(" ++ call.text ++ ")") =
      "$util.qr(".toList ++ (call.text.toList ++ ')' :: []) := by
    rw [Text.dropBlanks, String.toList_append, String.toList_append, List.append_assoc]
    exact List.dropWhile_cons_of_neg (by decide)
  have marker : Text.inputWrite.toList = "$util.qr(".toList ++ inputPut.toList := by decide
  rw [Text.WritesInput, kept, marker, List.prefix_append_right_inj] at writes
  exact Text.prefix_of_append (by decide) writes

/-- Nothing stands before or behind the braces of an object that is a body on its own. -/
theorem object_lines_runs {members : List Member} (obeys : MembersObey .calm members) :
    ∀ l ∈ (Body.object members).lines, Runs true true l := by
  intro l member
  simp only [Body.lines, Body.linesAt, List.mem_cons, List.mem_append, List.not_mem_nil,
    or_false] at member
  rcases member with rfl | inner | rfl
  · exact ((margin_runs 0).append (by decide : Runs true true "")).append
      (by decide : Runs true true "\x7b")
  · exact memberLines_runs members obeys _ _ l inner
  · exact ((margin_runs 0).append (by decide : Runs true true "\x7d")).append
      (by decide : Runs true true "")

theorem Action.lines_quiet {a : Action} (calm : a.Obeys .calm) : ∀ l ∈ a.lines, Quiet l := by
  have one {line : String} (quiet : Quiet line) : ∀ l ∈ [line], Quiet l := by
    intro l member
    exact List.mem_singleton.mp member ▸ quiet
  cases a with
  | comment text => exact one (.of_runs ((by decide : Runs true false "## ").append calm))
  | set name value =>
    exact one (.of_runs (((((by decide : Runs true false "#set($").append calm.1).append
      (by decide : Runs true false " = ")).append (value.text_calm calm.2)).append
        (by decide : Runs true true ")")))
  | run call => exact one (run_quiet calm)
  | emit value =>
    have written : value.asJson.text = "$util.toJson(" ++ (value.text ++ ")") := by
      simp only [Term.asJson, Term.util, Term.text, Term.texts, String.intercalate_singleton,
        String.append_assoc]
      rfl
    refine one ?_
    rw [written]
    exact quiet_of_start ((value.text_calm calm).append (by decide : Runs true true ")"))
      (by decide) (by decide) (by decide)
  | emitNull => exact one (.of_runs (by decide : Runs true true "null"))
  | send body =>
    obtain ⟨within, object⟩ := calm
    cases body with
    | object members => exact fun l member => .of_runs (object_lines_runs within l member)
    | value t => cases object
    | rows items => cases object
  | acknowledge key =>
    have entry : Calm (Term.stash key).text := (Term.stash key).text_calm calm
    refine one ?_
    simp only [String.append_assoc]
    exact quiet_of_start (entry.append (by decide)) (by decide) (by decide) (by decide)
  | deliverOwn owner =>
    refine one ?_
    simp only [String.append_assoc]
    refine quiet_of_start ?_ (by decide) (by decide) (by decide)
    exact (by decide : Runs false false "\x7b\"").append (Runs.append calm (by decide))
  | refuse => exact one ⟨by decide, by decide⟩
  | fail message kind =>
    refine one ?_
    simp only [String.append_assoc]
    refine quiet_of_start ?_ (by decide) (by decide) (by decide)
    exact (message.text_calm calm.1).append (((by decide : Runs true false ", ").append
      (kind.text_calm calm.2)).append (by decide : Runs true true ")"))
  | leaveLoop => exact one (.of_runs (by decide : Runs true true "#break"))
  | stop => exact one (.of_runs (by decide : Runs true true "#return"))

/-! ### Scripts -/

namespace Script

theorem shift_quiet {lines : List String} (quiet : ∀ l ∈ lines, Quiet l) :
    ∀ l ∈ shift lines, Quiet l := by
  intro l member
  obtain ⟨line, listed, rfl⟩ := List.mem_map.mp member
  obtain ⟨calm, silent⟩ := quiet line listed
  have dropped : Text.dropBlanks ("  " ++ line) = Text.dropBlanks line := by
    rw [Text.dropBlanks, String.toList_append]
    rfl
  exact ⟨(by decide : Runs false false "  ").append calm, by rwa [Text.WritesInput, dropped]⟩

/-- No line of a script that obeys writes into the input. -/
theorem lines_quiet {s : Script} (calm : s.Obeys .calm) : ∀ l ∈ s.lines, Quiet l := by
  have directive {c : Cond} {word : String} (word_runs : Runs true false word)
      (conditional : c.Obeys .calm) : Quiet (word ++ c.text ++ ")") :=
    .of_runs ((word_runs.append (c.text_calm conditional)).append (by decide : Runs true true ")"))
  have otherwise : Quiet "#else" := .of_runs (by decide : Runs true true "#else")
  have last : Quiet "#end" := .of_runs (by decide : Runs true true "#end")
  induction s with
  | done => simp [lines]
  | act a next ih =>
    intro l member
    rcases List.mem_append.mp member with own | later
    · exact Action.lines_quiet calm.1 l own
    · exact ih calm.2 l later
  | choose c yes no next first second ih =>
    obtain ⟨conditional, positive, negative, others⟩ := calm
    have alternative : ∀ l ∈ (if no.isDone then [] else "#else" :: shift no.lines), Quiet l := by
      split
      · simp
      · exact List.forall_mem_cons.mpr ⟨otherwise, shift_quiet (second negative)⟩
    intro l member
    simp only [lines, List.mem_cons, List.mem_append, or_assoc] at member
    rcases member with rfl | chosen | other | rfl | later
    · exact directive (by decide) conditional
    · exact shift_quiet (first positive) l chosen
    · exact alternative l other
    · exact last
    · exact ih others l later
  | chooseOr c yes d no next first second ih =>
    obtain ⟨conditional, positive, alternative, negative, others⟩ := calm
    intro l member
    simp only [lines, List.mem_cons, List.mem_append, or_assoc] at member
    rcases member with rfl | chosen | rfl | other | rfl | later
    · exact directive (by decide) conditional
    · exact shift_quiet (first positive) l chosen
    · exact directive (by decide) alternative
    · exact shift_quiet (second negative) l other
    · exact last
    · exact ih others l later
  | each name items body next first ih =>
    obtain ⟨⟨named, _⟩, listed, inner, others⟩ := calm
    have opening : Quiet ("#foreach($" ++ name ++ " in " ++ items.text ++ ")") :=
      .of_runs (((((by decide : Runs true false "#foreach($").append named).append
        (by decide : Runs true false " in ")).append (items.text_calm listed)).append
          (by decide : Runs true true ")"))
    intro l member
    simp only [lines, List.mem_cons, List.mem_append, or_assoc] at member
    rcases member with rfl | within | rfl | later
    · exact opening
    · exact shift_quiet (first inner) l within
    · exact last
    · exact ih others l later

end Script

end Template

end ApiLoom
