import ApiLoom.Proofs.RowRequests

/-!
# Page requests

A page is a window into the rows of a statement.  Its limit is what the caller asks for,
within the bounds, and its offset what the token stands for; both are bound to
placeholders, and kept in the stash for the response.
-/

namespace ApiLoom

/-! ### Windows -/

structure Window where
  offset : Nat
  limit : Nat
deriving DecidableEq, Repr, Inhabited

namespace Window

def slice {α : Type} (window : Window) (rows : List α) : List α :=
  (rows.drop window.offset).take window.limit

def holds (window : Window) (i : Nat) : Bool :=
  window.offset ≤ i && i < window.offset + window.limit

end Window

namespace Store

/-- The number that is bound to a placeholder, if it counts something. -/
def count? (values : Value) (name : String) : Option Nat := (values.field name).int?.bind Int.toNat?

/-- The window at the end of a statement, whose words are given backwards. -/
def windowAt (values : Value) : List String → Option Window
  | offset :: "OFFSET" :: limit :: "LIMIT" :: _ =>
    (count? values offset).bind fun o => (count? values limit).map fun l => ⟨o, l⟩
  | _ => none

/-- The window for which a request with one statement asks. -/
def window? (body : Value) : Option Window :=
  match (body.field "statements").items with
  | [statement] =>
    windowAt (body.field "variableMap") (Text.words (statement.text?.getD "")).reverse
  | _ => none

/-- What a request binds apart from its window. -/
def conditions (body : Value) : Entries :=
  (body.field "variableMap").entries.filter fun e =>
    e.1 ≠ .text (placeholder "limit") ∧ e.1 ≠ .text (placeholder "offset")

/-- Of the rows that match what a request binds, those in its window. -/
def select (matching : Entries → List Record) (body : Value) : Value :=
  let rows := matching (conditions body)
  .list [.list (((window? body).elim rows fun window => window.slice rows).map Value.map)]

end Store

/-! ### Limits -/

namespace PageBounds

/-- The limit of a page for which the caller asks with a limit, or without. -/
def size (page : PageBounds) (asked : Option Int) : Int :=
  let limit := min (asked.getD page.defaultLimit) page.maxLimit
  if limit < 1 then page.defaultLimit else limit

theorem size_bounds (page : PageBounds) (positive : 1 ≤ page.defaultLimit)
    (ordered : page.defaultLimit ≤ page.maxLimit) (asked : Option Int) :
    1 ≤ page.size asked ∧ page.size asked ≤ page.maxLimit := by
  unfold size
  dsimp only
  split
  · exact ⟨positive, ordered⟩
  · next large => exact ⟨by omega, by omega⟩

end PageBounds

/-! ### Tokens -/

/-- Numbers are printed as decimals, and read back from them. -/
structure Template.Library.Counts (library : Template.Library) : Prop where
  prints : ∀ n : Nat, library.print (.int n) = toString n
  parses : ∀ n : Nat, library.call "" "parseJson" [.text (toString n)] = .int n

/-- With this token, or without one, the page begins at the offset. -/
inductive Opens : Option String → Nat → Prop where
  | first : Opens none 0
  | token (offset : Nat) : Opens (some (toString offset)) offset

def Value.isBlank (v : Value) : Bool :=
  v = .null ∨ (v.text?.any fun s => s.toList.all fun c => c.isWhitespace)

theorem isBlank_decimal (n : Nat) : (Value.text (toString n)).isBlank = false := by
  obtain ⟨c, member⟩ := List.exists_mem_of_ne_nil _ (Nat.toDigits_ne_nil (b := 10) (n := n))
  have digit : c.isDigit = true := Nat.isDigit_of_mem_toDigits (by decide) (by decide) member
  have visible : c.isWhitespace = false := by
    refine Bool.eq_false_iff.mpr fun blank => ?_
    simp only [Char.isWhitespace, Bool.or_eq_true, decide_eq_true_eq] at blank
    rcases blank with ((rfl | rfl) | rfl) | rfl <;> revert digit <;> decide
  have listed : c ∈ (toString n).toList := by rwa [Nat.toString_eq_repr, Nat.toList_repr]
  refine decide_eq_false (not_or.mpr ⟨by simp, fun all => ?_⟩)
  have blank := List.all_eq_true.mp all c listed
  rw [visible] at blank
  cases blank

namespace Template

open Script

section Arguments

variable {w : World} {s : State} {name : String}

/-! ### What a request reads -/

theorem read_argument (word : Text.IsWord name) : w.read s (argument name) = s.args.field name := by
  have chars : (argument name).toList = '$' :: ("ctx".toList ++ '.' ::
      ("args".toList ++ '.' :: name.toList)) := by
    have lead : "$ctx.args.".toList =
        '$' :: ("ctx".toList ++ '.' :: ("args".toList ++ ['.'])) := rfl
    have spelled : argument name = "$ctx.args." ++ name := rfl
    simp only [spelled, String.toList_append, lead, List.cons_append, List.append_assoc,
      List.nil_append]
  have uncalled : ("ctx".toList ++ '.' :: ("args".toList ++ '.' :: name.toList)).contains '(' =
      false := by
    simp [word.uncalled]
  rw [World.read, chars]
  simp only [uncalled, path_cons _ (by decide : '.' ∉ "ctx".toList),
    path_cons _ (by decide : '.' ∉ "args".toList), path_word word]
  simp [World.follow, World.lookup, World.contextValue, Value.object, Entries.get?]

/-- What a request reads from the record that a relationship starts from is always the same. -/
theorem read_source (name : String) (s u : State) :
    w.read s (sourceField name) = w.read u (sourceField name) := by
  have chars : (sourceField name).toList = '$' :: ("ctx".toList ++ '.' ::
      ("source".toList ++ '.' :: name.toList)) := by
    have lead : "$ctx.source.".toList =
        '$' :: ("ctx".toList ++ '.' :: ("source".toList ++ ['.'])) := rfl
    have spelled : sourceField name = "$ctx.source." ++ name := rfl
    simp only [spelled, String.toList_append, lead, List.cons_append, List.append_assoc,
      List.nil_append]
  have followed : ∀ t : State, w.follow t (Text.path ("ctx".toList ++ '.' ::
      ("source".toList ++ '.' :: name.toList))) =
        (Text.path name.toList).foldl Value.field w.context.source := by
    intro t
    rw [path_cons _ (by decide : '.' ∉ "ctx".toList),
      path_cons _ (by decide : '.' ∉ "source".toList)]
    simp [World.follow, World.lookup, World.contextValue, Value.object, Entries.get?]
  simp only [World.read, chars, followed]

theorem eval_isBlank {t : Term} : t.isBlank.eval w s = .bool (t.eval w s).isBlank := by
  rw [Term.isBlank, eval_library "" rfl]
  rfl

end Arguments

/-! ### The bounds of a page -/

section Bounds

variable {w : World} {s : State}

/-- One of the two comparisons that keep a limit within its bounds. -/
theorem clampLimit_reaches {n : Int} (bound : s.local? "limit" = .int n) (how : Comparison)
    (edge m : Int) :
    ((when (.compare (.var "limit") how (.number edge)) (acts [.set "limit" (.number m)])).exec
      w s).Reaches fun t => s.AgreesOff ["limit"] t ∧
        t.local? "limit" = .int (if Cond.compareValues (.int n) how (.int edge) then m else n) := by
  have decided : (Cond.compare (.var "limit") how (.number edge)).eval w s =
      Cond.compareValues (.int n) how (.int edge) := by
    rw [Cond.eval, eval_var (by decide), bound, Term.eval]
  rw [exec_when, decided]
  split
  · rw [exec_acts_cons, Action.perform, Step.next_andThen, exec_acts_nil, Term.eval]
    exact .now ⟨.bind (by simp) _, State.local?_bind_self⟩
  · exact .now ⟨.refl _ s, bound⟩

theorem boundPage_reaches {page : PageBounds} {asked : Option Int}
    (given : w.read s page.limitExpression = (asked.map Value.int).getD .null) :
    ((boundPage page).exec w s).Reaches fun t => s.AgreesOff ["limit"] t ∧
      t.local? "limit" = .int (page.size asked) := by
  have wanted : (Term.orDefault (.verbatim page.limitExpression) (.number page.defaultLimit)).eval
      w s = .int (asked.getD page.defaultLimit) := by
    rw [eval_orDefault, Term.eval, given, Term.eval]
    cases asked <;> simp
  let begun := s.bind "limit" (.int (asked.getD page.defaultLimit))
  obtain ⟨t, capped, same, most⟩ := clampLimit_reaches (w := w) (s := begun)
    State.local?_bind_self .above page.maxLimit page.maxLimit
  obtain ⟨u, raised, later, least⟩ := clampLimit_reaches (w := w) most .below 1 page.defaultLimit
  refine ⟨u, ?_, ((State.AgreesOff.bind (by simp) _).trans same).trans later, ?_⟩
  · rw [boundPage, exec_append, exec_append, exec_acts_cons, Action.perform, wanted,
      Step.next_andThen, exec_acts_nil, Step.next_andThen, capped, Step.next_andThen, raised]
  · rw [least, PageBounds.size]
    simp only [Cond.compareValues, decide_eq_true_eq]
    grind

/-- The limit and the offset of a page, as they are kept in the stash. -/
def State.page (s : State) (window : Window) : State :=
  (s.flag pageLimitKey (.int window.limit)).flag pageOffsetKey (.int window.offset)

theorem boundOffset_reaches {page : PageBounds} {token : Option String} {window : Window}
    (counts : w.library.Counts) (opens : Opens token window.offset)
    (given : ∀ u : State, u.args = s.args →
      w.read u page.tokenExpression = (token.map Value.text).getD .null)
    (bound : s.local? "limit" = .int window.limit) :
    ((boundOffset page).exec w s).Reaches fun t => t.args = s.args ∧
      t.stash = (s.page window).stash ∧ t.local? "limit" = .int window.limit ∧
        t.local? "offset" = .int window.offset := by
  let token' := Term.verbatim page.tokenExpression
  let begun := s.bind "offset" (.int 0)
  have read : token'.eval w begun = (token.map Value.text).getD .null := by
    rw [Term.eval]
    exact given begun rfl
  have blank : (Cond.fails token'.isBlank).eval w begun =
      !((token.map Value.text).getD .null).isBlank := by
    rw [Cond.eval, eval_isBlank, read, Value.isTrue_bool]
  have set : ∃ t, s.AgreesOff ["offset"] t ∧ t.local? "offset" = .int window.offset ∧
      ((when (.fails token'.isBlank) (acts [.set "offset" token'.parsed])).exec w begun) =
        .next t := by
    have started : s.AgreesOff ["offset"] begun := .bind (by simp) _
    rw [exec_when, blank]
    generalize offset : window.offset = o at opens
    cases opens with
    | first => exact ⟨begun, started, State.local?_bind_self, rfl⟩
    | token =>
      have parsed : token'.parsed.eval w begun = .int o := by
        rw [Term.parsed, eval_library "" rfl, List.map_cons, List.map_nil, read]
        exact counts.parses o
      refine ⟨begun.bind "offset" (.int o), started.trans (.bind (by simp) _),
        State.local?_bind_self, ?_⟩
      rw [Option.map_some, Option.getD_some, isBlank_decimal, exec_acts_cons, Action.perform,
        parsed]
      rfl
  obtain ⟨t, same, offset, run⟩ := set
  have limit : t.local? "limit" = .int window.limit := by
    rw [same.locals _ (by decide), bound]
  rw [boundOffset, exec_append, exec_append, exec_acts_cons, Action.perform, Term.eval,
    Step.next_andThen, exec_acts_nil, Step.next_andThen, run, Step.next_andThen]
  simp only [exec_acts_cons, exec_acts_nil, Action.perform, Step.next_andThen,
    effect_stashPut (by decide : '$' ∉ pageLimitKey.toList),
    effect_stashPut (by decide : '$' ∉ pageOffsetKey.toList),
    eval_var (by decide : "limit" ≠ "ctx"),
    eval_var (by decide : "offset" ≠ "ctx"), State.local?_flag, limit, offset]
  refine .now ⟨same.args, ?_, limit, offset⟩
  simp only [State.page, State.flag, same.stash]

end Bounds

/-! ### Statements with a window -/

/-- The variables that the request for a page binds. -/
def pageVariables (column : Option String) (expression : String) : List SqlVariable :=
  (column.map fun c => Model.bindColumn c expression).toList ++ Model.pageVariables

/-- The statement of a page: all rows of a table, or those with a value in a column. -/
def pageQuery (table : String) (column : Option String) (expression : String) (page : PageBounds) :
    SqlStatements :=
  { Model.statements [.select table column false .page] (pageVariables column expression) with
    page := some page }

section Queries

variable {w : World} {s : State} {config : Config}

theorem select_words (table : String) (column : Option String) :
    ∃ front, Text.words (w.expand s (SqlStatement.select table column false .page).text) =
      front ++ ["LIMIT", placeholder "limit", "OFFSET", placeholder "offset"] := by
  obtain ⟨front, spelled⟩ : ∃ front, (SqlStatement.select table column false .page).text =
      front ++ " LIMIT :limit OFFSET :offset" := ⟨_, rfl⟩
  have trail : " LIMIT :limit OFFSET :offset".toList = ' ' :: ("LIMIT".toList ++ ' ' ::
      (":limit".toList ++ ' ' :: ("OFFSET".toList ++ ' ' :: ":offset".toList))) := rfl
  refine ⟨(w.words s front.toList).map String.ofList, ?_⟩
  rw [words_expand, spelled, String.toList_append, trail, words_append, words_append, words_append,
    words_append, words_word (by decide : '$' ∉ "LIMIT".toList) (by decide),
    words_word (by decide : '$' ∉ ":limit".toList) (by decide),
    words_word (by decide : '$' ∉ "OFFSET".toList) (by decide),
    words_word (by decide : '$' ∉ ":offset".toList) (by decide), List.map_append]
  rfl

/-- What the variables of a page are bound to. -/
def pageBindings (column : Option String) (v : Value) (window : Window) : List (String × Value) :=
  (column.map fun c => (placeholder c, v)).toList ++
    [(placeholder "limit", .int window.limit), (placeholder "offset", .int window.offset)]

theorem count?_pageBindings (column : Option String) (v : Value) (window : Window) :
    Store.count? (.map (Entries.putAll [] (pageBindings column v window))) (placeholder "limit") =
        some window.limit ∧
      Store.count? (.map (Entries.putAll [] (pageBindings column v window)))
        (placeholder "offset") = some window.offset := by
  have apart : placeholder "offset" ≠ placeholder "limit" := by decide
  have limit : (Entries.putAll [] (pageBindings column v window)).get? (placeholder "limit") =
      some (.int window.limit) := Entries.get?_putAll _ (by simpa using apart) []
  have offset : (Entries.putAll [] (pageBindings column v window)).get? (placeholder "offset") =
      some (.int window.offset) := by
    rw [pageBindings, ← List.singleton_append, ← List.append_assoc]
    exact Entries.get?_putAll _ (by simp) []
  simp only [Store.count?, Value.field_map, limit, offset]
  exact ⟨rfl, rfl⟩

/-- What a page binds apart from its window. -/
def pageKey (column : Option String) (v : Value) : Entries :=
  (column.map fun c => (Scalar.text (placeholder c), v)).toList

theorem conditions_pageBindings {column : Option String} {v : Value} {window : Window}
    (apart : ∀ c, column = some c → c ≠ "limit" ∧ c ≠ "offset") :
    (Entries.putAll [] (pageBindings column v window)).filter (fun e =>
      e.1 ≠ .text (placeholder "limit") ∧ e.1 ≠ .text (placeholder "offset")) =
        pageKey column v := by
  have words : placeholder "offset" ≠ placeholder "limit" := by decide
  cases column with
  | none =>
    simp [pageBindings, pageKey, Entries.putAll, Entries.put, Entries.sameKey_text, words.symm]
  | some c =>
    obtain ⟨limit, offset⟩ := apart c rfl
    have limit : placeholder c ≠ placeholder "limit" := fun same => limit (placeholder_inj.mp same)
    have offset : placeholder c ≠ placeholder "offset" :=
      fun same => offset (placeholder_inj.mp same)
    simp [pageBindings, pageKey, Entries.putAll, Entries.put, Entries.sameKey_text, words.symm,
      limit, offset]

/-- The request asks for one window of the rows that match what it binds, and notes the window. -/
structure AsksFor (key : Entries) (window : Window) (s t : State) : Prop where
  args : t.args = s.args
  stash : t.stash = (s.page window).stash
  window : Store.window? t.output = some window
  conditions : Store.conditions t.output = key

theorem body_asks (version v : Value) (window : Window) {text : String} {front : List String}
    {column : Option String}
    (ends : Text.words text =
      front ++ ["LIMIT", placeholder "limit", "OFFSET", placeholder "offset"])
    (apart : ∀ c, column = some c → c ≠ "limit" ∧ c ≠ "offset") :
    let body := Value.map (Entries.putAll [] [("version", version),
      ("statements", .list [.text text]),
      ("variableMap", .map (Entries.putAll [] (pageBindings column v window)))])
    Store.window? body = some window ∧ Store.conditions body = pageKey column v := by
  intro body
  have listed : body.field "statements" = .list [.text text] := by
    simp [body, Entries.putAll, Entries.put, Entries.sameKey_text, Entries.get?]
  have mapped : body.field "variableMap" =
      .map (Entries.putAll [] (pageBindings column v window)) := by
    simp [body, Entries.putAll, Entries.put, Entries.sameKey_text, Entries.get?]
  obtain ⟨limit, offset⟩ := count?_pageBindings column v window
  constructor
  · rw [Store.window?, listed, mapped]
    simp only [Value.items, Value.text?, Option.getD_some, ends, List.reverse_append]
    simp [Store.windowAt, limit, offset]
  · rw [Store.conditions, mapped]
    exact conditions_pageBindings apart

/-- The caller asks for a page by arguments: a limit and a token, each of them or neither. -/
structure Wanted (asked : Option Int) (token : Option String) (s : State) : Prop where
  limit : s.args.field "limit" = (asked.map Value.int).getD .null
  token : s.args.field "nextToken" = (token.map Value.text).getD .null

theorem bounds_reach {asked : Option Int} {token : Option String} {window : Window}
    (counts : w.library.Counts) (wanted : Wanted asked token s) (opens : Opens token window.offset)
    (sized : config.page.size asked = window.limit) :
    ((boundPage config.page ++ boundOffset config.page).exec w s).Reaches fun t =>
      t.args = s.args ∧ t.stash = (s.page window).stash ∧
        t.local? "limit" = .int window.limit ∧ t.local? "offset" = .int window.offset := by
  have limitWord : Text.IsWord "limit" := Text.isWord_of_isIdentifier (by decide)
  have tokenWord : Text.IsWord "nextToken" := Text.isWord_of_isIdentifier (by decide)
  rw [exec_append]
  have limited : w.read s config.page.limitExpression = (asked.map Value.int).getD .null :=
    (read_argument limitWord).trans wanted.limit
  refine (boundPage_reaches limited).andThen fun t clamped => ?_
  obtain ⟨same, bound⟩ := clamped
  rw [sized] at bound
  refine (boundOffset_reaches counts opens (fun u kept => ?_) bound).mono fun u reached => ?_
  · rw [← wanted.token, ← same.args, ← kept]
    exact read_argument tokenWord
  · obtain ⟨args, stash, bounds⟩ := reached
    refine ⟨args.trans same.args, stash.trans ?_, bounds⟩
    simp only [State.page, State.flag, same.stash]

theorem pageVariables_eval {column : Option String} {expression : String} {v : Value}
    {window : Window} (read : w.read s expression = v)
    (limit : s.local? "limit" = .int window.limit)
    (offset : s.local? "offset" = .int window.offset) :
    boundValues w s (pageVariables column expression) = pageBindings column v window := by
  have limitWord : Text.IsWord "limit" := Text.isWord_of_isIdentifier (by decide)
  have offsetWord : Text.IsWord "offset" := Text.isWord_of_isIdentifier (by decide)
  have first : w.read s "$limit" = .int window.limit :=
    (read_variable limitWord (by decide)).trans limit
  have second : w.read s "$offset" = .int window.offset :=
    (read_variable offsetWord (by decide)).trans offset
  cases column <;>
    simp [boundValues, pageVariables, Model.pageVariables, Model.bindColumn, first, second, read,
      pageBindings]

/-- The body of the request for a page; no variable of it has a hint to its type. -/
def pageBody (config : Config) (table : String) (column : Option String) (expression : String) :
    Body :=
  versioned config [
    .always "statements" (.rows [.quoted (SqlStatement.select table column false .page).text]),
    .always "variableMap" (.object (((pageVariables column expression).map fun v =>
      .always v.name (.value (Term.verbatim v.expression).asJson)) ++ []))]

theorem pageQuery_parts (table : String) (column : Option String) (expression : String)
    (page : PageBounds) :
    perform config (.sql (pageQuery table column expression page)) =
      (boundPage page ++ boundOffset page) ++
        acts [.send (pageBody config table column expression)] := by
  have unhinted : typeHints (pageVariables column expression) = [] := by
    cases column <;> rfl
  have prepared : perform config (.sql (pageQuery table column expression page)) =
      (boundPage page ++ boundOffset page) ++ acts [.send (versioned config ([
        .always "statements" (.rows [.quoted (SqlStatement.select table column false .page).text]),
        .always "variableMap" (.object (((pageVariables column expression).map fun v =>
          .always v.name (.value (Term.verbatim v.expression).asJson)) ++ []))] ++
        if (typeHints (pageVariables column expression)).isEmpty then []
        else [.always "variableTypeHints"
          (.object (typeHints (pageVariables column expression)))]))] := rfl
  rw [prepared, unhinted]
  rfl

theorem pageBody_binds (table : String) (column : Option String) (expression : String) :
    (pageBody config table column expression).eval w s =
      .map (Entries.putAll [] [("version", (Body.plain config.templateVersion).eval w s),
        ("statements",
          .list [.text (w.expand s (SqlStatement.select table column false .page).text)]),
        ("variableMap",
          .map (Entries.putAll [] (boundValues w s (pageVariables column expression))))]) := by
  rw [pageBody, versioned_eval, List.append_nil]
  simp only [evalMembers, Body.eval, boundValues_eval]
  rfl

theorem pageBody_eval (table : String) {column : Option String} {expression : String} {v : Value}
    {window : Window} (read : w.read s expression = v)
    (limit : s.local? "limit" = .int window.limit)
    (offset : s.local? "offset" = .int window.offset) :
    (pageBody config table column expression).eval w s =
      .map (Entries.putAll [] [("version", (Body.plain config.templateVersion).eval w s),
        ("statements",
          .list [.text (w.expand s (SqlStatement.select table column false .page).text)]),
        ("variableMap", .map (Entries.putAll [] (pageBindings column v window)))]) := by
  rw [pageBody_binds, pageVariables_eval read limit offset]

theorem pageQuery_asks (table : String) {column : Option String} {expression : String}
    {asked : Option Int} {token : Option String} (window : Window) {v : Value}
    (counts : w.library.Counts) (wanted : Wanted asked token s) (opens : Opens token window.offset)
    (sized : config.page.size asked = window.limit)
    (apart : ∀ c, column = some c → c ≠ "limit" ∧ c ≠ "offset")
    (read : ∀ u : State, w.read u expression = v) :
    ((perform config (.sql (pageQuery table column expression config.page))).exec w s).Reaches
      (AsksFor (pageKey column v) window s) := by
  rw [pageQuery_parts, exec_append]
  refine (bounds_reach counts wanted opens sized).andThen fun u reached => ?_
  obtain ⟨args, stash, limit, offset⟩ := reached
  obtain ⟨front, ends⟩ := select_words (w := w) (s := u) table column
  obtain ⟨asks, binds⟩ :=
    body_asks ((Body.plain config.templateVersion).eval w u) v window ends apart
  rw [exec_acts_cons, Action.perform, Step.next_andThen, exec_acts_nil,
    pageBody_eval table (read u) limit offset]
  exact .now ⟨args, stash, asks, binds⟩

end Queries

end Template

end ApiLoom
