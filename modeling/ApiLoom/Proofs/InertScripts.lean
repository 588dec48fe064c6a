import ApiLoom.Proofs.Stamping

/-!
# Inert scripts

The directives of a script's text.  Where nothing that is written into the script starts a
directive, they are those of its choices and loops, which nest: that is a discipline of scripts.
-/

namespace ApiLoom

namespace Text

/-! ### Written values -/

theorem quote_bare {s : String} (bare : Bare s) : Bare (quote s) := by
  intro member
  rcases mem_quote member with ⟨listed, _⟩ | other
  · exact bare listed
  · exact absurd other (by decide)

/-! ### Several texts -/

/-- None of the texts has a `#`. -/
def AllBare (texts : List String) : Prop := ∀ s ∈ texts, Bare s

instance (texts : List String) : Decidable (AllBare texts) :=
  inferInstanceAs (Decidable (∀ s ∈ texts, Bare s))

section AllBare

variable {α : Type} {s : String} {xs ys : List String} {f : α → List String} {items : List α}

@[simp] theorem allBare_nil : AllBare [] := by
  simp [AllBare]

@[simp] theorem allBare_cons : AllBare (s :: xs) ↔ Bare s ∧ AllBare xs := by
  simp [AllBare]

@[simp] theorem allBare_append : AllBare (xs ++ ys) ↔ AllBare xs ∧ AllBare ys :=
  List.forall_mem_append

@[simp] theorem allBare_flatMap : AllBare (items.flatMap f) ↔ ∀ a ∈ items, AllBare (f a) :=
  List.forall_mem_flatMap

@[simp] theorem allBare_map {f : α → String} : AllBare (items.map f) ↔ ∀ a ∈ items, Bare (f a) :=
  List.forall_mem_map

@[simp] theorem allBare_toList {o : Option String} : AllBare o.toList ↔ ∀ s ∈ o, Bare s := by
  cases o <;> simp

end AllBare

end Text

open Text (Bare AllBare)

/-! ### Statements -/

namespace SqlStatement

theorem commas_bare {parts : List String} (bare : AllBare parts) : Bare (commas parts) :=
  .intercalate (by decide) bare

theorem placeholder_bare {column : String} (bare : Bare column) : Bare (placeholder column) :=
  Text.bare_append.mpr ⟨by decide, bare⟩

theorem matching_bare {key : String} (bare : Bare key) (guarded : Bool) :
    Bare (matching key guarded) := by
  have guard : Bare (guard guarded) := by cases guarded <;> decide
  simp only [matching, binding, Text.bare_append]
  exact ⟨⟨by decide, ⟨bare, by decide⟩, placeholder_bare bare⟩, guard⟩

theorem assignmentText_bare {a : SqlAssignment} (bare : Bare a.column) :
    Bare (assignmentText a) := by
  cases a with
  | keepIfNull c =>
    have column : Bare c := bare
    simp only [assignmentText, Text.bare_append]
    exact ⟨⟨⟨⟨⟨column, by decide⟩, placeholder_bare column⟩, by decide⟩, column⟩, by decide⟩
  | put c =>
    simp only [assignmentText, binding, Text.bare_append]
    exact ⟨⟨bare, by decide⟩, placeholder_bare bare⟩

theorem text_bare {s : SqlStatement} (table : Bare s.table) (columns : AllBare s.columns) :
    Bare s.text := by
  cases s with
  | select t key guarded extent =>
    have named : Bare t := table
    have extended : Bare (extentText extent) := by cases extent <;> decide
    have lead : Bare ("SELECT * FROM " ++ t) := Text.bare_append.mpr ⟨by decide, named⟩
    cases key with
    | none =>
      exact Text.bare_append.mpr ⟨Text.bare_append.mpr ⟨lead, (by decide : Bare "")⟩, extended⟩
    | some k =>
      have conditional := matching_bare (columns k List.mem_cons_self) guarded
      exact Text.bare_append.mpr ⟨Text.bare_append.mpr ⟨lead, conditional⟩, extended⟩
  | insert t listed =>
    have named : Bare t := table
    have placed : AllBare (listed.map placeholder) := Text.allBare_map.mpr fun c member =>
      placeholder_bare (columns c member)
    have written : (insert t listed).text = "INSERT INTO " ++ t ++ " (" ++ commas listed ++
        ") VALUES (" ++ commas (listed.map placeholder) ++ ")" := rfl
    simp only [written, Text.bare_append]
    exact ⟨⟨⟨⟨⟨⟨by decide, named⟩, by decide⟩, commas_bare columns⟩, by decide⟩,
      commas_bare placed⟩, by decide⟩
  | update t assignments key guarded =>
    have named : Bare t := table
    simp only [SqlStatement.columns, Text.allBare_append, Text.allBare_map,
      Text.allBare_cons] at columns
    obtain ⟨assigned, keyed, _⟩ := columns
    have set : AllBare (assignments.map assignmentText) :=
      Text.allBare_map.mpr fun a member => assignmentText_bare (assigned a member)
    have written : (update t assignments key guarded).text = "UPDATE " ++ t ++ " SET " ++
        commas (assignments.map assignmentText) ++ matching key guarded := rfl
    simp only [written, Text.bare_append]
    exact ⟨⟨⟨⟨by decide, named⟩, by decide⟩, commas_bare set⟩, matching_bare keyed guarded⟩
  | delete t key guarded =>
    have named : Bare t := table
    have conditional := matching_bare (columns key List.mem_cons_self) guarded
    exact Text.bare_append.mpr ⟨Text.bare_append.mpr ⟨by decide, named⟩, conditional⟩

end SqlStatement

namespace Template

open Text (Bare Inert Neutral)

theorem enclosed {before s after : String} (first : Inert before) (inner : Inert s)
    (last : Inert after) : Inert (before ++ s ++ after) :=
  Text.inert_append (Text.inert_append first inner) last

theorem bare_httpQuery {config : Config} : ∀ q ∈ Model.httpQuery config, Bare q.2 := by
  have limit : Bare ("$util.defaultIfNull($ctx.args.limit, " ++ toString config.defaultPageSize ++
      ")") := by
    rw [Text.bare_append, Text.bare_append]
    exact ⟨⟨by decide, (Text.int_free _).2.2⟩, by decide⟩
  exact List.forall_mem_cons.mpr ⟨limit, List.forall_mem_singleton.mpr
    (by decide : Bare "$util.defaultIfNullOrBlank($ctx.args.nextToken, '')")⟩

/-! ### The discipline -/

/-- Texts have no `#`, and what is written into an expression starts no directive. -/
def Discipline.inert : Discipline where
  text := Bare
  name := Inert
  plain := Inert
  quoted := Bare
  row := Bare
  expression := Inert
  reads := Inert
  part _ := True
  key _ := True
  receiver t := Inert t.text
  name_text := Bare.inert
  plain_text := Bare.inert
  quoted_text := id
  row_text := id
  quoted_behind first second := Text.bare_append.mpr ⟨first, second⟩
  name_fixed fixed := fixed.2.2
  plain_fixed fixed := fixed.2.2
  plain_shown own _ fixed _ := enclosed (by decide) own.1.2.2 fixed.2.2
  reads_own own := own.1.2.2
  part_other _ _ := trivial
  key_working _ := trivial
  receiver_own own := Text.inert_append (by decide) own.1.2.2
  receiver_stash := (by decide : Inert "$ctx.stash")
  text_free free := free.2.2
  text_name name := name.notMem rfl
  text_behind first second _ := Text.bare_append.mpr ⟨first, second⟩
  text_ahead free bare := Text.bare_append.mpr ⟨free.2.2, bare⟩
  text_join first glue second :=
    Text.bare_append.mpr ⟨Text.bare_append.mpr ⟨first, glue.1.2.2⟩, second⟩
  expression_arguments := by decide
  expression_argument bare := Text.inert_append (by decide) bare.inert
  expression_input bare := Text.inert_append (by decide) bare.inert
  expression_source bare := Text.inert_append (by decide) bare.inert
  expression_own own _ := Text.inert_append (by decide) own.1.2.2
  expression_called _ _ inert := inert
  plain_path first second :=
    enclosed first.inert (by decide) (Text.inert_append (by decide) second.inert)
  plain_query listed := (bare_httpQuery _ listed).inert
  row_statement bare :=
    SqlStatement.text_bare (bare _ List.mem_cons_self) fun c member =>
      bare c (List.mem_cons_of_mem _ member)

theorem inert_isOpen : Discipline.inert.IsOpen where
  decision := (by decide : ∀ name ∈ decisionLocals, Inert name)
  handed := trivial
  stash _ := trivial

/-! ### Terms -/

mutual

theorem Term.text_inert : (t : Term) → t.Obeys .inert → Inert t.text
  | .verbatim s, inert => inert
  | .var name, inert => Text.inert_append (by decide) inert
  | .plain s, inert => enclosed (by decide) inert (by decide)
  | .quoted s, bare => (Text.quote_bare bare).inert
  | .number n, _ => Bare.inert (Text.int_free n).2.2
  | .truth true, _ | .truth false, _ | .null, _ | .emptyMap, _ => by
    simp only [Term.text]
    decide
  | .member of name, ⟨named, place⟩ => by
    have inner : Inert of.text := by
      rcases place with own | ⟨same, _⟩ | ⟨same, _⟩
      · exact Term.text_inert of own
      · exact same ▸ (by decide : Inert "$ctx")
      · exact same ▸ (by decide : Inert "$ctx.stash")
    exact enclosed inner (by decide) named
  | .item of key, inert =>
    Text.inert_append (enclosed (Term.text_inert of inert.1) (by decide)
      (Term.text_inert key inert.2)) (by decide)
  | .call of method arguments, inert =>
    enclosed (Text.inert_append (enclosed (Term.text_inert of inert.1) (by decide) inert.2.1)
      (by decide)) (.intercalate (by decide) (Term.texts_inert arguments inert.2.2)) (by decide)
  | .list items, inert =>
    enclosed (by decide) (.intercalate (by decide) (Term.texts_inert items inert)) (by decide)
  | .entry key value, inert =>
    enclosed (enclosed (by decide) (Term.text_inert key inert.1) (by decide))
      (Term.text_inert value inert.2) (by decide)
  | .sum left right, inert =>
    enclosed (Term.text_inert left inert.1) (by decide) (Term.text_inert right inert.2)
  | .negated t, inert => Text.inert_append (by decide) (Term.text_inert t inert)

theorem Term.texts_inert : (ts : List Term) → TermsObey .inert ts → ∀ s ∈ Term.texts ts, Inert s
  | [], _ => by simp [Term.texts]
  | t :: rest, inert => by
    intro s member
    rcases List.mem_cons.mp member with rfl | later
    · exact Term.text_inert t inert.1
    · exact Term.texts_inert rest inert.2 s later

end

/-! ### Conditions -/

theorem Cond.text_inert : (c : Cond) → c.Obeys .inert → Inert c.text
  | .holds t, inert => t.text_inert inert
  | .fails t, inert => Text.inert_append (by decide) (t.text_inert inert)
  | .compare left how right, inert => by
    have sign : Inert how.sign := by cases how <;> decide
    exact enclosed (enclosed (left.text_inert inert.1) (by decide) sign) (by decide)
      (right.text_inert inert.2)
  | .oneOf subject texts, inert => by
    refine .intercalate (by decide) fun s member => ?_
    obtain ⟨text, listed, rfl⟩ := List.mem_map.mp member
    exact enclosed (subject.text_inert inert.1) (by decide)
      (Text.quote_bare (inert.2 text listed)).inert
  | .both first second, inert =>
    enclosed (first.text_inert inert.1) (by decide) (second.text_inert inert.2)

/-! ### Bodies -/

theorem margin_inert (depth : Nat) : Inert (margin depth) := by
  refine Bare.inert fun member => ?_
  rw [margin, String.toList_ofList] at member
  exact absurd (List.eq_of_mem_replicate member) (by decide)

theorem separated_inert {texts : List String} (each : ∀ s ∈ texts, Inert s) :
    ∀ s ∈ separated texts, Inert s := by
  induction texts with
  | nil => simp [separated]
  | cons text rest ih =>
    have first := each text List.mem_cons_self
    cases rest with
    | nil => simpa [separated] using first
    | cons next later =>
      intro s member
      rcases List.mem_cons.mp member with rfl | listed
      · exact Text.inert_append first (by decide)
      · exact ih (fun u member => each u (List.mem_cons_of_mem _ member)) s listed

/-- The directives of some lines. -/
def directivesOf (lines : List String) : List Text.Directive := lines.flatMap Text.directives

theorem directivesOf_inert {lines : List String} (each : ∀ l ∈ lines, Inert l) :
    directivesOf lines = [] := by
  rw [directivesOf, List.flatMap_eq_nil_iff]
  exact fun l member => (each l member).directives

@[simp] theorem directivesOf_append (first second : List String) :
    directivesOf (first ++ second) = directivesOf first ++ directivesOf second :=
  List.flatMap_append

@[simp] theorem directivesOf_cons (line : String) (rest : List String) :
    directivesOf (line :: rest) = Text.directives line ++ directivesOf rest :=
  List.flatMap_cons

@[simp] theorem directivesOf_nil : directivesOf [] = [] := rfl

theorem openIf_directives {s : String} (inert : Inert s) :
    Text.directives ("#if(" ++ s) = [.openIf] := by
  have read := Text.directivesFrom_inert inert false []
  rw [List.append_nil] at read
  have opening : "#if(".toList = ['#', 'i', 'f', '('] := rfl
  rw [Text.directives, String.toList_append, opening]
  simp [Text.directivesFrom, Text.directiveAt, List.isPrefixOf, read]

theorem elseIf_directives {s : String} (inert : Inert s) :
    Text.directives ("#elseif(" ++ s) = [.elseIf] := by
  have read := Text.directivesFrom_inert inert false []
  rw [List.append_nil] at read
  have opening : "#elseif(".toList = ['#', 'e', 'l', 's', 'e', 'i', 'f', '('] := rfl
  rw [Text.directives, String.toList_append, opening]
  simp [Text.directivesFrom, Text.directiveAt, List.isPrefixOf, read]

theorem openEach_directives {s : String} (inert : Inert s) :
    Text.directives ("#foreach($" ++ s) = [.openEach] := by
  have read := Text.directivesFrom_inert inert false []
  rw [List.append_nil] at read
  have opening : "#foreach($".toList =
      ['#', 'f', 'o', 'r', 'e', 'a', 'c', 'h', '(', '$'] := rfl
  rw [Text.directives, String.toList_append, opening]
  simp [Text.directivesFrom, Text.directiveAt, List.isPrefixOf, read]

theorem setClause_directives {before after : String} (first : Inert before) (last : Inert after) :
    Neutral (Text.directives (before ++ setClause ++ after)) := by
  have clause : setClause.toList = setClause.toList.dropLast ++ ['"'] := by decide +kernel
  have spelled : Text.directivesFrom false setClause.toList.dropLast =
      [.openEach, .openIf, .close, .close] := by decide +kernel
  have read := Text.directivesFrom_inert (Text.inert_append_list
    (by decide : Text.inert ['"'] = true) last) false []
  rw [List.append_nil, List.singleton_append] at read
  have outside : Text.commentAfter false setClause.toList.dropLast = false := by decide +kernel
  rw [String.append_assoc, first.directives_append, Text.directives, String.toList_append, clause,
    List.append_assoc, List.singleton_append, Text.directivesFrom_stop (by decide), spelled,
    outside, read]
  exact Neutral.append (.loop (.choice .nil)) .nil

/-- Beside inert values there may be the `setClause` in a body, whose directives nest. -/
theorem Term.ObeysInBody.neutral {t : Term} (obeys : t.ObeysInBody .inert) {before after : String}
    (first : Inert before) (last : Inert after) :
    Neutral (Text.directives (before ++ t.text ++ after)) := by
  have silent (inert : Inert t.text) :
      Neutral (Text.directives (before ++ t.text ++ after)) := by
    rw [(enclosed first inert last).directives]
    exact .nil
  cases t with
  | quoted s => exact silent (Text.quote_bare obeys).inert
  | verbatim s =>
    rcases obeys with inert | rfl
    · exact silent inert
    · exact setClause_directives first last
  | _ => exact silent (Term.text_inert _ obeys)

theorem end_directives : Text.directives "#end" = [.close] := by decide

mutual

theorem Body.linesAt_neutral : (body : Body) → body.Obeys .inert → (depth : Nat) →
    (lead trail : String) → Inert lead → Inert trail →
      Neutral (directivesOf (body.linesAt depth lead trail))
  | .value t, inert, depth, lead, trail, opened, closed => by
    have before : Inert (margin depth ++ lead) := Text.inert_append (margin_inert depth) opened
    rw [Body.linesAt, directivesOf_cons, directivesOf_nil, List.append_nil]
    exact Term.ObeysInBody.neutral inert before closed
  | .rows items, inert, depth, lead, trail, opened, closed => by
    have rows : ∀ l ∈ separated (items.map fun t => margin (depth + 1) ++ t.text), Inert l := by
      refine separated_inert fun s listed => ?_
      obtain ⟨t, item, rfl⟩ := List.mem_map.mp listed
      obtain ⟨text, rfl, bare⟩ := inert t item
      exact Text.inert_append (margin_inert _) (Text.quote_bare bare).inert
    have opening := (enclosed (margin_inert depth) opened (by decide : Inert "[")).directives
    have closing := (enclosed (margin_inert depth) (by decide : Inert "]") closed).directives
    simp only [Body.linesAt, directivesOf_append, directivesOf_cons, directivesOf_nil, opening,
      closing, directivesOf_inert rows, List.append_nil]
    exact .nil
  | .object members, inert, depth, lead, trail, opened, closed => by
    have opening := (enclosed (margin_inert depth) opened (by decide : Inert "\x7b")).directives
    have closing := (enclosed (margin_inert depth) (by decide : Inert "\x7d") closed).directives
    simp only [Body.linesAt, directivesOf_append, directivesOf_cons, directivesOf_nil, opening,
      closing, List.append_nil, List.nil_append]
    exact memberLines_neutral members inert _ _

theorem memberLines_neutral : (members : List Member) → MembersObey .inert members → (depth : Nat) →
    (first : Bool) → Neutral (directivesOf (memberLines depth first members))
  | [], _, depth, first => by
    rw [memberLines]
    exact .nil
  | .always key body :: rest, inert, depth, first => by
    have lead : Inert ("\"" ++ key ++ "\": ") := enclosed (by decide) inert.1 (by decide)
    have trail : Inert (if rest.any Member.isAlways then "," else "") := by split <;> decide
    rw [memberLines, directivesOf_append]
    exact (Body.linesAt_neutral body inert.2.1 _ _ _ lead trail).append
      (memberLines_neutral rest inert.2.2 depth false)
  | .provided condition key value :: rest, inert, depth, first => by
    obtain ⟨conditional, named, valued, others⟩ := inert
    have comma : Inert (if first then "" else ", ") := by cases first <;> decide
    have line : Neutral (Text.directives (margin depth ++ (if first then "" else ", ") ++ "\"" ++
        key ++ "\": " ++ value.text)) := by
      have before := enclosed (enclosed (margin_inert depth) comma (by decide : Inert "\"")) named
        (by decide : Inert "\": ")
      rw [← String.append_empty (s := _ ++ value.text)]
      exact Term.ObeysInBody.neutral valued before (by decide : Inert "")
    have opening := openIf_directives
      (Text.inert_append (condition.text_inert conditional) (by decide : Inert ")"))
    rw [← String.append_assoc] at opening
    simp only [memberLines, directivesOf_append, directivesOf_cons, directivesOf_nil, opening,
      end_directives, List.append_nil, List.singleton_append]
    exact (Neutral.choice line).append (memberLines_neutral rest others depth false)

end

/-! ### Actions -/

theorem Term.ObeysAsCall.text_inert {call : Term} (obeys : call.ObeysAsCall .inert) :
    Inert call.text := by
  cases call with
  | call of method arguments =>
    obtain ⟨received, named, given⟩ := obeys
    exact enclosed (Text.inert_append (enclosed received (by decide) named) (by decide))
      (.intercalate (by decide) (Term.texts_inert arguments given)) (by decide)
  | _ => cases obeys

theorem Action.lines_neutral {a : Action} (inert : a.Obeys .inert) :
    Neutral (directivesOf a.lines) := by
  have one {line : String} (inert : Inert line) : Neutral (directivesOf [line]) := by
    rw [directivesOf_cons, inert.directives]
    exact .nil
  cases a with
  | comment text =>
    rw [Action.lines, directivesOf_cons, Bare.comment inert]
    exact .nil
  | set name value =>
    exact one (enclosed (enclosed (by decide) inert.1 (by decide)) (value.text_inert inert.2)
      (by decide))
  | run call => exact one (enclosed (by decide) inert.text_inert (by decide))
  | emit value =>
    exact one (value.asJson.text_inert (asJson_obeys.mpr inert))
  | emitNull => exact one (by decide)
  | send body => exact Body.linesAt_neutral body inert.1 _ _ _ (by decide) (by decide)
  | acknowledge key =>
    exact one (enclosed (by decide) ((Term.stash key).text_inert inert) (by decide))
  | deliverOwn owner =>
    exact one (enclosed (Text.inert_append (by decide) (by decide)) inert (by decide))
  | refuse => exact one (by decide)
  | fail message kind =>
    exact one (enclosed (enclosed (by decide) (message.text_inert inert.1) (by decide))
      (kind.text_inert inert.2) (by decide))
  | leaveLoop => exact one (by decide)
  | stop => exact one (by decide)

/-! ### Scripts -/

namespace Script

def directives (s : Script) : List Text.Directive := directivesOf s.lines

theorem directivesOf_shift (lines : List String) :
    directivesOf (shift lines) = directivesOf lines := by
  induction lines with
  | nil => rfl
  | cons line rest ih =>
    have own : Text.directives ("  " ++ line) = Text.directives line :=
      Text.Inert.directives_append (by decide) line
    have split : shift (line :: rest) = ("  " ++ line) :: shift rest := rfl
    rw [split, directivesOf_cons, directivesOf_cons, own, ih]

theorem directives_append (s t : Script) : (s ++ t).directives = s.directives ++ t.directives := by
  rw [directives, lines_append, directivesOf_append]
  rfl

/-- The text of a script has the directives of its lines. -/
theorem text_directives {s : Script} (filled : s.lines ≠ []) :
    Text.directives s.text = s.directives := by
  rw [Text.directives, text_toList filled, Text.directivesFrom_joined]
  rfl

theorem choose_directives {c : Cond} (conditional : c.Obeys .inert) (yes no next : Script) :
    (choose c yes no next).directives = .openIf :: (yes.directives ++
      (if no.isDone then [.close] else .otherwise :: (no.directives ++ [.close]))) ++
        next.directives := by
  have opening := openIf_directives
    (Text.inert_append (c.text_inert conditional) (by decide : Inert ")"))
  rw [← String.append_assoc] at opening
  have middle : Text.directives "#else" = [.otherwise] := by decide
  cases last : no.isDone <;>
    simp [directives, lines, directivesOf_shift, opening, middle, end_directives, last]

/-- The directives of a script that obeys nest, wherever they stand. -/
theorem neutral {s : Script} (inert : s.Obeys .inert) : Neutral s.directives := by
  induction s with
  | done => exact .nil
  | act a next ih =>
    rw [directives, lines, directivesOf_append]
    exact (Action.lines_neutral inert.1).append (ih inert.2)
  | choose c yes no next first second ih =>
    obtain ⟨conditional, positive, negative, others⟩ := inert
    rw [choose_directives conditional]
    refine Neutral.append ?_ (ih others)
    split
    · exact .choice (first positive)
    · exact .alternative (.inl rfl) (first positive) (second negative)
  | chooseOr c yes d no next first second ih =>
    obtain ⟨conditional, positive, other, negative, others⟩ := inert
    have opening := openIf_directives
      (Text.inert_append (c.text_inert conditional) (by decide : Inert ")"))
    have middle := elseIf_directives
      (Text.inert_append (d.text_inert other) (by decide : Inert ")"))
    rw [← String.append_assoc] at opening middle
    have written : (chooseOr c yes d no next).directives = .openIf :: (yes.directives ++
        .elseIf :: (no.directives ++ [.close])) ++ next.directives := by
      simp [directives, lines, directivesOf_shift, opening, middle, end_directives]
    rw [written]
    exact (Neutral.alternative (.inr rfl) (first positive) (second negative)).append (ih others)
  | each name items body next first ih =>
    obtain ⟨⟨named, _⟩, listed, inner, others⟩ := inert
    have opening := openEach_directives (Text.inert_append (enclosed named
      (by decide : Inert " in ") (items.text_inert listed)) (by decide : Inert ")"))
    have written : (each name items body next).directives =
        .openEach :: (body.directives ++ [.close]) ++ next.directives := by
      simp only [String.append_assoc] at opening
      simp [directives, lines, directivesOf_shift, String.append_assoc, opening, end_directives]
    rw [written]
    exact (Neutral.loop (first inner)).append (ih others)

end Script

end Template

end ApiLoom
