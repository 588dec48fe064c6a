import ApiLoom.Plan.Access
import ApiLoom.Proofs.Drafts
import ApiLoom.Proofs.JsonTexts
import ApiLoom.Template.Body

/-!
# Lines of request bodies

The body of a request is read back from the lines of its template.  What the lines stand for
follows part by part: characters within a line, lines within a body, and the members of an object
with the one that is there only where the ownership of a record is checked.
-/

namespace ApiLoom

namespace Draft

/-! ### Lines -/

def mark : Char → Option Token
  | '{' => some .openObject
  | '}' => some .closeObject
  | '[' => some .openList
  | ']' => some .closeList
  | ',' => some .comma
  | ':' => some .colon
  | _ => none

/-- A call of `$util.toJson`, which takes up the rest of its line but for a comma. -/
def readCall (cs : List Char) : Option (List Token) :=
  match "$util.toJson(".toList.isPrefixOf? cs with
  | some rest =>
    match rest.reverse with
    | ')' :: expression => some [.computed (String.ofList expression.reverse)]
    | ',' :: ')' :: expression => some [.computed (String.ofList expression.reverse), .comma]
    | _ => none
  | none => none

def scan : List Char → Option (List Token)
  | [] => some []
  | c :: rest =>
    if c = ' ' then scan rest
    else if c = '"' then
      match _ : Json.readText 0 [] rest with
      | .ok (s, behind) => (scan behind).map (.text s :: ·)
      | .error _ => none
    else if c = '$' then readCall (c :: rest)
    else
      match mark c with
      | some t => (scan rest).map (t :: ·)
      | none => none
termination_by cs => cs.length
decreasing_by
  · exact Nat.lt_succ_self _
  · next read => exact Nat.lt_succ_of_lt (Json.readText_length read)
  · exact Nat.lt_succ_self _

theorem scan_text {cs rest : List Char} {s : String}
    (reads : Json.readText 0 [] cs = .ok (s, rest)) :
    scan ('"' :: cs) = (scan rest).map (.text s :: ·) := by
  rw [scan, if_neg (by decide), if_pos rfl]
  split
  · next same =>
    obtain ⟨rfl, rfl⟩ := Prod.mk.inj (Except.ok.inj (reads.symm.trans same))
    rfl
  · next failed =>
    rw [reads] at failed
    cases failed

theorem scan_call (cs : List Char) :
    scan ("$util.toJson(".toList ++ cs) = readCall ("$util.toJson(".toList ++ cs) := by
  have start : "$util.toJson(".toList = '$' :: "util.toJson(".toList := rfl
  rw [start, List.cons_append, scan, if_neg (by decide), if_neg (by decide), if_pos rfl]

theorem readCall_closed (expression : List Char) :
    readCall ("$util.toJson(".toList ++ (expression ++ [')'])) =
      some [.computed (String.ofList expression)] := by
  have opened : "$util.toJson(".toList.isPrefixOf? ("$util.toJson(".toList ++
      (expression ++ [')'])) = some (expression ++ [')']) := rfl
  rw [readCall, opened]
  simp

theorem readCall_followed (expression : List Char) :
    readCall ("$util.toJson(".toList ++ (expression ++ [')', ','])) =
      some [.computed (String.ofList expression), .comma] := by
  have opened : "$util.toJson(".toList.isPrefixOf? ("$util.toJson(".toList ++
      (expression ++ [')', ','])) = some (expression ++ [')', ',']) := rfl
  rw [readCall, opened]
  simp

/-- The characters stand for the tokens, whatever follows on their line. -/
def Scans (cs : List Char) (ts : List Token) : Prop :=
  ∀ rest, scan (cs ++ rest) = (scan rest).map (ts ++ ·)

namespace Scans

variable {cs more : List Char} {ts us : List Token}

theorem nil : Scans [] [] := fun rest => by simp

theorem append (first : Scans cs ts) (second : Scans more us) : Scans (cs ++ more) (ts ++ us) := by
  intro rest
  rw [List.append_assoc, first, second, Option.map_map]
  simp [Function.comp_def]

theorem whole (scans : Scans cs ts) : scan cs = some ts := by
  have ends := scans []
  rw [List.append_nil] at ends
  rw [ends, scan]
  simp

theorem blanks (n : Nat) : Scans (List.replicate n ' ') [] := by
  induction n with
  | zero => exact nil
  | succ n ih =>
    intro rest
    rw [List.replicate_succ, List.cons_append, scan, if_pos rfl, ih]

theorem single {c : Char} {t : Token} (known : mark c = some t) : Scans [c] [t] := by
  intro rest
  have blank : c ≠ ' ' := by rintro rfl; cases known
  have quote : c ≠ '"' := by rintro rfl; cases known
  have call : c ≠ '$' := by rintro rfl; cases known
  rw [List.singleton_append, scan, if_neg blank, if_neg quote, if_neg call, known]
  rfl

theorem quoted (s : String) : Scans (Text.quote s).toList [.text s] := by
  intro rest
  have reads := Json.readText_encode 0 [] s.toList rest
  rw [List.reverse_nil, List.nil_append, String.ofList_toList] at reads
  rw [Text.quote, String.toList_ofList, Text.Quoted.encode, List.cons_append, List.cons_append,
    List.append_assoc, List.singleton_append]
  exact scan_text reads

theorem spelled {s : String} (spelled : Json.IsSpelled s) :
    Scans ("\"" ++ s ++ "\"").toList [.text s] := by
  intro rest
  have reads := Json.readText_spelled 0 [] rest spelled
  rw [List.reverse_nil, List.nil_append, String.ofList_toList] at reads
  rw [String.toList_append, String.toList_append, List.append_assoc, List.append_assoc]
  exact scan_text reads

end Scans

/-! ### Templates -/

/-- The lines behind those that set up a body. -/
def objectPart (lines : List String) : List String := lines.dropWhile (· ≠ "\x7b")

def checkMark : String := "#if($ctx.stash.needsOwnershipCheck)"

/-- The lines that are left where an ownership check is asked for, or is not. -/
def settled (checked : Bool) : (inside : Bool) → List String → List String
  | _, [] => []
  | true, line :: rest =>
    if line = "#end" then settled checked false rest
    else if checked then line :: settled checked true rest
    else settled checked true rest
  | false, line :: rest =>
    if line = checkMark then settled checked true rest else line :: settled checked false rest

def lineTokens : List String → Option (List Token)
  | [] => some []
  | line :: rest => (scan line.toList).bind fun ts => (lineTokens rest).map (ts ++ ·)

/-- The value that the body of a request stands for, with or without an ownership check. -/
def readBody (checked : Bool) (lines : List String) : Option Draft :=
  (lineTokens (settled checked false (objectPart lines))).bind read

/-- The lines stand for the tokens, whatever lines follow. -/
def Spells (checked : Bool) (lines : List String) (ts : List Token) : Prop :=
  ∀ rest, lineTokens (settled checked false (lines ++ rest)) =
    (lineTokens (settled checked false rest)).map (ts ++ ·)

theorem scan_mark (rest : List Char) : scan ('#' :: rest) = none := by
  rw [scan, if_neg (by decide), if_neg (by decide), if_neg (by decide)]
  rfl

namespace Spells

variable {checked : Bool} {lines more : List String} {line : String} {ts us : List Token}

theorem nil : Spells checked [] [] := fun rest => by simp

theorem append (first : Spells checked lines ts) (second : Spells checked more us) :
    Spells checked (lines ++ more) (ts ++ us) := by
  intro rest
  rw [List.append_assoc, first, second, Option.map_map]
  simp [Function.comp_def]

theorem whole (spells : Spells checked lines ts) :
    lineTokens (settled checked false lines) = some ts := by
  have ends := spells []
  rw [List.append_nil] at ends
  rw [ends, settled, lineTokens]
  simp

/-- No directive is part of a value. -/
theorem ne_directive (read : scan line.toList = some ts) {directive : String}
    (starts : directive.toList.head? = some '#') : line ≠ directive := by
  rintro rfl
  obtain ⟨rest, same⟩ := List.head?_eq_some_iff.mp starts
  rw [same, scan_mark] at read
  cases read

theorem single (read : scan line.toList = some ts) : Spells checked [line] ts := by
  intro rest
  rw [List.singleton_append, settled, if_neg (ne_directive read rfl), lineTokens, read]
  rfl

/-- A line that is there for the check alone. -/
theorem provided (checked : Bool) (read : scan line.toList = some ts) :
    Spells checked [checkMark, line, "#end"] (if checked then ts else []) := by
  intro rest
  simp only [List.cons_append, List.nil_append]
  rw [settled, if_pos rfl, settled, if_neg (ne_directive read rfl)]
  cases checked with
  | true =>
    rw [if_pos rfl, settled, if_pos rfl, lineTokens, read]
    rfl
  | false =>
    rw [if_neg (by decide), settled, if_pos rfl]
    simp

end Spells

end Draft

namespace Template

open Draft (Scans Spells Token checkMark commas commas_cons itemTokens mark memberTokens
  objectPart readBody readCall_closed readCall_followed scan scan_call)

/-! ### Bodies -/

/-- The text of the term is that of the value, with or without a comma behind it. -/
structure Term.Draws (t : Term) (d : Draft) : Prop where
  last : scan t.text.toList = some d.tokens
  followed : scan (t.text ++ ",").toList = some (d.tokens ++ [.comma])

namespace Term.Draws

theorem of_scans {t : Term} {d : Draft} (scans : Scans t.text.toList d.tokens) : t.Draws d := by
  refine ⟨scans.whole, ?_⟩
  rw [String.toList_append]
  exact (scans.append (.single rfl)).whole

theorem quoted (s : String) : (Term.quoted s).Draws (.text s) := by
  refine of_scans ?_
  rw [Draft.tokens, Term.text]
  exact .quoted s

theorem plain {s : String} (spelled : Json.IsSpelled s) : (Term.plain s).Draws (.text s) := by
  refine of_scans ?_
  rw [Draft.tokens, Term.text]
  exact .spelled spelled

theorem asJson (value : Term) : value.asJson.Draws (.computed value.text) := by
  have text : value.asJson.text.toList =
      "$util.toJson(".toList ++ (value.text.toList ++ [')']) := by
    simp [Term.asJson, Term.util, Term.text, Term.texts]
  refine ⟨?_, ?_⟩
  · rw [text, scan_call, readCall_closed, String.ofList_toList, Draft.tokens]
  · have comma : ",".toList = [','] := rfl
    rw [String.toList_append, text, comma, List.append_assoc, scan_call, List.append_assoc,
      List.singleton_append, readCall_followed, String.ofList_toList, Draft.tokens]
    rfl

/-- What stands before a term on its line. -/
theorem line {t : Term} {d : Draft} (draws : t.Draws d) {lead : String} {before : List Token}
    (scans : Scans lead.toList before) :
    scan (lead ++ t.text).toList = some (before ++ d.tokens) ∧
      scan (lead ++ t.text ++ ",").toList = some (before ++ d.tokens ++ [.comma]) := by
  have last := scans t.text.toList
  have followed := scans (t.text ++ ",").toList
  rw [← String.toList_append] at last followed
  rw [last, String.append_assoc, followed, draws.last, draws.followed]
  simp

end Term.Draws

theorem scans_margin (depth : Nat) : Scans (margin depth).toList [] := by
  rw [margin, String.toList_ofList]
  exact .blanks _

/-- What stands before the value of a member. -/
theorem scans_key {key : String} (spelled : Json.IsSpelled key) :
    Scans ("\"" ++ key ++ "\": ").toList [.text key, .colon] := by
  have parts : ("\"" ++ key ++ "\": ").toList =
      ("\"" ++ key ++ "\"").toList ++ ([':'] ++ List.replicate 1 ' ') := by
    simp [String.toList_append]
  rw [parts]
  exact (Scans.spelled spelled).append ((Scans.single rfl).append (.blanks 1))

/-- What stands before a member that the others may lack. -/
theorem scans_between (first : Bool) :
    Scans (if first then "" else ", ").toList (if first then [] else [.comma]) := by
  cases first with
  | true => exact .nil
  | false => exact (Scans.single (c := ',') rfl).append (.blanks 1)

/-- Lines between brackets, with what stands before and behind the brackets. -/
theorem enclosed_spell {checked : Bool} {inner : List String} {tokens : List Token}
    {opening closing : String} {a b : Char} {opens closes : Token}
    (first : opening.toList = [a]) (opensWith : mark a = some opens)
    (last : closing.toList = [b]) (closesWith : mark b = some closes)
    (spells : Spells checked inner tokens) (depth : Nat) {lead : String} {before : List Token}
    (scans : Scans lead.toList before) :
    Spells checked ((margin depth ++ lead ++ opening) :: (inner ++ [margin depth ++ closing ++ ""]))
        (before ++ opens :: (tokens ++ [closes])) ∧
      Spells checked
        ((margin depth ++ lead ++ opening) :: (inner ++ [margin depth ++ closing ++ ","]))
        (before ++ opens :: (tokens ++ [closes]) ++ [.comma]) := by
  have starts : Scans (margin depth ++ lead ++ opening).toList (before ++ [opens]) := by
    rw [String.toList_append, String.toList_append, first]
    exact ((scans_margin depth).append scans).append (.single opensWith)
  have ends : Scans (margin depth ++ closing).toList [closes] := by
    rw [String.toList_append, last]
    exact (scans_margin depth).append (.single closesWith)
  have followed : Scans (margin depth ++ closing ++ ",").toList [closes, .comma] := by
    rw [String.toList_append]
    exact ends.append (.single rfl)
  have lines : Spells checked ((margin depth ++ lead ++ opening) :: inner)
      (before ++ [opens] ++ tokens) := (Spells.single starts.whole).append spells
  rw [String.append_empty]
  constructor
  · simpa using lines.append (.single ends.whole)
  · simpa using lines.append (.single followed.whole)

/-- The lines of the body are those of the value, wherever the body stands in another. -/
def Body.Draws (checked : Bool) (body : Body) (d : Draft) : Prop :=
  ∀ depth {lead : String} {before : List Token}, Scans lead.toList before →
    Spells checked (body.linesAt depth lead "") (before ++ d.tokens) ∧
      Spells checked (body.linesAt depth lead ",") (before ++ d.tokens ++ [.comma])

theorem Body.draws_value {checked : Bool} {t : Term} {d : Draft} (draws : t.Draws d) :
    (Body.value t).Draws checked d := by
  intro depth lead before scans
  have placed : Scans (margin depth ++ lead).toList before := by
    rw [String.toList_append]
    exact (scans_margin depth).append scans
  obtain ⟨last, followed⟩ := draws.line placed
  rw [Body.linesAt, Body.linesAt, String.append_empty]
  exact ⟨.single last, .single followed⟩

/-! ### Lists -/

theorem separated_cons (text next : String) (rest : List String) :
    separated (text :: next :: rest) = (text ++ ",") :: separated (next :: rest) := rfl

theorem rows_spell {checked : Bool} (depth : Nat) {items : List (Term × Draft)}
    (draws : ∀ x ∈ items, x.1.Draws x.2) :
    Spells checked (separated (items.map fun x => margin depth ++ x.1.text))
      (commas (itemTokens (items.map Prod.snd))) := by
  induction items with
  | nil => exact .nil
  | cons x items ih =>
    obtain ⟨last, followed⟩ := (draws x List.mem_cons_self).line (scans_margin depth)
    have rest := ih fun y later => draws y (List.mem_cons_of_mem _ later)
    cases items with
    | nil => exact .single last
    | cons y items =>
      have line : Spells checked [margin depth ++ x.1.text ++ ","] (x.2.tokens ++ [.comma]) :=
        .single followed
      simpa [separated_cons, itemTokens, commas_cons] using line.append rest

theorem Body.draws_rows {checked : Bool} {items : List (Term × Draft)}
    (draws : ∀ x ∈ items, x.1.Draws x.2) :
    (Body.rows (items.map Prod.fst)).Draws checked (.list (items.map Prod.snd)) := by
  intro depth lead before scans
  rw [Body.linesAt, Body.linesAt, Draft.tokens, List.map_map]
  exact enclosed_spell rfl rfl rfl rfl (rows_spell (depth + 1) draws) depth scans

/-! ### Objects -/

/-- The member is there in any case, and its lines are those of the member of a value. -/
inductive Member.Draws (checked : Bool) : Member → String × Draft → Prop
  | always {key : String} {body : Body} {d : Draft} (spelled : Json.IsSpelled key)
    (draws : body.Draws checked d) : Draws checked (.always key body) (key, d)

theorem Member.Draws.isAlways {checked : Bool} {member : Member} {d : String × Draft}
    (draws : member.Draws checked d) : member.isAlways = true := by
  cases draws
  rfl

/-- The members that are there in any case stand before all others. -/
theorem members_spell {checked : Bool} (depth : Nat) {members : List (Member × String × Draft)}
    (draws : ∀ x ∈ members, x.1.Draws checked x.2) (others : List Member)
    (last : others.any Member.isAlways = false) (first : Bool) :
    ∃ lines, memberLines depth first (members.map Prod.fst ++ others) =
        lines ++ memberLines depth (first && members.isEmpty) others ∧
      Spells checked lines (commas (memberTokens (members.map Prod.snd))) := by
  induction members generalizing first with
  | nil => exact ⟨[], by simp, .nil⟩
  | cons x members ih =>
    obtain ⟨member, key, d⟩ := x
    cases draws _ List.mem_cons_self with
    | @always _ body _ spelled own =>
      obtain ⟨lines, same, rest⟩ := ih (fun y later => draws y (List.mem_cons_of_mem _ later)) false
      obtain ⟨ends, followed⟩ := own depth (scans_key spelled)
      cases members with
      | nil =>
        refine ⟨body.linesAt depth ("\"" ++ key ++ "\": ") "", ?_,
          by simpa [memberTokens, commas] using ends⟩
        simp [memberLines, last]
      | cons y members =>
        refine ⟨body.linesAt depth ("\"" ++ key ++ "\": ") "," ++ lines, ?_, ?_⟩
        · have next : y.1.isAlways = true := (draws y (by simp)).isAlways
          have more : ((y :: members).map Prod.fst ++ others).any Member.isAlways = true := by
            simp [next]
          rw [List.map_cons, List.cons_append, memberLines, more, if_pos rfl, same,
            Bool.false_and, List.isEmpty_cons, Bool.and_false, List.append_assoc]
        · simpa [memberTokens, commas_cons] using followed.append rest

theorem Body.draws_object {checked : Bool} {members : List Member}
    {drafts : List (String × Draft)}
    (inner : ∀ depth, Spells checked (memberLines depth true members)
      (commas (memberTokens drafts))) :
    (Body.object members).Draws checked (.object drafts) := by
  intro depth lead before scans
  rw [Body.linesAt, Body.linesAt, Draft.tokens]
  exact enclosed_spell rfl rfl rfl rfl (inner (depth + 1)) depth scans

theorem Body.draws_members {checked : Bool} {members : List (Member × String × Draft)}
    (draws : ∀ x ∈ members, x.1.Draws checked x.2) :
    (Body.object (members.map Prod.fst)).Draws checked (.object (members.map Prod.snd)) := by
  refine draws_object fun depth => ?_
  obtain ⟨lines, same, spells⟩ := members_spell depth draws [] rfl true
  rw [List.append_nil, memberLines, List.append_nil] at same
  rw [same]
  exact spells

theorem memberTokens_append (drafts : List (String × Draft)) (key : String) (d : Draft) :
    commas (memberTokens (drafts ++ [(key, d)])) = commas (memberTokens drafts) ++
      ((if drafts.isEmpty then [] else [.comma]) ++ .text key :: .colon :: d.tokens) := by
  induction drafts with
  | nil => rfl
  | cons x drafts ih =>
    cases drafts with
    | nil => simp [memberTokens, commas]
    | cons y drafts => simpa [memberTokens, commas_cons] using ih

/-- The member behind the others is there if an ownership check is asked for. -/
theorem Body.draws_checked {checked : Bool} {members : List (Member × String × Draft)}
    (draws : ∀ x ∈ members, x.1.Draws checked x.2) {key : String} (spelled : Json.IsSpelled key)
    {t : Term} {d : Draft} (own : t.Draws d) :
    (Body.object (members.map Prod.fst ++
        [.provided (.flagged needsOwnershipCheck) key t])).Draws checked
      (.object (members.map Prod.snd ++ if checked then [(key, d)] else [])) := by
  refine draws_object fun depth => ?_
  obtain ⟨lines, same, spells⟩ := members_spell depth draws
    [.provided (.flagged needsOwnershipCheck) key t] rfl true
  let between := if members.isEmpty then "" else ", "
  have scans : Scans (margin depth ++ between ++ ("\"" ++ key ++ "\": ")).toList
      ((if members.isEmpty then [] else [.comma]) ++ [.text key, .colon]) := by
    rw [String.toList_append, String.toList_append]
    exact ((scans_margin depth).append (scans_between _)).append (scans_key spelled)
  have provided := Spells.provided checked (own.line scans).1
  have written : memberLines depth members.isEmpty
      [.provided (.flagged needsOwnershipCheck) key t] =
      [checkMark, margin depth ++ between ++ ("\"" ++ key ++ "\": ") ++ t.text, "#end"] := by
    have mark : "#if(" ++ (Cond.flagged needsOwnershipCheck).text ++ ")" = checkMark := by
      simp [Cond.flagged, Cond.text, Term.stash, Term.context, Term.text, needsOwnershipCheck,
        checkMark]
    rw [memberLines, memberLines, mark]
    simp [between, String.append_assoc]
  rw [same, Bool.true_and, written]
  cases checked with
  | true => simpa [memberTokens_append] using spells.append provided
  | false => simpa using spells.append provided

/-- The value of an object that fills its template is read back from the lines. -/
theorem Body.Draws.read {checked : Bool} {members : List Member} {d : Draft}
    (draws : (Body.object members).Draws checked d) {before : List String}
    (opens : "\x7b" ∉ before) :
    readBody checked (before ++ (Body.object members).lines) = some d := by
  have start : Scans "".toList [] := .nil
  have spells := (draws 0 start).1
  have part : objectPart (before ++ (Body.object members).lines) = (Body.object members).lines := by
    have skipped : ∀ line ∈ before, decide (line ≠ "\x7b") = true := by
      intro line member
      exact decide_eq_true fun same => opens (same ▸ member)
    rw [objectPart, List.dropWhile_append_of_pos skipped]
    rfl
  rw [List.nil_append] at spells
  rw [readBody, part, Body.lines, spells.whole]
  exact d.read_tokens

end Template

end ApiLoom
