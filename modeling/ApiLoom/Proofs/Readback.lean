import ApiLoom.Proofs.Expressions
import ApiLoom.Proofs.Machine

/-!
# Scripts read back

The script that the lines of a template stand for, of the part of the language in which access
decisions are written.  The lines are read from the last one on, with the blocks that are open in
a stack; lines that are not of this part, or whose blocks do not nest, stand for nothing.  The lines
of a script are read as the script, and it does the same when none of its quoted texts contains a
reference.
-/

namespace ApiLoom.Template

/-! ### Lines -/

inductive Line where
  | act (action : Action)
  | opens (condition : Cond)
  | loops (name : String) (items : Term)
  | closes

namespace Line

/-- What stands before the bracket at the end. -/
def enclosed (lexemes : List Lexeme) : Option (List Lexeme) :=
  if lexemes.getLast? = some (.sign ')') then some lexemes.dropLast else none

def ofCall : Term → Option Action
  | .call (.var "util") "unauthorized" [] => some .refuse
  | .call (.var "util") "qr" [call] => some (.run call)
  | _ => none

def argument (directive : String) (inner : List Lexeme) : Option Line :=
  match directive, inner with
  | "if", inner => (Cond.read inner).map .opens
  | "set", .reference name :: .operator "=" :: value =>
    (Term.read value).map fun v => .act (.set name v)
  | "foreach", .reference name :: .word "in" :: items => (Term.read items).map (.loops name)
  | _, _ => none

def ofLexemes : List Lexeme → Option Line
  | [.sign '#', .word "end"] => some .closes
  | [.sign '#', .word "break"] => some (.act .leaveLoop)
  | .sign '#' :: .word directive :: .sign '(' :: rest => (enclosed rest).bind (argument directive)
  | lexemes => ((Term.read lexemes).bind ofCall).map .act

/-- A comment reaches to the end of its line. -/
def read (line : String) : Option Line :=
  match line.toList.dropWhile (· = ' ') with
  | '#' :: '#' :: ' ' :: text =>
    let note := String.ofList text
    if Text.isUnbroken note then some (.act (.comment note)) else none
  | cs => ofLexemes (lexemes cs)

theorem read_shift (line : String) : read ("  " ++ line) = read line := by
  simp [read]

theorem enclosed_concat (lexemes : List Lexeme) :
    enclosed (lexemes ++ [.sign ')']) = some lexemes := by
  simp [enclosed]

theorem read_call {t : Term} (legible : t.isLegible = true) (reference : t.isReference = true)
    (begins : ∃ name rest, t.lexemes = .reference name :: rest) :
    read t.text = (ofCall t.asRead).map .act := by
  obtain ⟨letters, chars⟩ := t.text_reference reference
  obtain ⟨name, rest, first⟩ := begins
  have whole : lexemes ('$' :: letters) = t.lexemes := by
    simpa [chars, lexemes, lexemesFrom, Scan.close] using t.lexemes_text legible .nil
  have parsed : ((Term.read (.reference name :: rest)).bind ofCall).map Line.act =
      (ofCall t.asRead).map .act := by
    rw [← first, Term.read_lexemes legible]
    rfl
  rw [read, chars, List.dropWhile_cons_of_neg (by decide)]
  simpa [whole, first, ofLexemes] using parsed

theorem read_directive (directive : String) (inner : List Lexeme) {line : String} {c : Char}
    {rest : List Char} (chars : line.toList = '#' :: c :: rest) (apart : c ≠ '#')
    (spelled : lexemes line.toList =
      .sign '#' :: .word directive :: .sign '(' :: (inner ++ [.sign ')'])) :
    read line = argument directive inner := by
  have trimmed : line.toList.dropWhile (· = ' ') = '#' :: c :: rest := by
    rw [chars, List.dropWhile_cons_of_neg (by decide)]
  have whole : ofLexemes (lexemes ('#' :: c :: rest)) = argument directive inner := by
    rw [← chars, spelled, ofLexemes, enclosed_concat, Option.bind_some]
  rw [read, trimmed]
  split
  · next same =>
    exact absurd (List.cons.inj (List.cons.inj same).2).1 apart
  · exact whole

theorem lexemes_close : lexemes [')'] = [.sign ')'] := rfl

theorem read_set {name : String} {value : Term} (named : Text.isVariable name.toList = true)
    (legible : value.isLegible = true) :
    read ("#set($" ++ name ++ " = " ++ value.text ++ ")") =
      some (.act (.set name value.asRead)) := by
  have chars : ("#set($" ++ name ++ " = " ++ value.text ++ ")").toList =
      '#' :: 's' :: 'e' :: 't' :: '(' :: '$' ::
        (name.toList ++ ' ' :: ("=".toList ++ ' ' :: (value.text.toList ++ [')']))) := by
    simp
  have lead (cs : List Char) : lexemes ('#' :: 's' :: 'e' :: 't' :: '(' :: cs) =
      .sign '#' :: .word "set" :: .sign '(' :: lexemes cs := rfl
  rw [read_directive "set" (.reference name :: .operator "=" :: value.lexemes) chars (by decide)]
  · rw [argument, Term.read_lexemes legible]
    rfl
  · rw [chars, lead, lexemes_reference named (.cons (by decide)),
      lexemes_operator (by decide) (by decide), value.lexemes_text legible (.cons (by decide)),
      lexemes_close]
    rfl

theorem read_if {c : Cond} (legible : c.isLegible = true) :
    read ("#if(" ++ c.text ++ ")") = some (.opens c.asRead) := by
  have chars : ("#if(" ++ c.text ++ ")").toList =
      '#' :: 'i' :: 'f' :: '(' :: (c.text.toList ++ [')']) := by
    simp
  have lead (cs : List Char) : lexemes ('#' :: 'i' :: 'f' :: '(' :: cs) =
      .sign '#' :: .word "if" :: .sign '(' :: lexemes cs := rfl
  rw [read_directive "if" c.lexemes chars (by decide)]
  · rw [argument, Cond.read_lexemes legible]
    rfl
  · rw [chars, lead, c.lexemes_text legible (.cons (by decide)), lexemes_close]

theorem read_forEach {name : String} {items : Term} (named : Text.isVariable name.toList = true)
    (legible : items.isLegible = true) :
    read ("#foreach($" ++ name ++ " in " ++ items.text ++ ")") =
      some (.loops name items.asRead) := by
  have chars : ("#foreach($" ++ name ++ " in " ++ items.text ++ ")").toList =
      '#' :: 'f' :: ("oreach".toList ++ '(' :: '$' ::
        (name.toList ++ ' ' :: ("in".toList ++ ' ' :: (items.text.toList ++ [')'])))) := by
    simp
  have lead (cs : List Char) : lexemes ('#' :: 'f' :: ("oreach".toList ++ '(' :: cs)) =
      .sign '#' :: .word "foreach" :: .sign '(' :: lexemes cs := rfl
  have within (cs : List Char) : lexemes (' ' :: ("in".toList ++ ' ' :: cs)) =
      .word "in" :: lexemes cs := rfl
  rw [read_directive "foreach" (.reference name :: .word "in" :: items.lexemes) chars (by decide)]
  · rw [argument, Term.read_lexemes legible]
    rfl
  · rw [chars, lead, lexemes_reference named (.cons (by decide)), within,
      items.lexemes_text legible (.cons (by decide)), lexemes_close]
    rfl

end Line

/-! ### Actions -/

namespace Action

def isLegible : Action → Bool
  | comment text => Text.isUnbroken text
  | set name value => Text.isVariable name.toList && value.isLegible
  | run call => call.isLegible
  | refuse | leaveLoop => true
  | _ => false

def asRead : Action → Action
  | set name value => set name value.asRead
  | run call => run call.asRead
  | a => a

theorem read_line {a : Action} (legible : a.isLegible = true) :
    ∃ line, a.lines = [line] ∧ Line.read line = some (.act a.asRead) := by
  cases a with
  | comment text =>
    refine ⟨_, rfl, ?_⟩
    have chars : ("## " ++ text).toList = '#' :: '#' :: ' ' :: text.toList := by simp
    have unbroken : Text.isUnbroken text = true := legible
    rw [Line.read, chars, List.dropWhile_cons_of_neg (by decide)]
    simp only [String.ofList_toList, unbroken, if_true]
    rfl
  | set name value =>
    obtain ⟨named, readable⟩ := Bool.and_eq_true_iff.mp legible
    exact ⟨_, rfl, Line.read_set named readable⟩
  | run call =>
    have readable : (Term.util.call "qr" [call]).isLegible = true := by
      simp only [Term.isLegible, Term.areLegible, Term.util, Bool.and_true, Bool.and_eq_true]
      exact ⟨by decide, legible⟩
    have text : "$util.qr(" ++ call.text ++ ")" = (Term.util.call "qr" [call]).text := by
      apply String.toList_inj.mp
      simp [Term.text, Term.texts, Term.util]
    refine ⟨_, rfl, ?_⟩
    rw [text, Line.read_call readable rfl ⟨_, _, rfl⟩]
    rfl
  | refuse => exact ⟨_, rfl, rfl⟩
  | leaveLoop => exact ⟨_, rfl, rfl⟩
  | _ => simp [isLegible] at legible

end Action

/-! ### Scripts -/

/-- Adds a line before the scripts of the blocks one is in, the innermost first. -/
def Line.place : Line → List Script → Option (List Script)
  | act a, next :: outer => some (.act a next :: outer)
  | closes, outer => some (.done :: outer)
  | opens c, body :: next :: outer => some (.choose c body .done next :: outer)
  | loops name items, body :: next :: outer => some (.each name items body next :: outer)
  | _, _ => none

namespace Script

def readFrom : List String → Option (List Script)
  | [] => some [done]
  | line :: rest => do (← Line.read line).place (← readFrom rest)

/-- The script that the lines stand for. -/
def read (lines : List String) : Option Script :=
  match readFrom lines with
  | some [s] => some s
  | _ => none

def isLegible : Script → Bool
  | done => true
  | act a next => a.isLegible && next.isLegible
  | choose c yes no next => c.isLegible && yes.isLegible && no.isDone && next.isLegible
  | chooseOr .. => false
  | each name items body next =>
    Text.isVariable name.toList && items.isLegible && body.isLegible && next.isLegible

def asRead : Script → Script
  | done => done
  | act a next => act a.asRead next.asRead
  | choose c yes no next => choose c.asRead yes.asRead no.asRead next.asRead
  | chooseOr c yes d no next => chooseOr c.asRead yes.asRead d.asRead no.asRead next.asRead
  | each name items body next => each name items.asRead body.asRead next.asRead

@[simp] theorem append_done (s : Script) : s ++ done = s := by
  induction s <;> simp_all

section Legible

variable {a b : Script} {c : Cond}

@[simp] theorem isLegible_append : (a ++ b).isLegible = (a.isLegible && b.isLegible) := by
  induction a <;> simp_all [isLegible, Bool.and_assoc]

@[simp] theorem isLegible_acts (actions : List Action) :
    (acts actions).isLegible = actions.all Action.isLegible := by
  induction actions <;> simp_all [acts, isLegible]

@[simp] theorem isLegible_when : (when c a).isLegible = (c.isLegible && a.isLegible) := by
  simp [when, isLegible, isDone]

@[simp] theorem isLegible_forEach {name : String} {items : Term} :
    (forEach name items a).isLegible =
      (Text.isVariable name.toList && items.isLegible && a.isLegible) := by
  simp [forEach, isLegible]

theorem isLegible_concat {parts : List Script} (each : ∀ part ∈ parts, part.isLegible = true) :
    (concat parts).isLegible = true := by
  induction parts with
  | nil => rfl
  | cons part rest ih =>
    obtain ⟨first, later⟩ := List.forall_mem_cons.mp each
    simp [concat, first, ih later]

end Legible

theorem readFrom_shift (lines rest : List String) :
    readFrom (shift lines ++ rest) = readFrom (lines ++ rest) := by
  induction lines with
  | nil => rfl
  | cons line later ih =>
    have step : readFrom (shift (line :: later) ++ rest) =
        (do (← Line.read ("  " ++ line)).place (← readFrom (shift later ++ rest))) := rfl
    rw [step, Line.read_shift, ih]
    rfl

/-- The lines of a script are read before those that follow them. -/
theorem readFrom_lines {s top : Script} {rest : List String} {outer : List Script}
    (legible : s.isLegible = true) (behind : readFrom rest = some (top :: outer)) :
    readFrom (s.lines ++ rest) = some ((s.asRead ++ top) :: outer) := by
  induction s generalizing rest top outer with
  | done => exact behind
  | act a next ih =>
    obtain ⟨first, later⟩ := Bool.and_eq_true_iff.mp legible
    obtain ⟨line, written, found⟩ := a.read_line first
    rw [lines, written, List.singleton_append, List.cons_append, readFrom, found, ih later behind]
    rfl
  | choose c yes no next bodyRead _ nextRead =>
    obtain ⟨lead, later⟩ := Bool.and_eq_true_iff.mp legible
    obtain ⟨lead, single⟩ := Bool.and_eq_true_iff.mp lead
    obtain ⟨first, inner⟩ := Bool.and_eq_true_iff.mp lead
    cases no with
    | done =>
      have closed : readFrom ("#end" :: (next.lines ++ rest)) =
          some (done :: (next.asRead ++ top) :: outer) := by
        rw [readFrom, nextRead later behind]
        rfl
      have chosen : (choose c yes done next).lines ++ rest = ("#if(" ++ c.text ++ ")") ::
          (shift yes.lines ++ ("#end" :: (next.lines ++ rest))) := by
        simp [lines, isDone]
      rw [chosen, readFrom, readFrom_shift, bodyRead inner closed, Line.read_if first]
      simp [Line.place, asRead]
    | _ => cases single
  | chooseOr c yes d no next => cases legible
  | each name items body next bodyRead nextRead =>
    obtain ⟨lead, later⟩ := Bool.and_eq_true_iff.mp legible
    obtain ⟨lead, inner⟩ := Bool.and_eq_true_iff.mp lead
    obtain ⟨named, first⟩ := Bool.and_eq_true_iff.mp lead
    have closed : readFrom ("#end" :: (next.lines ++ rest)) =
        some (done :: (next.asRead ++ top) :: outer) := by
      rw [readFrom, nextRead later behind]
      rfl
    have looped : (each name items body next).lines ++ rest =
        ("#foreach($" ++ name ++ " in " ++ items.text ++ ")") ::
          (shift body.lines ++ ("#end" :: (next.lines ++ rest))) := by
      simp [lines]
    rw [looped, readFrom, readFrom_shift, bodyRead inner closed, Line.read_forEach named first]
    simp [Line.place, asRead]

theorem read_lines {s : Script} (legible : s.isLegible = true) : read s.lines = some s.asRead := by
  have whole : readFrom (s.lines ++ []) = some [s.asRead ++ done] := readFrom_lines legible rfl
  rw [List.append_nil, append_done] at whole
  rw [read, whole]

theorem readFrom_of_unreadable {lines : List String} {line : String} (member : line ∈ lines)
    (unreadable : Line.read line = none) : readFrom lines = none := by
  induction lines with
  | nil => cases member
  | cons first rest ih =>
    rcases List.mem_cons.mp member with rfl | later
    · rw [readFrom, unreadable]
      rfl
    · rw [readFrom, ih later]
      cases Line.read first <;> rfl

end Script

/-! ### What scripts that are read back do -/

namespace Term

mutual

/-- No quoted text contains a reference. -/
def isConstant : Term → Bool
  | quoted text => !text.toList.contains '$'
  | member of _ => of.isConstant
  | item of key => of.isConstant && key.isConstant
  | call of _ arguments => of.isConstant && areConstant arguments
  | list items => areConstant items
  | entry key value => key.isConstant && value.isConstant
  | sum left right => left.isConstant && right.isConstant
  | negated t => t.isConstant
  | _ => true

def areConstant : List Term → Bool
  | [] => true
  | t :: rest => t.isConstant && areConstant rest

end

theorem part?_asRead (t : Term) : t.asRead.part? = t.part? := by
  cases t with
  | member of name => cases of <;> rfl
  | _ => rfl

mutual

theorem eval_asRead {w : World} {s : State} : (t : Term) → t.isConstant = true →
    t.asRead.eval w s = t.eval w s
  | .quoted text, constant => by
    have whole : w.expand s text = text := by
      simp [World.expand, Text.expand_plain (by simpa [isConstant] using constant)]
    rw [asRead, eval, eval, whole]
  | .member of name, constant => by rw [asRead, eval, eval, eval_asRead of constant]
  | .item of key, constant => by
    obtain ⟨first, second⟩ := Bool.and_eq_true_iff.mp constant
    rw [asRead, eval, eval, eval_asRead of first, eval_asRead key second]
  | .call of method arguments, constant => by
    obtain ⟨first, second⟩ := Bool.and_eq_true_iff.mp constant
    rw [asRead, eval, eval, part?_asRead, eval_asRead of first, evals_asRead arguments second]
  | .list items, constant => by rw [asRead, eval, eval, evals_asRead items constant]
  | .entry key value, constant => by
    obtain ⟨first, second⟩ := Bool.and_eq_true_iff.mp constant
    rw [asRead, eval, eval, eval_asRead key first, eval_asRead value second]
  | .sum left right, constant => by
    obtain ⟨first, second⟩ := Bool.and_eq_true_iff.mp constant
    rw [asRead, eval, eval, eval_asRead left first, eval_asRead right second]
  | .negated t, constant => by rw [asRead, eval, eval, eval_asRead t constant]
  | .verbatim _, _ | .var _, _ | .plain _, _ | .number _, _ | .truth _, _ | .null, _
  | .emptyMap, _ => rfl

theorem evals_asRead {w : World} {s : State} : (ts : List Term) → areConstant ts = true →
    evals w s (allAsRead ts) = evals w s ts
  | [], _ => rfl
  | t :: rest, constant => by
    obtain ⟨first, later⟩ := Bool.and_eq_true_iff.mp constant
    rw [allAsRead, evals, evals, eval_asRead t first, evals_asRead rest later]

end

end Term

section Meaning

variable {w : World} {s : State}

namespace Cond

def isConstant : Cond → Bool
  | holds t | fails t => t.isConstant
  | compare left _ right => left.isConstant && right.isConstant
  | oneOf subject _ => subject.isConstant
  | both first second => first.isConstant && second.isConstant

theorem eval_asRead {c : Cond} (constant : c.isConstant = true) :
    c.asRead.eval w s = c.eval w s := by
  induction c with
  | holds t => rw [asRead, eval, eval, t.eval_asRead constant]
  | fails t => rw [asRead, eval, eval, t.eval_asRead constant]
  | compare left how right =>
    obtain ⟨first, second⟩ := Bool.and_eq_true_iff.mp constant
    rw [asRead, eval, eval, left.eval_asRead first, right.eval_asRead second]
  | oneOf subject texts => rw [asRead, eval, eval, subject.eval_asRead constant]
  | both first second firstSame secondSame =>
    obtain ⟨left, right⟩ := Bool.and_eq_true_iff.mp constant
    rw [asRead, eval, eval, firstSame left, secondSame right]

end Cond

theorem State.change_asRead (f : Value → Value) (t : Term) :
    s.change f t.asRead = s.change f t := by
  cases t with
  | member of name =>
    cases of with
    | member of _ => cases of <;> rfl
    | _ => rfl
  | _ => rfl

theorem State.effect_asRead {call : Term} (constant : call.isConstant = true) :
    s.effect w call.asRead = s.effect w call := by
  cases call with
  | call of method arguments =>
    obtain ⟨_, given⟩ := Bool.and_eq_true_iff.mp constant
    rcases arguments with _ | ⟨a, _ | ⟨b, _ | ⟨c, more⟩⟩⟩
    · simp [Term.asRead, Term.allAsRead, effect]
    · obtain ⟨first, _⟩ := Bool.and_eq_true_iff.mp given
      by_cases add : method = "add"
      · subst add
        simp only [Term.asRead, Term.allAsRead, effect, change_asRead, a.eval_asRead first]
      · simp [Term.asRead, Term.allAsRead, effect, add]
    · obtain ⟨first, later⟩ := Bool.and_eq_true_iff.mp given
      obtain ⟨second, _⟩ := Bool.and_eq_true_iff.mp later
      by_cases put : method = "put"
      · subst put
        simp only [Term.asRead, Term.allAsRead, effect, change_asRead, a.eval_asRead first,
          b.eval_asRead second]
      · simp [Term.asRead, Term.allAsRead, effect, put]
    · simp [Term.asRead, Term.allAsRead, effect]
  | _ => rfl

namespace Action

def isConstant : Action → Bool
  | set _ value => value.isConstant
  | run call => call.isConstant
  | _ => true

theorem perform_asRead {a : Action} (constant : a.isConstant = true) :
    a.asRead.perform w s = a.perform w s := by
  cases a with
  | set name value => rw [asRead, perform, perform, value.eval_asRead constant]
  | run call => rw [asRead, perform, perform, State.effect_asRead constant]
  | _ => rfl

end Action

namespace Script

def isConstant : Script → Bool
  | done => true
  | act a next => a.isConstant && next.isConstant
  | choose c yes no next => c.isConstant && yes.isConstant && no.isConstant && next.isConstant
  | chooseOr c yes d no next =>
    c.isConstant && yes.isConstant && d.isConstant && no.isConstant && next.isConstant
  | each _ items body next => items.isConstant && body.isConstant && next.isConstant

section Constant

variable {a b : Script} {c : Cond}

@[simp] theorem isConstant_append : (a ++ b).isConstant = (a.isConstant && b.isConstant) := by
  induction a <;> simp_all [isConstant, Bool.and_assoc]

@[simp] theorem isConstant_acts (actions : List Action) :
    (acts actions).isConstant = actions.all Action.isConstant := by
  induction actions <;> simp_all [acts, isConstant]

@[simp] theorem isConstant_when : (when c a).isConstant = (c.isConstant && a.isConstant) := by
  simp [when, isConstant]

@[simp] theorem isConstant_forEach {name : String} {items : Term} :
    (forEach name items a).isConstant = (items.isConstant && a.isConstant) := by
  simp [forEach, isConstant]

theorem isConstant_concat {parts : List Script} (each : ∀ part ∈ parts, part.isConstant = true) :
    (concat parts).isConstant = true := by
  induction parts with
  | nil => rfl
  | cons part rest ih =>
    obtain ⟨first, later⟩ := List.forall_mem_cons.mp each
    simp [concat, first, ih later]

end Constant

theorem exec_asRead {program : Script} (constant : program.isConstant = true) :
    program.asRead.exec w = program.exec w := by
  induction program with
  | done => rfl
  | act a next ih =>
    obtain ⟨first, later⟩ := Bool.and_eq_true_iff.mp constant
    funext s
    rw [asRead, exec, exec, a.perform_asRead first, ih later]
  | choose c yes no next yesSame noSame ih =>
    simp only [isConstant, Bool.and_eq_true] at constant
    obtain ⟨⟨⟨condition, first⟩, second⟩, later⟩ := constant
    funext s
    rw [asRead, exec, exec, c.eval_asRead condition, yesSame first, noSame second, ih later]
  | chooseOr c yes d no next yesSame noSame ih =>
    simp only [isConstant, Bool.and_eq_true] at constant
    obtain ⟨⟨⟨⟨condition, first⟩, other⟩, second⟩, later⟩ := constant
    funext s
    rw [asRead, exec, exec, c.eval_asRead condition, d.eval_asRead other, yesSame first,
      noSame second, ih later]
  | each name items body next bodySame ih =>
    simp only [isConstant, Bool.and_eq_true] at constant
    obtain ⟨⟨first, second⟩, later⟩ := constant
    funext s
    rw [asRead, exec, exec, items.eval_asRead first, bodySame second, ih later]

theorem asRead_append (a b : Script) : (a ++ b).asRead = a.asRead ++ b.asRead := by
  induction a <;> simp_all [asRead]

theorem asRead_when (c : Cond) (body : Script) :
    (when c body).asRead = when c.asRead body.asRead := rfl

end Script

end Meaning

end ApiLoom.Template
