import ApiLoom.Proofs.Lexemes

/-!
# Expressions

The terms and conditions that lexemes stand for.  A term is read from left to right, with what is
begun and not ended yet in a stack.  A condition is a choice between texts or a conjunction, and
each part of it is a term, a negated term or a comparison.  What a term or condition is written
as is read as the same term or condition, but that every text between quotes is one in which
references are replaced.
-/

namespace ApiLoom.Template

/-! ### Terms -/

inductive Opening where
  | call (of : Term) (method : String)
  | list

namespace Opening

def term : Opening → List Term → Term
  | call of method, arguments => .call of method arguments
  | list, items => .list items

def closer : Opening → Char
  | call .. => ')'
  | list => ']'

end Opening

/-- What is begun and not ended yet. -/
inductive Frame where
  | key (of : Term)
  | several (opened : Opening) (before : List Term)

/-- The frames one is in, and the term that was read in the innermost. -/
abbrev Reading := List Frame × Option Term

namespace Reading

def sign (c : Char) (reading : Reading) : Option Reading :=
  match c, reading with
  | '[', (frames, none) => some (.several .list [] :: frames, none)
  | '[', (frames, some t) => some (.key t :: frames, none)
  | '(', (frames, some (.member of method)) => some (.several (.call of method) [] :: frames, none)
  | ',', (.several opened before :: frames, some t) =>
    some (.several opened (before ++ [t]) :: frames, none)
  | ']', (.key of :: frames, some key) => some (frames, some (.item of key))
  | c, (.several opened before :: frames, some t) =>
    if c = opened.closer then some (frames, some (opened.term (before ++ [t]))) else none
  | c, (.several opened [] :: frames, none) =>
    if c = opened.closer then some (frames, some (opened.term [])) else none
  | _, _ => none

def step (reading : Reading) (lexeme : Lexeme) : Option Reading :=
  match lexeme, reading with
  | .reference name, (frames, none) => some (frames, some (.var name))
  | .member name, (frames, some t) => some (frames, some (.member t name))
  | .literal text, (frames, none) => some (frames, some (.plain text))
  | .word name, (frames, none) =>
    if name = "true" then some (frames, some (.truth true))
    else if name = "false" then some (frames, some (.truth false))
    else none
  | .sign c, reading => reading.sign c
  | _, _ => none

end Reading

namespace Term

def read (lexemes : List Lexeme) : Option Term :=
  match lexemes.foldlM Reading.step ([], none) with
  | some ([], some t) => some t
  | _ => none

mutual

/-- The term with references replaced in all its texts. -/
def asRead : Term → Term
  | quoted text => plain text
  | member of name => member of.asRead name
  | item of key => item of.asRead key.asRead
  | call of method arguments => call of.asRead method (allAsRead arguments)
  | list items => list (allAsRead items)
  | entry key value => entry key.asRead value.asRead
  | sum left right => sum left.asRead right.asRead
  | negated t => negated t.asRead
  | t => t

def allAsRead : List Term → List Term
  | [] => []
  | t :: rest => t.asRead :: allAsRead rest

end

mutual

theorem foldlM_lexemes : (t : Term) → t.isLegible = true → ∀ frames : List Frame,
    t.lexemes.foldlM Reading.step (frames, none) = some (frames, some t.asRead)
  | .var _, _, _ => rfl
  | .member of name, legible, frames => by
    obtain ⟨first, _⟩ := Bool.and_eq_true_iff.mp legible
    rw [Term.lexemes, List.foldlM_append, foldlM_lexemes of first]
    rfl
  | .item of key, legible, frames => by
    obtain ⟨first, second⟩ := Bool.and_eq_true_iff.mp legible
    have opened : Reading.step (frames, some of.asRead) (.sign '[') =
        some (.key of.asRead :: frames, none) := rfl
    rw [Term.lexemes, List.foldlM_append, foldlM_lexemes of first, Option.bind_eq_bind,
      Option.bind_some, List.foldlM_cons, opened, Option.bind_eq_bind, Option.bind_some,
      List.foldlM_append, foldlM_lexemes key second]
    rfl
  | .call of method arguments, legible, frames => by
    obtain ⟨lead, given⟩ := Bool.and_eq_true_iff.mp legible
    obtain ⟨first, _⟩ := Bool.and_eq_true_iff.mp lead
    have opened (ls : List Lexeme) :
        (Lexeme.member method :: .sign '(' :: ls).foldlM Reading.step (frames, some of.asRead) =
          ls.foldlM Reading.step (.several (.call of.asRead method) [] :: frames, none) := rfl
    rw [Term.lexemes, List.foldlM_append, foldlM_lexemes of first, Option.bind_eq_bind,
      Option.bind_some, opened]
    exact foldlM_several arguments given (.call of.asRead method) [] (.inl rfl) frames
  | .quoted _, _, _ | .plain _, _, _ | .truth true, _, _ | .truth false, _, _ => rfl
  | .list items, legible, frames => by
    have opened (ls : List Lexeme) :
        (Lexeme.sign '[' :: ls).foldlM Reading.step (frames, none) =
          ls.foldlM Reading.step (.several .list [] :: frames, none) := rfl
    rw [Term.lexemes, opened]
    exact foldlM_several items legible .list [] (.inl rfl) frames
  | .verbatim _, legible, _ | .number _, legible, _ | .null, legible, _ | .emptyMap, legible, _
  | .entry _ _, legible, _ | .sum _ _, legible, _ | .negated _, legible, _ => by
    simp [Term.isLegible] at legible

/-- Terms are read up to the sign that ends them; there is one behind each comma. -/
theorem foldlM_several : (ts : List Term) → areLegible ts = true → ∀ (opened : Opening)
    (before : List Term), before = [] ∨ ts ≠ [] → ∀ frames : List Frame,
    ((furtherLexemes ts).tail ++ [Lexeme.sign opened.closer]).foldlM Reading.step
      (.several opened before :: frames, none) =
        some (frames, some (opened.term (before ++ allAsRead ts)))
  | [], _, opened, _, begun, frames => by
    obtain rfl := begun.resolve_right fun filled => filled rfl
    cases opened <;> rfl
  | [t], legible, opened, before, _, frames => by
    obtain ⟨first, _⟩ := Bool.and_eq_true_iff.mp legible
    rw [furtherLexemes, furtherLexemes, List.append_nil, List.tail_cons, List.foldlM_append,
      foldlM_lexemes t first]
    cases opened <;> rfl
  | t :: next :: others, legible, opened, before, _, frames => by
    obtain ⟨first, later⟩ := Bool.and_eq_true_iff.mp legible
    have parted : Reading.step (.several opened before :: frames, some t.asRead) (.sign ',') =
        some (.several opened (before ++ [t.asRead]) :: frames, none) := rfl
    have rest := foldlM_several (next :: others) later opened (before ++ [t.asRead])
      (.inr (List.cons_ne_nil _ _)) frames
    rw [furtherLexemes, furtherLexemes, List.tail_cons, List.append_assoc, List.foldlM_append,
      foldlM_lexemes t first, Option.bind_eq_bind, Option.bind_some, List.cons_append,
      List.foldlM_cons, parted, Option.bind_eq_bind, Option.bind_some]
    simpa [furtherLexemes, allAsRead] using rest

end

theorem read_lexemes {t : Term} (legible : t.isLegible = true) :
    read t.lexemes = some t.asRead := by
  rw [read, foldlM_lexemes t legible]

mutual

theorem lexemes_plain : (t : Term) → ∀ l ∈ t.lexemes, l.isOperator = false
  | .var _ | .quoted _ | .plain _ | .truth _ | .verbatim _ | .number _ | .null | .emptyMap
  | .entry _ _ | .sum _ _ | .negated _ => by simp [Term.lexemes, Lexeme.isOperator]
  | .member of _ => by
    simpa [Term.lexemes, or_imp, forall_and, Lexeme.isOperator] using lexemes_plain of
  | .item of key => by
    simpa [Term.lexemes, or_imp, forall_and, Lexeme.isOperator] using
      ⟨lexemes_plain of, lexemes_plain key⟩
  | .call of _ arguments => by
    have given := fun l member => furtherLexemes_plain arguments l (List.mem_of_mem_tail member)
    simpa [Term.lexemes, or_imp, forall_and, Lexeme.isOperator] using ⟨lexemes_plain of, given⟩
  | .list items => by
    have given := fun l member => furtherLexemes_plain items l (List.mem_of_mem_tail member)
    simpa [Term.lexemes, or_imp, forall_and, Lexeme.isOperator] using given

theorem furtherLexemes_plain : (ts : List Term) → ∀ l ∈ furtherLexemes ts, l.isOperator = false
  | [] => by simp [furtherLexemes]
  | t :: rest => by
    simpa [furtherLexemes, or_imp, forall_and, Lexeme.isOperator] using
      ⟨lexemes_plain t, furtherLexemes_plain rest⟩

end

/-- A reference ends in a name or a bracket. -/
theorem lexemes_reference_last {t : Term} (reference : t.isReference = true) :
    ∃ lead last, t.lexemes = lead ++ [last] ∧ ∀ text, last ≠ .literal text := by
  cases t with
  | var name => exact ⟨[], _, rfl, by simp⟩
  | member of name => exact ⟨of.lexemes, _, rfl, by simp⟩
  | item of key =>
    exact ⟨of.lexemes ++ .sign '[' :: key.lexemes, .sign ']', by simp [lexemes], by simp⟩
  | call of method arguments =>
    exact ⟨of.lexemes ++ .member method :: .sign '(' :: (furtherLexemes arguments).tail, .sign ')',
      by simp [lexemes], by simp⟩
  | _ => simp [isReference] at reference

end Term

/-! ### Conditions -/

namespace Cond

/-- A variable and the text that it is compared with. -/
def equality : List Lexeme → Option (String × String)
  | [.reference name, .operator signs, .literal text] =>
    if signs = "==" ∧ '$' ∉ text.toList then some (name, text) else none
  | _ => none

def comparison (signs : String) (left right : Term) : Option Cond :=
  if signs = "==" then some (.compare left .equal right)
  else if signs = "!=" then some (.compare left .different right)
  else none

def atom (lexemes : List Lexeme) : Option Cond :=
  match lexemes.takeWhile (!·.isOperator), lexemes.dropWhile (!·.isOperator) with
  | left, [] => (Term.read left).map .holds
  | [], .operator signs :: right => if signs = "!" then (Term.read right).map .fails else none
  | left, .operator signs :: right => do comparison signs (← Term.read left) (← Term.read right)
  | _, _ => none

def allOf : List Cond → Option Cond
  | [] => none
  | [c] => some c
  | c :: rest => (allOf rest).map (.both c)

def conjunction (lexemes : List Lexeme) : Option Cond :=
  ((lexemes.splitOn (.operator "&&")).mapM atom).bind allOf

def choice : List (String × String) → Option Cond
  | [] => none
  | (name, text) :: others =>
    if others.all (·.1 = name) then some (.oneOf (.var name) (text :: others.map Prod.snd))
    else none

def read (lexemes : List Lexeme) : Option Cond :=
  match (lexemes.splitOn (.operator "||")).mapM equality with
  | some equalities => choice equalities
  | none => conjunction lexemes

/-- The condition with references replaced in all texts of its terms. -/
def asRead : Cond → Cond
  | holds t => holds t.asRead
  | fails t => fails t.asRead
  | compare left how right => compare left.asRead how right.asRead
  | oneOf subject texts => oneOf subject.asRead texts
  | both first second => both first.asRead second.asRead

theorem atom_lexemes {c : Cond} (legible : c.isAtom = true) : atom c.lexemes = some c.asRead := by
  have plain (t : Term) : ∀ l ∈ t.lexemes, (!l.isOperator) = true := by simpa using t.lexemes_plain
  cases c with
  | holds t =>
    rw [atom, lexemes, ← List.append_nil t.lexemes, List.takeWhile_append_of_pos (plain t),
      List.dropWhile_append_of_pos (plain t), List.takeWhile_nil, List.append_nil,
      List.dropWhile_nil]
    have found := Term.read_lexemes (Bool.and_eq_true_iff.mp legible).1
    cases letters : t.lexemes <;> simp [← letters, found, asRead]
  | fails t =>
    have stops : (!(Lexeme.operator "!").isOperator) = false := rfl
    rw [atom, lexemes, List.takeWhile_cons_of_neg (by simp [stops]),
      List.dropWhile_cons_of_neg (by simp [stops])]
    simp [Term.read_lexemes (Bool.and_eq_true_iff.mp legible).1, asRead]
  | compare left how right =>
    obtain ⟨lead, last⟩ := Bool.and_eq_true_iff.mp legible
    obtain ⟨kind, first⟩ := Bool.and_eq_true_iff.mp lead
    obtain ⟨second, _⟩ := Bool.and_eq_true_iff.mp last
    have stops : (!(Lexeme.operator how.sign).isOperator) = false := rfl
    rw [atom, lexemes, List.takeWhile_append_of_pos (plain left),
      List.dropWhile_append_of_pos (plain left), List.takeWhile_cons_of_neg (by simp [stops]),
      List.dropWhile_cons_of_neg (by simp [stops]), List.append_nil]
    have found := Term.read_lexemes first
    cases letters : left.lexemes with
    | nil =>
      rw [letters] at found
      cases found
    | cons l others =>
      simp only [← letters, found, Term.read_lexemes second, Option.bind_eq_bind, Option.bind_some]
      cases how with
      | equal | different => rfl
      | above | below | atLeast => exact absurd kind (by decide)
  | oneOf subject texts => exact absurd legible (by simp [isAtom])
  | both first second => exact absurd legible (by simp [isAtom])

theorem mem_operator_atom {c : Cond} (legible : c.isAtom = true) {signs : String}
    (member : .operator signs ∈ c.lexemes) : signs = "!" ∨ signs = "==" ∨ signs = "!=" := by
  have outside (t : Term) : .operator signs ∉ t.lexemes := fun listed =>
    absurd (t.lexemes_plain _ listed) (by simp [Lexeme.isOperator])
  cases c with
  | holds t => exact absurd member (outside t)
  | fails t => exact .inl (by simpa [lexemes, outside t] using member)
  | compare left how right =>
    have same : signs = how.sign := by
      simpa [lexemes, outside left, outside right] using member
    rw [same]
    cases how with
    | equal | different => decide
    | above | below | atLeast => simp [isAtom] at legible
  | oneOf subject texts => exact absurd legible (by simp [isAtom])
  | both first second => exact absurd legible (by simp [isAtom])

theorem or_notMem_conjunction {c : Cond} (legible : c.isConjunction = true) :
    .operator "||" ∉ c.lexemes := by
  induction c with
  | both first second _ ih =>
    obtain ⟨atom, later⟩ := Bool.and_eq_true_iff.mp legible
    have lead : .operator "||" ∉ first.lexemes := fun listed =>
      absurd (mem_operator_atom atom listed) (by decide)
    simp [lexemes, lead, ih later]
  | holds _ | fails _ | compare _ _ _ | oneOf _ _ =>
    exact fun listed => absurd (mem_operator_atom legible listed) (by decide)

theorem equality_eq_some {ls : List Lexeme} {p : String × String} (read : equality ls = some p) :
    ls = [.reference p.1, .operator "==", .literal p.2] := by
  unfold equality at read
  split at read
  · split at read
    · next same =>
      obtain rfl := Option.some.inj read
      rw [same.1]
    · cases read
  · cases read

theorem equality_conjunction {c : Cond} (legible : c.isConjunction = true) :
    equality c.lexemes = none := by
  rcases found : equality c.lexemes with _ | p
  · rfl
  have whole := equality_eq_some found
  have outside (t : Term) : .operator "==" ∉ t.lexemes := fun listed =>
    absurd (t.lexemes_plain _ listed) (by simp [Lexeme.isOperator])
  cases c with
  | holds t =>
    rw [lexemes] at whole
    exact absurd (whole ▸ by simp) (outside t)
  | fails t => simp [lexemes] at whole
  | compare left how right =>
    obtain ⟨_, last⟩ := Bool.and_eq_true_iff.mp legible
    obtain ⟨lead, l, ends, apart⟩ :=
      Term.lexemes_reference_last (Bool.and_eq_true_iff.mp last).2
    have final := congrArg List.getLast? whole
    rw [lexemes, ends, ← List.cons_append, ← List.append_assoc, List.getLast?_concat] at final
    exact absurd (Option.some.inj final) (apart _)
  | oneOf subject texts => simp [isConjunction, isAtom] at legible
  | both first second =>
    have listed : Lexeme.operator "&&" ∈ (Cond.both first second).lexemes := by simp [lexemes]
    simp [whole] at listed

theorem conjunction_lexemes {c : Cond} (legible : c.isConjunction = true) :
    conjunction c.lexemes = some c.asRead := by
  have apart {c : Cond} (legible : c.isAtom = true) :
      ∀ l ∈ c.lexemes, (l == Lexeme.operator "&&") = false := fun l listed => by
    refine beq_false_of_ne ?_
    rintro rfl
    exact absurd (mem_operator_atom legible listed) (by decide)
  have single {c : Cond} (legible : c.isAtom = true) :
      conjunction c.lexemes = some c.asRead := by
    rw [conjunction, List.splitOn_eq_singleton_of_beq_eq_false (apart legible)]
    simp [atom_lexemes legible, allOf]
  induction c with
  | both first second _ ih =>
    obtain ⟨atomic, later⟩ := Bool.and_eq_true_iff.mp legible
    obtain ⟨rest, parts, joined⟩ := Option.bind_eq_some_iff.mp (ih later)
    rw [conjunction, lexemes, List.splitOn_eq_splitOnP,
      List.splitOnP_append_cons_of_forall_mem (apart atomic) _ (beq_self_eq_true _),
      ← List.splitOn_eq_splitOnP, List.mapM_cons, atom_lexemes atomic, parts]
    cases rest with
    | nil => cases joined
    | cons d others => simp [allOf, joined, asRead]
  | holds _ | fails _ | compare _ _ _ | oneOf _ _ => exact single legible

theorem choice_lexemes (name : String) {texts : List String} (filled : texts ≠ [])
    (plain : (texts.all fun s => s.toList.all Text.isPlainChar) = true) :
    read (Cond.oneOf (.var name) texts).lexemes = some (.oneOf (.var name) texts) := by
  have parts : (Cond.oneOf (.var name) texts).lexemes.splitOn (.operator "||") =
      texts.map (equalityLexemes (.var name)) := by
    refine List.splitOn_intercalate _ ?_ (by simpa using filled)
    simp [equalityLexemes, Term.lexemes]
  have each : ∀ s ∈ texts, equality (equalityLexemes (.var name) s) = some (name, s) := by
    intro s member
    have clean := Text.dollar_notMem_of_plain (List.all_eq_true.mp plain s member)
    simp [equalityLexemes, Term.lexemes, equality, clean]
  have equalities : (texts.map (equalityLexemes (.var name))).mapM equality =
      some (texts.map fun s => (name, s)) := by
    clear parts plain filled
    induction texts with
    | nil => rfl
    | cons s others ih =>
      obtain ⟨first, later⟩ := List.forall_mem_cons.mp each
      simp [first, ih later]
  rw [read, parts, equalities]
  cases texts with
  | nil => exact absurd rfl filled
  | cons s others => simp [choice, Function.comp_def]

theorem read_lexemes {c : Cond} (legible : c.isLegible = true) :
    read c.lexemes = some c.asRead := by
  unfold isLegible at legible
  split at legible
  · obtain ⟨lead, plain⟩ := Bool.and_eq_true_iff.mp legible
    exact choice_lexemes _ (by simpa using (Bool.and_eq_true_iff.mp lead).2) plain
  · have whole : c.lexemes.splitOn (.operator "||") = [c.lexemes] := by
      refine List.splitOn_eq_singleton_of_beq_eq_false fun l listed => beq_false_of_ne ?_
      rintro rfl
      exact or_notMem_conjunction legible listed
    rw [read, whole]
    simpa [equality_conjunction legible] using conjunction_lexemes legible

end Cond

end ApiLoom.Template
