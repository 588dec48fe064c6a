import ApiLoom.Proofs.Lines
import ApiLoom.Template.Script

/-!
# Lexemes

How the text of a directive falls into lexemes.  A name reaches as far as its characters do; behind
a dollar sign it is a reference, behind a dot a member.  A run of operator characters is one
operator, and a text stands between quotes, in which no character has a second meaning but the
dollar sign.  Blanks only part lexemes from each other.  The text of a term falls into the lexemes
that its shape gives, whatever stands behind it.
-/

namespace ApiLoom

namespace Text

def isVariableChar (c : Char) : Bool := isLetterOrDigit c || c = '_'

/-- The characters of a name that references can have. -/
def isVariable : List Char → Bool
  | [] => false
  | c :: rest => (isLetter c || c = '_') && rest.all isVariableChar

/-- Printable, and within quotes it stands for itself or begins a reference. -/
def isLiteralChar (c : Char) : Bool := 32 ≤ c.toNat && c.toNat ≤ 126 && !"\"\\#".toList.contains c

/-- Within quotes it stands for itself. -/
def isPlainChar (c : Char) : Bool := isLiteralChar c && c ≠ '$'

/-- The text is within one line. -/
def isUnbroken (s : String) : Bool := s.toList.all fun c => c ≠ '\n' && c ≠ '\r'

theorem isVariable_all {cs : List Char} (named : isVariable cs = true) :
    ∀ c ∈ cs, isVariableChar c = true := by
  cases cs with
  | nil => simp
  | cons c rest =>
    simp only [isVariable, Bool.and_eq_true, List.all_eq_true] at named
    refine List.forall_mem_cons.mpr ⟨?_, named.2⟩
    have first := named.1
    simp only [isVariableChar, isLetterOrDigit, Bool.or_eq_true] at first ⊢
    exact first.imp_left .inl

theorem isPlainChar_of_isVariableChar {c : Char} (named : isVariableChar c = true) :
    isPlainChar c = true := by
  have small : c.toNat < 128 := by
    simp only [isVariableChar, isLetterOrDigit, isLetter, isUpperLetter, Bool.or_eq_true,
      Bool.and_eq_true, decide_eq_true_eq] at named
    rcases named with ((⟨_, upper⟩ | ⟨_, upper⟩) | ⟨_, upper⟩) | rfl
    all_goals first | exact Nat.lt_of_le_of_lt upper (by decide) | decide
  have all : ∀ n < 128, isVariableChar (Char.ofNat n) = true →
      isPlainChar (Char.ofNat n) = true := by decide
  rw [← Char.ofNat_toNat c] at named ⊢
  exact all _ small named

theorem isLiteral_of_plain {cs : List Char} (plain : cs.all isPlainChar = true) :
    cs.all isLiteralChar = true :=
  List.all_eq_true.mpr fun c member =>
    (Bool.and_eq_true_iff.mp (List.all_eq_true.mp plain c member)).1

theorem dollar_notMem_of_plain {cs : List Char} (plain : cs.all isPlainChar = true) : '$' ∉ cs :=
  fun member => absurd (List.all_eq_true.mp plain _ member) (by decide)

theorem isPlain_of_isVariable {cs : List Char} (named : isVariable cs = true) :
    cs.all isPlainChar = true :=
  List.all_eq_true.mpr fun c member =>
    isPlainChar_of_isVariableChar (isVariable_all named c member)

theorem isUnbroken_of_literal {s : String} (literal : s.toList.all isLiteralChar = true) :
    isUnbroken s = true := by
  refine List.all_eq_true.mpr fun c member => ?_
  have clean := List.all_eq_true.mp literal c member
  have feed : c ≠ '\n' := by
    rintro rfl
    exact absurd clean (by decide)
  have back : c ≠ '\r' := by
    rintro rfl
    exact absurd clean (by decide)
  simp [feed, back]

@[simp] theorem isUnbroken_append (s t : String) :
    isUnbroken (s ++ t) = (isUnbroken s && isUnbroken t) := by
  simp [isUnbroken]

theorem isUnbroken_commas {parts : List String}
    (plain : ∀ part ∈ parts, part.toList.all isPlainChar = true) :
    isUnbroken (String.intercalate ", " parts) = true := by
  induction parts with
  | nil => decide
  | cons part rest ih =>
    obtain ⟨first, later⟩ := List.forall_mem_cons.mp plain
    have whole := isUnbroken_of_literal (isLiteral_of_plain first)
    cases rest with
    | nil => simpa using whole
    | cons next others =>
      rw [String.intercalate_cons_cons, isUnbroken_append, isUnbroken_append, whole,
        ih later]
      decide

theorem isUnbroken_int (n : Int) : isUnbroken (toString n) = true := by
  refine List.all_eq_true.mpr fun c member => ?_
  have feed : c ≠ '\n' := by
    rintro rfl
    exact absurd (mem_int member) (by decide)
  have back : c ≠ '\r' := by
    rintro rfl
    exact absurd (mem_int member) (by decide)
  simp [feed, back]

theorem isUnbroken_of_isVariable {name : String} (named : isVariable name.toList = true) :
    isUnbroken name = true :=
  isUnbroken_of_literal (isLiteral_of_plain (isPlain_of_isVariable named))

theorem encodeChar_literal {c : Char} (literal : isLiteralChar c = true) :
    Quoted.encodeChar c = [c] := by
  have small : c.toNat < 128 := by
    simp only [isLiteralChar, Bool.and_eq_true, decide_eq_true_eq] at literal
    omega
  have all : ∀ n < 128, isLiteralChar (Char.ofNat n) = true →
      Quoted.encodeChar (Char.ofNat n) = [Char.ofNat n] := by decide
  rw [← Char.ofNat_toNat c] at literal ⊢
  exact all _ small literal

/-- A text without characters that have to be escaped is quoted as it is. -/
theorem quote_literal {s : String} (literal : s.toList.all isLiteralChar = true) :
    quote s = "\"" ++ s ++ "\"" := by
  have written : s.toList.flatMap Quoted.encodeChar = s.toList := by
    generalize s.toList = cs at literal
    induction cs with
    | nil => rfl
    | cons c rest ih =>
      obtain ⟨first, later⟩ := Bool.and_eq_true_iff.mp literal
      rw [List.flatMap_cons, encodeChar_literal first, ih later, List.singleton_append]
  apply String.toList_inj.mp
  simp [quote, Quoted.encode, written]

end Text

namespace Template

/-! ### Scanning -/

inductive Lexeme where
  | word (name : String)
  | reference (name : String)
  | member (name : String)
  | operator (signs : String)
  | literal (text : String)
  | sign (c : Char)
  /-- A name without characters, a text without an end, or a character that is in no text. -/
  | broken
deriving DecidableEq, Repr

def Lexeme.isOperator : Lexeme → Bool
  | operator _ => true
  | _ => false

def isOperatorChar (c : Char) : Bool := "=!&|".toList.contains c

/-- What has been seen of the lexeme one is in. -/
inductive Scan where
  | between
  | name (kind : String → Lexeme) (seen : List Char)
  | operator (seen : List Char)
  | literal (seen : List Char)

namespace Scan

def close : Scan → List Lexeme
  | between => []
  | name kind seen => [if Text.isVariable seen then kind (String.ofList seen) else .broken]
  | operator seen => [.operator (String.ofList seen)]
  | literal _ => [.broken]

def start (c : Char) : List Lexeme × Scan :=
  if c = ' ' then ([], between)
  else if c = '"' then ([], literal [])
  else if c = '$' then ([], name .reference [])
  else if c = '.' then ([], name .member [])
  else if Text.isVariableChar c then ([], name .word [c])
  else if isOperatorChar c then ([], operator [c])
  else ([.sign c], between)

/-- The lexemes that a character completes, and what it is the next character of. -/
def step (scan : Scan) (c : Char) : List Lexeme × Scan :=
  match scan with
  | between => start c
  | name kind seen =>
    if Text.isVariableChar c then ([], name kind (seen ++ [c]))
    else (scan.close ++ (start c).1, (start c).2)
  | operator seen =>
    if isOperatorChar c then ([], operator (seen ++ [c]))
    else (scan.close ++ (start c).1, (start c).2)
  | literal seen =>
    if c = '"' then ([.literal (String.ofList seen)], between)
    else if Text.isLiteralChar c then ([], literal (seen ++ [c]))
    else ([.broken], between)

end Scan

def lexemesFrom (scan : Scan) : List Char → List Lexeme
  | [] => scan.close
  | c :: rest => (scan.step c).1 ++ lexemesFrom (scan.step c).2 rest

/-- The lexemes of a text. -/
def lexemes (cs : List Char) : List Lexeme := lexemesFrom .between cs

/-- No name goes on here. -/
def NameEnds (cs : List Char) : Prop := ∀ c ∈ cs.head?, Text.isVariableChar c = false

section Lexemes

variable {rest : List Char}

theorem NameEnds.nil : NameEnds [] := by simp [NameEnds]

theorem NameEnds.cons {c : Char} (outside : Text.isVariableChar c = false) :
    NameEnds (c :: rest) := by
  simpa [NameEnds] using outside

theorem lexemesFrom_name (kind : String → Lexeme) {cs : List Char}
    (name : ∀ c ∈ cs, Text.isVariableChar c = true) (ends : NameEnds rest) (seen : List Char) :
    lexemesFrom (.name kind seen) (cs ++ rest) =
      (Scan.name kind (seen ++ cs)).close ++ lexemes rest := by
  induction cs generalizing seen with
  | nil =>
    rw [List.nil_append, List.append_nil, lexemes]
    cases rest with
    | nil => simp [lexemesFrom, Scan.close]
    | cons c others =>
      have outside : Text.isVariableChar c = false := ends c rfl
      simp [lexemesFrom, Scan.step, outside]
  | cons c others ih =>
    obtain ⟨first, later⟩ := List.forall_mem_cons.mp name
    rw [List.cons_append, lexemesFrom, Scan.step, if_pos first, ih later]
    simp

theorem lexemes_reference {name : String} (named : Text.isVariable name.toList = true)
    (ends : NameEnds rest) :
    lexemes ('$' :: (name.toList ++ rest)) = .reference name :: lexemes rest := by
  have begun : lexemes ('$' :: (name.toList ++ rest)) =
      lexemesFrom (.name .reference []) (name.toList ++ rest) := rfl
  rw [begun, lexemesFrom_name _ (Text.isVariable_all named) ends]
  simp [Scan.close, named]

theorem lexemes_member {name : String} (named : Text.isVariable name.toList = true)
    (ends : NameEnds rest) :
    lexemes ('.' :: (name.toList ++ rest)) = .member name :: lexemes rest := by
  have begun : lexemes ('.' :: (name.toList ++ rest)) =
      lexemesFrom (.name .member []) (name.toList ++ rest) := rfl
  rw [begun, lexemesFrom_name _ (Text.isVariable_all named) ends]
  simp [Scan.close, named]

theorem lexemes_word {name : String} (named : Text.isVariable name.toList = true)
    (ends : NameEnds rest) : lexemes (name.toList ++ rest) = .word name :: lexemes rest := by
  cases letters : name.toList with
  | nil => simp [letters, Text.isVariable] at named
  | cons c others =>
    have inside := Text.isVariable_all named
    rw [letters] at inside
    obtain ⟨first, later⟩ := List.forall_mem_cons.mp inside
    have started : Scan.start c = ([], .name .word [c]) := by
      have apart (d : Char) (outside : Text.isVariableChar d = false) : c ≠ d := by
        rintro rfl
        exact absurd first (by simp [outside])
      simp [Scan.start, first, apart ' ' (by decide), apart '"' (by decide),
        apart '$' (by decide), apart '.' (by decide)]
    rw [List.cons_append, lexemes, lexemesFrom, Scan.step, started, List.nil_append,
      lexemesFrom_name _ later ends, List.singleton_append, ← letters]
    simp [Scan.close, named]

theorem lexemes_literal {text : String} (literal : text.toList.all Text.isLiteralChar = true) :
    lexemes ('"' :: (text.toList ++ '"' :: rest)) = .literal text :: lexemes rest := by
  have within : ∀ cs seen, cs.all Text.isLiteralChar = true →
      lexemesFrom (.literal seen) (cs ++ '"' :: rest) =
        .literal (String.ofList (seen ++ cs)) :: lexemes rest := by
    intro cs
    induction cs with
    | nil => intro seen _; simp [lexemesFrom, Scan.step, lexemes]
    | cons c others ih =>
      intro seen clean
      obtain ⟨first, later⟩ := Bool.and_eq_true_iff.mp clean
      have inside : c ≠ '"' := by
        rintro rfl
        exact absurd first (by decide)
      rw [List.cons_append, lexemesFrom, Scan.step, if_neg inside, if_pos first, ih _ later]
      simp
  have begun : lexemes ('"' :: (text.toList ++ '"' :: rest)) =
      lexemesFrom (.literal []) (text.toList ++ '"' :: rest) := rfl
  rw [begun, within _ _ literal]
  simp

theorem lexemes_operator {signs : String} (filled : signs ≠ "")
    (run : signs.toList.all isOperatorChar = true) :
    lexemes (' ' :: (signs.toList ++ ' ' :: rest)) = .operator signs :: lexemes rest := by
  have within : ∀ cs seen, cs.all isOperatorChar = true →
      lexemesFrom (.operator seen) (cs ++ ' ' :: rest) =
        .operator (String.ofList (seen ++ cs)) :: lexemes rest := by
    intro cs
    induction cs with
    | nil => intro seen _; rw [List.append_nil]; rfl
    | cons c others ih =>
      intro seen clean
      obtain ⟨first, later⟩ := Bool.and_eq_true_iff.mp clean
      rw [List.cons_append, lexemesFrom, Scan.step, if_pos first, ih _ later]
      simp
  cases letters : signs.toList with
  | nil => exact absurd (String.toList_inj.mp (by simpa using letters)) filled
  | cons c others =>
    rw [letters] at run
    obtain ⟨first, later⟩ := Bool.and_eq_true_iff.mp run
    have started : lexemes (' ' :: (c :: others ++ ' ' :: rest)) =
        lexemesFrom (.operator [c]) (others ++ ' ' :: rest) := by
      have which : c = '=' ∨ c = '!' ∨ c = '&' ∨ c = '|' := by
        simpa [isOperatorChar] using first
      rcases which with rfl | rfl | rfl | rfl <;> rfl
    rw [started, within _ _ later, List.singleton_append, ← letters, String.ofList_toList]

end Lexemes

/-! ### Lexemes of terms -/

namespace Term

mutual

def lexemes : Term → List Lexeme
  | var name => [.reference name]
  | member of name => of.lexemes ++ [.member name]
  | item of key => of.lexemes ++ .sign '[' :: (key.lexemes ++ [.sign ']'])
  | call of method arguments =>
    of.lexemes ++ .member method :: .sign '(' :: ((furtherLexemes arguments).tail ++ [.sign ')'])
  | quoted text | plain text => [.literal text]
  | truth b => [.word (if b then "true" else "false")]
  | list items => .sign '[' :: ((furtherLexemes items).tail ++ [.sign ']'])
  | _ => [.broken]

/-- Each term behind a comma. -/
def furtherLexemes : List Term → List Lexeme
  | [] => []
  | t :: rest => .sign ',' :: (t.lexemes ++ furtherLexemes rest)

end

mutual

/-- The term is of those that are read, and its names and texts are of characters that stand for
themselves. -/
def isLegible : Term → Bool
  | var name => Text.isVariable name.toList
  | member of name => of.isLegible && Text.isVariable name.toList
  | item of key => of.isLegible && key.isLegible
  | call of method arguments =>
    of.isLegible && Text.isVariable method.toList && areLegible arguments
  | quoted text | plain text => text.toList.all Text.isLiteralChar
  | truth _ => true
  | list items => areLegible items
  | _ => false

def areLegible : List Term → Bool
  | [] => true
  | t :: rest => t.isLegible && areLegible rest

end

mutual

theorem lexemes_text : (t : Term) → t.isLegible = true → ∀ {rest : List Char}, NameEnds rest →
    Template.lexemes (t.text.toList ++ rest) = t.lexemes ++ Template.lexemes rest
  | .var name, legible, rest, ends => by
    have chars : (Term.var name).text.toList ++ rest = '$' :: (name.toList ++ rest) := by
      simp [Term.text]
    rw [chars, lexemes_reference legible ends]
    rfl
  | .member of name, legible, rest, ends => by
    obtain ⟨first, named⟩ := Bool.and_eq_true_iff.mp legible
    have chars : (Term.member of name).text.toList ++ rest =
        of.text.toList ++ '.' :: (name.toList ++ rest) := by
      simp [Term.text]
    rw [chars, lexemes_text of first (.cons (by decide)), lexemes_member named ends]
    simp [Term.lexemes]
  | .item of key, legible, rest, ends => by
    obtain ⟨first, second⟩ := Bool.and_eq_true_iff.mp legible
    have chars : (Term.item of key).text.toList ++ rest =
        of.text.toList ++ '[' :: (key.text.toList ++ ']' :: rest) := by
      simp [Term.text]
    have opened (cs : List Char) :
        Template.lexemes ('[' :: cs) = .sign '[' :: Template.lexemes cs := rfl
    have closed : Template.lexemes (']' :: rest) = .sign ']' :: Template.lexemes rest := rfl
    rw [chars, lexemes_text of first (.cons (by decide)), opened,
      lexemes_text key second (.cons (by decide)), closed]
    simp [Term.lexemes]
  | .call of method arguments, legible, rest, ends => by
    obtain ⟨lead, given⟩ := Bool.and_eq_true_iff.mp legible
    obtain ⟨first, named⟩ := Bool.and_eq_true_iff.mp lead
    have chars : (Term.call of method arguments).text.toList ++ rest =
        of.text.toList ++ '.' :: (method.toList ++ '(' ::
          ((String.intercalate ", " (Term.texts arguments)).toList ++ ')' :: rest)) := by
      simp [Term.text]
    have opened (cs : List Char) :
        Template.lexemes ('(' :: cs) = .sign '(' :: Template.lexemes cs := rfl
    have closed : Template.lexemes (')' :: rest) = .sign ')' :: Template.lexemes rest := rfl
    rw [chars, lexemes_text of first (.cons (by decide)),
      lexemes_member named (.cons (by decide)), opened,
      lexemes_texts arguments given (.cons (by decide)), closed]
    simp [Term.lexemes]
  | .quoted text, legible, rest, ends => by
    have chars : (Term.quoted text).text.toList ++ rest = '"' :: (text.toList ++ '"' :: rest) := by
      simp [Term.text, Text.quote_literal legible]
    rw [chars, lexemes_literal legible]
    rfl
  | .plain text, legible, rest, ends => by
    have chars : (Term.plain text).text.toList ++ rest = '"' :: (text.toList ++ '"' :: rest) := by
      simp [Term.text]
    rw [chars, lexemes_literal legible]
    rfl
  | .truth true, _, rest, ends => lexemes_word (by decide) ends
  | .truth false, _, rest, ends => lexemes_word (by decide) ends
  | .list items, legible, rest, ends => by
    have chars : (Term.list items).text.toList ++ rest =
        '[' :: ((String.intercalate ", " (Term.texts items)).toList ++ ']' :: rest) := by
      simp [Term.text]
    have opened (cs : List Char) :
        Template.lexemes ('[' :: cs) = .sign '[' :: Template.lexemes cs := rfl
    have closed : Template.lexemes (']' :: rest) = .sign ']' :: Template.lexemes rest := rfl
    rw [chars, opened, lexemes_texts items legible (.cons (by decide)), closed]
    simp [Term.lexemes]
  | .verbatim _, legible, _, _ | .number _, legible, _, _ | .null, legible, _, _
  | .emptyMap, legible, _, _ | .entry _ _, legible, _, _ | .sum _ _, legible, _, _
  | .negated _, legible, _, _ => by simp [Term.isLegible] at legible

theorem lexemes_texts : (ts : List Term) → areLegible ts = true → ∀ {rest : List Char},
    NameEnds rest → Template.lexemes ((String.intercalate ", " (Term.texts ts)).toList ++ rest) =
      (furtherLexemes ts).tail ++ Template.lexemes rest
  | [], _, rest, _ => by simp [Term.texts, furtherLexemes]
  | [t], legible, rest, ends => by
    obtain ⟨first, _⟩ := Bool.and_eq_true_iff.mp legible
    simp [Term.texts, furtherLexemes, lexemes_text t first ends]
  | t :: next :: others, legible, rest, ends => by
    obtain ⟨first, later⟩ := Bool.and_eq_true_iff.mp legible
    have chars : (String.intercalate ", " (Term.texts (t :: next :: others))).toList ++ rest =
        t.text.toList ++ ',' :: ' ' ::
          ((String.intercalate ", " (Term.texts (next :: others))).toList ++ rest) := by
      simp [Term.texts, String.intercalate_cons_cons]
    have parted (cs : List Char) :
        Template.lexemes (',' :: ' ' :: cs) = .sign ',' :: Template.lexemes cs := rfl
    rw [chars, lexemes_text t first (.cons (by decide)), parted,
      lexemes_texts (next :: others) later ends]
    simp [furtherLexemes]

end

/-- The term is written from a dollar sign on. -/
def isReference : Term → Bool
  | var _ => true
  | member of _ | item of _ | call of _ _ => of.isReference
  | _ => false

theorem text_reference : (t : Term) → t.isReference = true → ∃ rest, t.text.toList = '$' :: rest
  | .var name, _ => ⟨name.toList, by simp [text]⟩
  | .member of _, reference | .item of _, reference | .call of _ _, reference => by
    obtain ⟨rest, chars⟩ := text_reference of reference
    exact ⟨rest ++ _, by simp [text, chars]; rfl⟩

end Term

/-! ### Lexemes of conditions -/

namespace Cond

def equalityLexemes (subject : Term) (text : String) : List Lexeme :=
  subject.lexemes ++ [.operator "==", .literal text]

def lexemes : Cond → List Lexeme
  | holds t => t.lexemes
  | fails t => .operator "!" :: t.lexemes
  | compare left how right => left.lexemes ++ .operator how.sign :: right.lexemes
  | oneOf subject texts => [.operator "||"].intercalate (texts.map (equalityLexemes subject))
  | both first second => first.lexemes ++ .operator "&&" :: second.lexemes

/-- The condition is of those that stand alone or in a conjunction, and it is legible. -/
def isAtom : Cond → Bool
  | holds t | fails t => t.isLegible && t.isReference
  | compare left how right =>
    (how = .equal || how = .different) && left.isLegible && (right.isLegible && right.isReference)
  | _ => false

def isConjunction : Cond → Bool
  | both first second => first.isAtom && second.isConjunction
  | c => c.isAtom

/-- A choice between no texts is written as nothing. -/
def isLegible : Cond → Bool
  | oneOf (.var name) texts =>
    Text.isVariable name.toList && !texts.isEmpty &&
      texts.all fun s => s.toList.all Text.isPlainChar
  | c => c.isConjunction

section Lexemes

variable {rest : List Char}

theorem lexemes_atom {c : Cond} (atom : c.isAtom = true) (ends : NameEnds rest) :
    Template.lexemes (c.text.toList ++ rest) = c.lexemes ++ Template.lexemes rest := by
  cases c with
  | holds t => exact t.lexemes_text (Bool.and_eq_true_iff.mp atom).1 ends
  | fails t =>
    obtain ⟨legible, reference⟩ := Bool.and_eq_true_iff.mp atom
    obtain ⟨letters, begins⟩ := t.text_reference reference
    have chars : (Cond.fails t).text.toList ++ rest = '!' :: (t.text.toList ++ rest) := by
      simp [text]
    have negated : Template.lexemes ('!' :: (t.text.toList ++ rest)) =
        .operator "!" :: Template.lexemes (t.text.toList ++ rest) := by
      rw [begins]
      rfl
    rw [chars, negated, t.lexemes_text legible ends]
    rfl
  | compare left how right =>
    obtain ⟨lead, last⟩ := Bool.and_eq_true_iff.mp atom
    obtain ⟨kind, first⟩ := Bool.and_eq_true_iff.mp lead
    obtain ⟨second, _⟩ := Bool.and_eq_true_iff.mp last
    have chars : (Cond.compare left how right).text.toList ++ rest =
        left.text.toList ++ ' ' :: (how.sign.toList ++ ' ' :: (right.text.toList ++ rest)) := by
      simp [text]
    have compared : Template.lexemes (' ' :: (how.sign.toList ++ ' ' ::
        (right.text.toList ++ rest))) =
          .operator how.sign :: Template.lexemes (right.text.toList ++ rest) := by
      cases how with
      | equal | different => exact lexemes_operator (by decide) (by decide)
      | above | below | atLeast => exact absurd kind (by decide)
    rw [chars, left.lexemes_text first (.cons (by decide)), compared,
      right.lexemes_text second ends]
    simp [lexemes]
  | oneOf subject texts => exact absurd atom (by simp [isAtom])
  | both first second => exact absurd atom (by simp [isAtom])

theorem lexemes_conjunction {c : Cond} (conjunction : c.isConjunction = true)
    (ends : NameEnds rest) :
    Template.lexemes (c.text.toList ++ rest) = c.lexemes ++ Template.lexemes rest := by
  induction c with
  | both first second _ ih =>
    obtain ⟨atom, later⟩ := Bool.and_eq_true_iff.mp conjunction
    have chars : (Cond.both first second).text.toList ++ rest =
        first.text.toList ++ ' ' :: ("&&".toList ++ ' ' :: (second.text.toList ++ rest)) := by
      simp [text]
    rw [chars, lexemes_atom atom (.cons (by decide)), lexemes_operator (by decide) (by decide),
      ih later]
    simp [lexemes]
  | holds _ | fails _ | compare _ _ _ | oneOf _ _ => exact lexemes_atom conjunction ends

theorem lexemes_choice {name : String} (named : Text.isVariable name.toList = true) :
    (texts : List String) → texts ≠ [] →
      (texts.all fun s => s.toList.all Text.isPlainChar) = true →
      Template.lexemes ((Cond.oneOf (.var name) texts).text.toList ++ rest) =
        (Cond.oneOf (.var name) texts).lexemes ++ Template.lexemes rest
  | [], filled, _ => absurd rfl filled
  | s :: others, _, plain => by
    obtain ⟨first, later⟩ := Bool.and_eq_true_iff.mp plain
    have literal := Text.isLiteral_of_plain first
    have equality (behind : List Char) :
        Template.lexemes (((Term.var name).text ++ " == " ++ Text.quote s).toList ++ behind) =
          equalityLexemes (.var name) s ++ Template.lexemes behind := by
      have chars : ((Term.var name).text ++ " == " ++ Text.quote s).toList ++ behind =
          (Term.var name).text.toList ++ ' ' :: ("==".toList ++ ' ' :: ('"' :: (s.toList ++
            '"' :: behind))) := by
        simp [Text.quote_literal literal]
      rw [chars, (Term.var name).lexemes_text named (.cons (by decide)),
        lexemes_operator (by decide) (by decide), lexemes_literal literal]
      simp [equalityLexemes]
    cases others with
    | nil => simpa [text, lexemes] using equality rest
    | cons t more =>
      have further := lexemes_choice named (t :: more) (List.cons_ne_nil _ _) later
      have chars : (Cond.oneOf (.var name) (s :: t :: more)).text.toList ++ rest =
          ((Term.var name).text ++ " == " ++ Text.quote s).toList ++ ' ' :: ("||".toList ++ ' ' ::
            ((Cond.oneOf (.var name) (t :: more)).text.toList ++ rest)) := by
        simp [text, String.intercalate_cons_cons]
      rw [chars, equality, lexemes_operator (by decide) (by decide), further]
      simp [lexemes, List.intercalate_cons_cons]

theorem lexemes_text {c : Cond} (legible : c.isLegible = true) (ends : NameEnds rest) :
    Template.lexemes (c.text.toList ++ rest) = c.lexemes ++ Template.lexemes rest := by
  unfold isLegible at legible
  split at legible
  · next name texts =>
    obtain ⟨lead, plain⟩ := Bool.and_eq_true_iff.mp legible
    obtain ⟨named, filled⟩ := Bool.and_eq_true_iff.mp lead
    exact lexemes_choice named texts (by simpa using filled) plain
  · exact lexemes_conjunction legible ends

end Lexemes

end Cond

end Template

end ApiLoom
