import ApiLoom.Proofs.Lines
import ApiLoom.Text.Identifier

/-!
# Directives of a text

The directives that open and close blocks, as they are read in the text of a template, and
texts that bring none of them into it.
-/

namespace ApiLoom.Text

/-! ### Reading -/

inductive Directive where
  | openIf
  | openEach
  | elseIf
  | otherwise
  | close
deriving DecidableEq, Repr

/-- No word goes on behind a word with one of these. -/
def isWordChar (c : Char) : Bool := isLetterOrDigit c || c = '_'

/-- The text starts with the word, which ends there. -/
def startsWithWord (word rest : List Char) : Bool :=
  word.isPrefixOf rest && !(rest.drop word.length).head?.any isWordChar

/-- The directive that is spelled behind a `#`. -/
def directiveAt (rest : List Char) : Option Directive :=
  if "if(".toList.isPrefixOf rest then some .openIf
  else if "foreach(".toList.isPrefixOf rest then some .openEach
  else if "elseif(".toList.isPrefixOf rest then some .elseIf
  else if startsWithWord "else".toList rest || startsWithWord "\x7belse\x7d".toList rest then
    some .otherwise
  else if startsWithWord "end".toList rest || startsWithWord "\x7bend\x7d".toList rest then
    some .close
  else none

/-- The directives from left to right; inside a comment, which ends with its line, there are
none. -/
def directivesFrom (comment : Bool) : List Char → List Directive
  | [] => []
  | c :: rest =>
    if c = '\n' then directivesFrom false rest
    else if comment || c ≠ '#' then directivesFrom comment rest
    else if rest.head? = some '#' then directivesFrom true rest
    else (directiveAt rest).toList ++ directivesFrom false rest

def directives (s : String) : List Directive := directivesFrom false s.toList

/-! ### Nesting -/

inductive Block where
  | choice
  | loop
deriving DecidableEq, Repr

/-- The open blocks after a directive, the innermost first; none where it has no place. -/
def Directive.step (blocks : List Block) : Directive → Option (List Block)
  | openIf => some (.choice :: blocks)
  | openEach => some (.loop :: blocks)
  | elseIf | otherwise => if blocks.head? = some .choice then some blocks else none
  | close => blocks.tail?

def nesting (blocks : List Block) : List Directive → Option (List Block)
  | [] => some blocks
  | d :: rest => (d.step blocks).bind fun inner => nesting inner rest

/-- Every directive has its place, and every block that is opened is closed. -/
def Nests (ds : List Directive) : Prop := nesting [] ds = some []

instance (ds : List Directive) : Decidable (Nests ds) := inferInstanceAs (Decidable (_ = _))

def IsNested (s : String) : Prop := Nests (directives s)

instance (s : String) : Decidable (IsNested s) := inferInstanceAs (Decidable (Nests _))

/-- Within any blocks, the directives leave the same blocks open. -/
def Neutral (ds : List Directive) : Prop := ∀ blocks, nesting blocks ds = some blocks

section Nesting

variable {xs ys : List Directive}

theorem nesting_append (blocks : List Block) (xs ys : List Directive) :
    nesting blocks (xs ++ ys) = (nesting blocks xs).bind fun inner => nesting inner ys := by
  induction xs generalizing blocks with
  | nil => rfl
  | cons d rest ih =>
    rw [List.cons_append, nesting, nesting]
    cases d.step blocks with
    | none => rfl
    | some inner => exact ih inner

namespace Neutral

theorem nil : Neutral [] := fun _ => rfl

theorem append (first : Neutral xs) (second : Neutral ys) : Neutral (xs ++ ys) := by
  intro blocks
  rw [nesting_append, first blocks]
  exact second blocks

theorem choice (inner : Neutral xs) : Neutral (.openIf :: (xs ++ [.close])) := by
  intro blocks
  simp [nesting, Directive.step, nesting_append, inner (.choice :: blocks)]

theorem alternative {d : Directive} (middle : d = .otherwise ∨ d = .elseIf) (first : Neutral xs)
    (second : Neutral ys) : Neutral (.openIf :: (xs ++ d :: (ys ++ [.close]))) := by
  intro blocks
  rcases middle with rfl | rfl <;>
    simp [nesting, Directive.step, nesting_append, first (.choice :: blocks),
      second (.choice :: blocks)]

theorem loop (inner : Neutral xs) : Neutral (.openEach :: (xs ++ [.close])) := by
  intro blocks
  simp [nesting, Directive.step, nesting_append, inner (.loop :: blocks)]

theorem nests (neutral : Neutral xs) : Nests xs := neutral []

end Neutral

theorem nests_append_left (before : Neutral xs) : Nests (xs ++ ys) ↔ Nests ys := by
  rw [Nests, nesting_append, before []]
  rfl

theorem nests_append_right (after : Neutral ys) : Nests (xs ++ ys) ↔ Nests xs := by
  rw [Nests, Nests, nesting_append]
  cases nesting [] xs with
  | none => simp
  | some blocks => simp [after blocks]

end Nesting

/-! ### What ends a word -/

/-- A character that is part of no directive. -/
def isStop (c : Char) : Bool := !isWordChar c && !(['#', '(', '\x7b', '\x7d'].contains c)

theorem isPrefixOf_stop {word : List Char} {c : Char} (apart : c ∉ word) (xs ys : List Char) :
    word.isPrefixOf (xs ++ c :: ys) = word.isPrefixOf xs := by
  rw [Bool.eq_iff_iff, List.isPrefixOf_iff_prefix, List.isPrefixOf_iff_prefix]
  exact ⟨prefix_of_append apart, fun start => start.trans (List.prefix_append _ _)⟩

theorem startsWithWord_stop {word : List Char} {c : Char} (apart : c ∉ word)
    (ends : isWordChar c = false) (xs ys : List Char) :
    startsWithWord word (xs ++ c :: ys) = startsWithWord word xs := by
  rw [startsWithWord, startsWithWord, isPrefixOf_stop apart]
  cases begins : word.isPrefixOf xs with
  | false => rfl
  | true =>
    obtain ⟨rest, rfl⟩ := List.isPrefixOf_iff_prefix.mp begins
    cases rest <;> simp [ends]

section Stops

variable {c : Char}

theorem directiveAt_stop (stop : isStop c = true) (xs ys : List Char) :
    directiveAt (xs ++ c :: ys) = directiveAt xs := by
  simp only [isStop, Bool.and_eq_true, Bool.not_eq_true'] at stop
  obtain ⟨ends, sign⟩ := stop
  have apart {word : List Char}
      (spelled : word.all (fun d => isWordChar d || ['#', '(', '\x7b', '\x7d'].contains d) = true) :
      c ∉ word := by
    intro member
    have found := List.all_eq_true.mp spelled c member
    rw [ends, sign] at found
    cases found
  rw [directiveAt, directiveAt, isPrefixOf_stop (apart (by decide)),
    isPrefixOf_stop (apart (by decide)), isPrefixOf_stop (apart (by decide)),
    startsWithWord_stop (apart (by decide)) ends, startsWithWord_stop (apart (by decide)) ends,
    startsWithWord_stop (apart (by decide)) ends, startsWithWord_stop (apart (by decide)) ends]

/-- Whether the text ends inside a comment. -/
def commentAfter (comment : Bool) : List Char → Bool
  | [] => comment
  | c :: rest =>
    if c = '\n' then commentAfter false rest
    else if comment || c ≠ '#' then commentAfter comment rest
    else commentAfter (rest.head? = some '#') rest

theorem directivesFrom_stop (stop : isStop c = true) (comment : Bool) (xs ys : List Char) :
    directivesFrom comment (xs ++ c :: ys) =
      directivesFrom comment xs ++ directivesFrom (commentAfter comment xs) (c :: ys) := by
  have other : c ≠ '#' := by
    rintro rfl
    cases stop
  have first (rest : List Char) : (rest ++ c :: ys).head? = some '#' ↔ rest.head? = some '#' := by
    cases rest <;> simp [other]
  induction xs generalizing comment with
  | nil => rfl
  | cons d rest ih =>
    rw [List.cons_append, directivesFrom, directivesFrom, commentAfter, directiveAt_stop stop]
    simp only [first]
    split
    · exact ih false
    · split
      · exact ih comment
      · split
        · next marked => simpa [marked] using ih true
        · next unmarked => simp [unmarked, ih false]

end Stops

/-- Each line is read on its own. -/
theorem directivesFrom_joined (lines : List String) :
    directivesFrom false (joined lines) = lines.flatMap directives := by
  induction lines with
  | nil => rfl
  | cons line rest ih =>
    have split : joined (line :: rest) = line.toList ++ '\n' :: joined rest := by
      simp [joined]
    rw [split, directivesFrom_stop (by decide), List.flatMap_cons, ← ih]
    rfl

/-! ### Texts without directives -/

/-- The text has no `#`. -/
def Bare (s : String) : Prop := '#' ∉ s.toList

instance (s : String) : Decidable (Bare s) := inferInstanceAs (Decidable (¬ _))

/-- What starts a directive or a comment behind a `#`. -/
def startsDirective (c : Char) : Bool := ['#', 'i', 'f', 'e', '\x7b'].contains c

def inert : List Char → Bool
  | [] => true
  | c :: rest => (c ≠ '#' || rest.head?.any fun d => !startsDirective d) && inert rest

/-- Wherever the text stands, no directive and no comment starts in it. -/
def Inert (s : String) : Prop := inert s.toList = true

instance (s : String) : Decidable (Inert s) := inferInstanceAs (Decidable (_ = _))

section Inert

variable {s t : String}

@[simp] theorem bare_append : Bare (s ++ t) ↔ Bare s ∧ Bare t := by
  simp [Bare]

theorem Bare.intercalate {sep : String} (between : Bare sep) {parts : List String}
    (each : ∀ s ∈ parts, Bare s) : Bare (String.intercalate sep parts) := by
  induction parts with
  | nil =>
    rw [String.intercalate_nil]
    decide
  | cons s rest ih =>
    have first := each s List.mem_cons_self
    cases rest with
    | nil => simpa using first
    | cons t later =>
      rw [String.intercalate_cons_cons, bare_append, bare_append]
      exact ⟨⟨first, between⟩, ih fun u member => each u (List.mem_cons_of_mem _ member)⟩

theorem inert_of_bare {cs : List Char} (bare : '#' ∉ cs) : inert cs = true := by
  induction cs with
  | nil => rfl
  | cons c rest ih =>
    simp only [List.mem_cons, not_or] at bare
    simp [inert, Ne.symm bare.1, ih bare.2]

theorem Bare.inert (bare : Bare s) : Inert s := inert_of_bare bare

theorem inert_append_list {xs ys : List Char} (first : inert xs = true) (second : inert ys = true) :
    inert (xs ++ ys) = true := by
  induction xs with
  | nil => exact second
  | cons c rest ih =>
    rw [inert, Bool.and_eq_true] at first
    rw [List.cons_append, inert, ih first.2, Bool.and_true]
    cases rest with
    | nil =>
      have other : c ≠ '#' := by simpa using first.1
      simp [other]
    | cons d later => simpa using first.1

@[simp] theorem inert_append (first : Inert s) (second : Inert t) : Inert (s ++ t) := by
  rw [Inert, String.toList_append]
  exact inert_append_list first second

theorem Inert.intercalate {sep : String} (between : Inert sep) {parts : List String}
    (each : ∀ s ∈ parts, Inert s) : Inert (String.intercalate sep parts) := by
  induction parts with
  | nil =>
    rw [String.intercalate_nil]
    decide
  | cons s rest ih =>
    have first := each s List.mem_cons_self
    cases rest with
    | nil => simpa using first
    | cons t later =>
      rw [String.intercalate_cons_cons]
      exact inert_append (inert_append first between)
        (ih fun u member => each u (List.mem_cons_of_mem _ member))

theorem directiveAt_inert {d : Char} (harmless : startsDirective d = false) (rest : List Char) :
    directiveAt (d :: rest) = none := by
  simp only [startsDirective, List.contains_cons, List.contains_nil, Bool.or_eq_false_iff,
    beq_eq_false_iff_ne, ne_eq, Bool.or_false] at harmless
  obtain ⟨_, notIf, notEach, notElse, notBrace⟩ := harmless
  simp [directiveAt, startsWithWord, List.isPrefixOf, Ne.symm notIf, Ne.symm notEach,
    Ne.symm notElse, Ne.symm notBrace]

theorem directivesFrom_inert {xs : List Char} (harmless : inert xs = true) (comment : Bool)
    (ys : List Char) :
    directivesFrom comment (xs ++ ys) = directivesFrom (comment && !xs.contains '\n') ys := by
  induction xs generalizing comment with
  | nil => simp
  | cons c rest ih =>
    rw [inert, Bool.and_eq_true] at harmless
    have later := ih harmless.2
    rw [List.cons_append, directivesFrom]
    by_cases feed : c = '\n'
    · simp [feed, later]
    · by_cases read : (comment || c ≠ '#') = true
      · have other : ('\n' == c) = false := by simpa using Ne.symm feed
        rw [if_neg feed, if_pos read, later, List.contains_cons, other, Bool.false_or]
      · simp only [Bool.or_eq_true, not_or, Bool.not_eq_true, ne_eq, Decidable.not_not,
          decide_eq_true_eq] at read
        obtain ⟨rfl, rfl⟩ := read
        cases rest with
        | nil => simp at harmless
        | cons d others =>
          have next : startsDirective d = false := by simpa using harmless.1
          have unmarked : d ≠ '#' := by
            rintro rfl
            cases next
          have read := later false
          rw [List.cons_append] at read ⊢
          simp [unmarked, directiveAt_inert next, read]

theorem Inert.directives (inert : Inert s) : directives s = [] := by
  have read := directivesFrom_inert inert false []
  rw [List.append_nil] at read
  rw [Text.directives, read]
  rfl

theorem Inert.directives_append (inert : Inert s) (t : String) :
    Text.directives (s ++ t) = Text.directives t := by
  rw [Text.directives, String.toList_append, directivesFrom_inert inert false]
  rfl

/-- A comment without `#` holds no directives, even where it breaks its line. -/
theorem Bare.comment (bare : Bare s) : Text.directives ("## " ++ s) = [] := by
  have read := directivesFrom_inert (inert_append_list (by decide : Text.inert [' '] = true)
    (inert_of_bare bare)) true []
  have blank : "## ".toList = ['#', '#', ' '] := rfl
  rw [Text.directives, String.toList_append, blank]
  simpa [directivesFrom] using read

end Inert

/-! ### Names behind a `#` -/

/-- What a name becomes behind a `#`. -/
def mark (name : String) : List Directive := (directiveAt name.toList).toList

theorem directives_mark {before name : String} {c : Char} {after : List Char}
    (inert : Inert before) (bare : Bare name) (stop : isStop c = true)
    (harmless : Text.inert (c :: after) = true) :
    directivesFrom false (before.toList ++ '#' :: (name.toList ++ c :: after)) = mark name := by
  have rest : directivesFrom false (name.toList ++ c :: after) = [] := by
    have read := directivesFrom_inert (inert_append_list (inert_of_bare bare) harmless) false []
    rw [List.append_nil] at read
    rw [read]
    rfl
  have first : (name.toList ++ c :: after).head? ≠ some '#' := by
    cases spelled : name.toList with
    | nil =>
      rintro same
      obtain rfl := Option.some.inj same
      cases stop
    | cons d others =>
      intro same
      obtain rfl := Option.some.inj same
      exact bare (spelled ▸ List.mem_cons_self)
  rw [directivesFrom_inert inert false, Bool.false_and, directivesFrom, if_neg (by decide),
    if_neg (by decide), if_neg first, directiveAt_stop stop, rest, List.append_nil, mark]

theorem withoutLastFeed_eq (cs : List Char) :
    cs = withoutLastFeed cs ∨ cs = withoutLastFeed cs ++ ['\n'] := by
  unfold withoutLastFeed
  split
  · next last found =>
    obtain ⟨lead, rfl⟩ := List.getLast?_eq_some_iff.mp found
    split
    · next feed => simp [feed]
    · exact .inl rfl
  · exact .inl rfl

theorem isWordChar_of_isIdentifier {s : String} (identifier : isIdentifier s = true) :
    ∀ c ∈ withoutLastFeed s.toList, isWordChar c = true := by
  unfold isIdentifier hasForm at identifier
  split at identifier
  · cases identifier
  · next first rest form =>
    simp only [Bool.and_eq_true, List.all_eq_true] at identifier
    rw [form]
    refine List.forall_mem_cons.mpr ⟨?_, identifier.2⟩
    have letter := identifier.1
    simp only [Bool.or_eq_true] at letter
    rcases letter with letter | underscore
    · simp [isWordChar, isLetterOrDigit, letter]
    · simp [isWordChar, of_decide_eq_true underscore]

section Words

variable {word cs : List Char}

theorem isPrefixOf_of_notMem {c : Char} (part : c ∈ word) (absent : c ∉ cs) :
    word.isPrefixOf cs = false := by
  rw [Bool.eq_false_iff]
  intro start
  exact absent ((List.isPrefixOf_iff_prefix.mp start).subset part)

theorem startsWithWord_of_isWordChar (words : ∀ c ∈ cs, isWordChar c = true) :
    startsWithWord word cs = decide (cs = word) := by
  cases begins : word.isPrefixOf cs with
  | false =>
    have other : cs ≠ word := by
      rintro rfl
      simp [List.isPrefixOf_iff_prefix.mpr (List.prefix_refl cs)] at begins
    simp [startsWithWord, begins, other]
  | true =>
    obtain ⟨rest, rfl⟩ := List.isPrefixOf_iff_prefix.mp begins
    cases rest with
    | nil => simp [startsWithWord]
    | cons c later =>
      have next : isWordChar c = true := words c (by simp)
      simp [startsWithWord, next]

/-- Behind a `#`, a word is a directive only as a whole. -/
theorem directiveAt_of_isWordChar (words : ∀ c ∈ cs, isWordChar c = true) :
    directiveAt cs = if cs = "else".toList then some .otherwise
      else if cs = "end".toList then some .close else none := by
  have sign {c : Char} (other : isWordChar c = false) : c ∉ cs := by
    intro member
    rw [words c member] at other
    cases other
  have bracket : '(' ∉ cs := sign (by decide)
  have brace : '\x7b' ∉ cs := sign (by decide)
  have bare : cs ≠ "\x7belse\x7d".toList ∧ cs ≠ "\x7bend\x7d".toList := by
    constructor <;> rintro rfl <;> exact brace (by decide)
  rw [directiveAt, isPrefixOf_of_notMem (by decide) bracket,
    isPrefixOf_of_notMem (by decide) bracket, isPrefixOf_of_notMem (by decide) bracket,
    startsWithWord_of_isWordChar words, startsWithWord_of_isWordChar words,
    startsWithWord_of_isWordChar words, startsWithWord_of_isWordChar words,
    decide_eq_false bare.1, decide_eq_false bare.2]
  simp

end Words

/-- An identifier closes a block where it is called `end`; a line feed behind it is overlooked. -/
theorem mark_of_isIdentifier {name : String} (identifier : isIdentifier name = true) :
    if name = "end" ∨ name = "end\n" then mark name = [.close]
    else mark name = [] ∨ mark name = [.otherwise] := by
  have words := isWordChar_of_isIdentifier identifier
  have read : directiveAt name.toList = directiveAt (withoutLastFeed name.toList) := by
    rcases withoutLastFeed_eq name.toList with same | same
    · rw [← same]
    · have cut := directiveAt_stop (by decide : isStop '\n' = true)
        (withoutLastFeed name.toList) []
      rwa [← same] at cut
  rw [mark, read]
  split
  · next called =>
    rcases called with rfl | rfl <;> decide
  · next called =>
    have other : withoutLastFeed name.toList ≠ "end".toList := by
      intro spelled
      have whole := withoutLastFeed_eq name.toList
      rw [spelled] at whole
      rcases whole with whole | whole
      · exact called (.inl (String.toList_inj.mp whole))
      · exact called (.inr (String.toList_inj.mp whole))
    rw [directiveAt_of_isWordChar words, if_neg other]
    split
    · exact .inr rfl
    · exact .inl rfl

end ApiLoom.Text
