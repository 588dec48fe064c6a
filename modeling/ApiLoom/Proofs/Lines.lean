import ApiLoom.Text.Identifier
import ApiLoom.Text.Quoted
import Mathlib.Data.List.Infix

/-!
# Lines of texts

How often a line stands in a text, and texts in which no reference begins a line.  Such a
text may hold line breaks; put together with others of its kind it still adds no line that
begins with a reference.
-/

namespace ApiLoom.Text

/-! ### Beginnings of lines -/

/-- Whether only blanks stand in the last line; `fresh` says it of the line that the text is
written into. -/
def freshAfter (fresh : Bool) : List Char → Bool
  | [] => fresh
  | c :: rest => freshAfter (c = '\n' || fresh && c = ' ') rest

/-- No line begins with a reference, blanks apart. -/
def calmFrom (fresh : Bool) : List Char → Bool
  | [] => true
  | c :: rest => !(fresh && c = '$') && calmFrom (c = '\n' || fresh && c = ' ') rest

theorem freshAfter_append (fresh : Bool) (xs ys : List Char) :
    freshAfter fresh (xs ++ ys) = freshAfter (freshAfter fresh xs) ys := by
  induction xs generalizing fresh with
  | nil => rfl
  | cons c rest ih => exact ih _

theorem calmFrom_append (fresh : Bool) (xs ys : List Char) :
    calmFrom fresh (xs ++ ys) = (calmFrom fresh xs && calmFrom (freshAfter fresh xs) ys) := by
  induction xs generalizing fresh with
  | nil => rfl
  | cons c rest ih => rw [List.cons_append, calmFrom, ih, calmFrom, freshAfter, Bool.and_assoc]

theorem freshAfter_mono {cs : List Char} (fresh : Bool) (after : freshAfter fresh cs = true) :
    freshAfter true cs = true := by
  cases fresh with
  | true => exact after
  | false =>
    induction cs with
    | nil => cases after
    | cons c rest ih =>
      rw [freshAfter] at after ⊢
      by_cases feed : c = '\n'
      · simpa [feed] using after
      · by_cases blank : c = ' '
        · simp only [blank, Bool.true_and, decide_true, Bool.or_true]
          exact ih (by simpa [blank] using after)
        · simpa [feed, blank] using after

theorem calmFrom_mono {cs : List Char} (fresh : Bool) (calm : calmFrom true cs = true) :
    calmFrom fresh cs = true := by
  cases fresh with
  | true => exact calm
  | false =>
    induction cs with
    | nil => rfl
    | cons c rest ih =>
      rw [calmFrom, Bool.and_eq_true] at calm ⊢
      refine ⟨by simp, ?_⟩
      by_cases feed : c = '\n'
      · simpa [feed] using calm.2
      · by_cases blank : c = ' '
        · simp only [blank, Bool.false_and, Bool.or_false]
          exact ih (by simpa [feed, blank] using calm.2)
        · simpa [feed, blank] using calm.2

/-- Written into a line that is `fresh` or not, no line of the text begins with a reference, and
the text ends in a line that is fresh only if `after` says so. -/
structure Runs (fresh after : Bool) (s : String) : Prop where
  calm : calmFrom fresh s.toList = true
  ends : freshAfter fresh s.toList = true → after = true

/-- No line of the text begins with a reference, its first line apart. -/
abbrev Calm (s : String) : Prop := Runs false true s

instance (fresh after : Bool) (s : String) : Decidable (Runs fresh after s) :=
  decidable_of_iff
    (calmFrom fresh s.toList = true ∧ (freshAfter fresh s.toList = true → after = true))
    ⟨fun h => ⟨h.1, h.2⟩, fun h => ⟨h.calm, h.ends⟩⟩

namespace Runs

variable {fresh between after : Bool} {s t : String}

theorem append (first : Runs fresh between s) (second : Runs between after t) :
    Runs fresh after (s ++ t) := by
  have calm := second.calm
  have ends := second.ends
  constructor
  · rw [String.toList_append, calmFrom_append, first.calm, Bool.true_and]
    cases reached : freshAfter fresh s.toList with
    | true => rwa [first.ends reached] at calm
    | false =>
      cases between with
      | true => exact calmFrom_mono false calm
      | false => exact calm
  · intro last
    rw [String.toList_append, freshAfter_append] at last
    cases reached : freshAfter fresh s.toList with
    | true =>
      rw [first.ends reached] at ends
      exact ends (reached ▸ last)
    | false =>
      cases between with
      | true => exact ends (freshAfter_mono _ last)
      | false => exact ends (reached ▸ last)

theorem anywhere (runs : Runs true after s) (fresh : Bool) : Runs fresh after s :=
  ⟨calmFrom_mono fresh runs.calm, fun last => runs.ends (freshAfter_mono fresh last)⟩

theorem toCalm (runs : Runs fresh after s) : Calm s := by
  cases fresh with
  | true => exact ⟨calmFrom_mono false runs.calm, fun _ => rfl⟩
  | false => exact ⟨runs.calm, fun _ => rfl⟩

/-- Where a text starts with neither a reference nor a blank, it does not matter what it is written
into. -/
theorem within {c : Char} {rest : List Char} (calm : Calm s) (starts : s.toList = c :: rest)
    (refers : c ≠ '$') (filled : c ≠ ' ') : Runs fresh true s := by
  have runs := calm.calm
  rw [starts, calmFrom] at runs
  refine ⟨?_, fun _ => rfl⟩
  rw [starts, calmFrom]
  simpa [refers, filled] using runs

/-- A text without references. -/
theorem plain (plain : '$' ∉ s.toList) : Runs fresh true s := by
  refine ⟨?_, fun _ => rfl⟩
  generalize s.toList = cs at plain
  induction cs generalizing fresh with
  | nil => rfl
  | cons c rest ih =>
    simp only [List.mem_cons, not_or] at plain
    simp [calmFrom, Ne.symm plain.1, ih plain.2]

/-- A text within one line. -/
theorem unbroken (whole : '\n' ∉ s.toList) : Runs false false s := by
  have kept : ∀ cs : List Char, '\n' ∉ cs →
      calmFrom false cs = true ∧ freshAfter false cs = false := by
    intro cs
    induction cs with
    | nil => exact fun _ => ⟨rfl, rfl⟩
    | cons c rest ih =>
      intro whole
      simp only [List.mem_cons, not_or] at whole
      simp [calmFrom, freshAfter, Ne.symm whole.1, ih whole.2]
  obtain ⟨calm, ends⟩ := kept _ whole
  exact ⟨calm, fun last => by rw [ends] at last; cases last⟩

theorem intercalate {sep : String} (between : Runs true false sep) {parts : List String}
    (each : ∀ s ∈ parts, Calm s) : Calm (String.intercalate sep parts) := by
  induction parts with
  | nil =>
    rw [String.intercalate_nil]
    exact .plain (by decide)
  | cons s rest ih =>
    have first := each s List.mem_cons_self
    cases rest with
    | nil => simpa using first
    | cons t later =>
      rw [String.intercalate_cons_cons]
      have others := ih fun u member => each u (List.mem_cons_of_mem _ member)
      exact (first.append between).append others

end Runs

/-! ### How often a line stands in a text -/

/-- The places behind blanks only at which the needle begins. -/
def startsFrom (needle : List Char) (fresh : Bool) : List Char → Nat
  | [] => 0
  | c :: rest =>
    (if fresh && needle.isPrefixOf (c :: rest) then 1 else 0) +
      startsFrom needle (c = '\n' || fresh && c = ' ') rest

/-- How often a line of the text is this one, blanks before it apart. -/
def lineCount (line text : String) : Nat := startsFrom (line.toList ++ ['\n']) true text.toList

def dropBlanks (line : String) : List Char := line.toList.dropWhile (· = ' ')

section Counting

variable {needle : List Char}

theorem startsFrom_calm {cs : List Char} (fresh : Bool) (refers : needle.head? = some '$')
    (calm : calmFrom fresh cs = true) (later : List Char) :
    startsFrom needle fresh (cs ++ later) = startsFrom needle (freshAfter fresh cs) later := by
  induction cs generalizing fresh with
  | nil => rfl
  | cons c rest ih =>
    rw [calmFrom, Bool.and_eq_true] at calm
    obtain ⟨tail, rfl⟩ := List.head?_eq_some_iff.mp refers
    have apart : (fresh && ('$' :: tail).isPrefixOf (c :: (rest ++ later))) = false := by
      cases fresh with
      | false => rfl
      | true =>
        have other : c ≠ '$' := by simpa using calm.1
        simp [List.isPrefixOf, other.symm]
    rw [List.cons_append, startsFrom, apart, ih _ calm.2, freshAfter]
    exact Nat.zero_add _

/-- The needle begins in a line at its start or nowhere. -/
theorem startsFrom_line {line : String} (calm : Calm line) (refers : needle.head? = some '$')
    (later : List Char) :
    startsFrom needle true (line.toList ++ '\n' :: later) =
      (if needle.isPrefixOf (dropBlanks line ++ '\n' :: later) then 1 else 0) +
        startsFrom needle true later := by
  obtain ⟨tail, rfl⟩ := List.head?_eq_some_iff.mp refers
  have calm := calm.calm
  rw [dropBlanks]
  generalize line.toList = cs at calm
  induction cs with
  | nil =>
    simp [startsFrom, List.isPrefixOf]
  | cons c rest ih =>
    rw [calmFrom, Bool.and_eq_true] at calm
    by_cases blank : c = ' '
    · have inner : calmFrom false rest = true := by simpa [blank] using calm.2
      have apart : ('$' :: tail).isPrefixOf (c :: (rest ++ '\n' :: later)) = false := by
        simp [List.isPrefixOf, blank]
      have dropped : (c :: rest).dropWhile (· = ' ') = rest.dropWhile (· = ' ') :=
        List.dropWhile_cons_of_pos (by simp [blank])
      rw [List.cons_append, startsFrom, apart, dropped, ← ih inner]
      simp [blank]
    · have kept : (c :: rest).dropWhile (· = ' ') = c :: rest :=
        List.dropWhile_cons_of_neg (by simp [blank])
      have inner : calmFrom (decide (c = '\n')) rest = true := by simpa [blank] using calm.2
      have next : startsFrom ('$' :: tail) (decide (c = '\n')) (rest ++ '\n' :: later) =
          startsFrom ('$' :: tail) true later := by
        have feed : rest ++ '\n' :: later = (rest ++ ['\n']) ++ later := by simp
        have whole : calmFrom (decide (c = '\n')) (rest ++ ['\n']) = true := by
          rw [calmFrom_append, inner]
          simp [calmFrom]
        rw [feed, startsFrom_calm _ refers whole, freshAfter_append]
        rfl
      rw [kept, List.cons_append, startsFrom, ← next]
      simp [blank]

theorem prefix_of_append {xs ys : List Char} {c : Char} {later : List Char} (apart : c ∉ xs)
    (start : xs <+: ys ++ c :: later) : xs <+: ys := by
  induction xs generalizing ys with
  | nil => exact List.nil_prefix
  | cons x rest ih =>
    simp only [List.mem_cons, not_or] at apart
    cases ys with
    | nil => exact absurd (List.cons_prefix_cons.mp start).1.symm apart.1
    | cons y others =>
      obtain ⟨rfl, tail⟩ := List.cons_prefix_cons.mp start
      exact List.cons_prefix_cons.mpr ⟨rfl, ih apart.2 tail⟩

/-- How a line starts that writes into the input of a request. -/
def inputWrite : String := "$util.qr($ctx.args.input.put("

def WritesInput (line : String) : Prop := inputWrite.toList <+: dropBlanks line

instance (line : String) : Decidable (WritesInput line) :=
  inferInstanceAs (Decidable (_ <+: _))

/-- A line that holds no other line that begins with a reference, and does not write into the
input. -/
structure Quiet (line : String) : Prop where
  calm : Calm line
  silent : ¬ WritesInput line

theorem Quiet.of_runs {line : String} {after : Bool} (runs : Runs true after line) :
    Quiet line := by
  refine ⟨runs.toCalm, fun writes => ?_⟩
  have calm := runs.calm
  rw [WritesInput, dropBlanks] at writes
  generalize line.toList = cs at calm writes
  induction cs with
  | nil => simp [inputWrite] at writes
  | cons c rest ih =>
    rw [calmFrom, Bool.and_eq_true] at calm
    by_cases blank : c = ' '
    · rw [List.dropWhile_cons_of_pos (by simp [blank])] at writes
      exact ih (by simpa [blank] using calm.2) writes
    · rw [List.dropWhile_cons_of_neg (by simp [blank])] at writes
      have dollar := (List.cons_prefix_cons.mp (show '$' :: _ <+: c :: rest from writes)).1
      simp [← dollar] at calm

/-- The text of some lines. -/
def joined (lines : List String) : List Char := lines.flatMap fun line => line.toList ++ ['\n']

variable {line : String}

theorem startsFrom_quiet (writes : inputWrite.toList <+: line.toList) {lines : List String}
    (quiet : ∀ l ∈ lines, Quiet l) (later : List Char) :
    startsFrom (line.toList ++ ['\n']) true (joined lines ++ later) =
      startsFrom (line.toList ++ ['\n']) true later := by
  have refers : (line.toList ++ ['\n']).head? = some '$' := by
    obtain ⟨rest, same⟩ := writes
    rw [← same]
    rfl
  induction lines with
  | nil => rfl
  | cons l rest ih =>
    obtain ⟨calm, silent⟩ := quiet l List.mem_cons_self
    have apart : ¬ (line.toList ++ ['\n']).isPrefixOf
        (dropBlanks l ++ '\n' :: (joined rest ++ later)) = true := by
      intro begins
      have start := writes.trans
        ((List.prefix_append _ _).trans (List.isPrefixOf_iff_prefix.mp begins))
      exact silent (prefix_of_append (by decide) start)
    have split : joined (l :: rest) ++ later = l.toList ++ '\n' :: (joined rest ++ later) := by
      simp [joined]
    rw [split, startsFrom_line calm refers, if_neg apart, Nat.zero_add]
    exact ih fun k member => quiet k (List.mem_cons_of_mem _ member)

theorem startsFrom_self (writes : inputWrite.toList <+: line.toList) (calm : Calm line)
    (later : List Char) :
    startsFrom (line.toList ++ ['\n']) true (line.toList ++ '\n' :: later) =
      1 + startsFrom (line.toList ++ ['\n']) true later := by
  obtain ⟨rest, same⟩ := writes
  have dollar : line.toList = '$' :: (inputWrite.toList.tail ++ rest) := same.symm
  have refers : (line.toList ++ ['\n']).head? = some '$' := by
    rw [dollar]
    rfl
  have unindented : dropBlanks line = line.toList := by
    rw [dropBlanks, dollar]
    exact List.dropWhile_cons_of_neg (by decide)
  have begins : (line.toList ++ ['\n']).isPrefixOf (dropBlanks line ++ '\n' :: later) = true := by
    rw [unindented, List.isPrefixOf_iff_prefix]
    exact ⟨later, by simp⟩
  rw [startsFrom_line calm refers, if_pos begins]

end Counting

/-! ### Lines within lines -/

/-- The line stands in the text between two line breaks. -/
def HasLine (line text : String) : Prop :=
  ∃ above below, text.toList = above ++ '\n' :: (line.toList ++ '\n' :: below)

namespace HasLine

variable {line s t : String}

theorem filled (held : HasLine line s) : s ≠ "" := by
  rintro rfl
  obtain ⟨above, below, same⟩ := held
  simp at same

theorem before (s : String) (held : HasLine line t) : HasLine line (s ++ t) := by
  obtain ⟨above, below, same⟩ := held
  exact ⟨s.toList ++ above, below, by rw [String.toList_append, same, List.append_assoc]⟩

theorem behind (held : HasLine line s) (t : String) : HasLine line (s ++ t) := by
  obtain ⟨above, below, same⟩ := held
  exact ⟨above, below ++ t.toList, by simp [same]⟩

end HasLine

theorem startsFrom_pos {needle : List Char} (filled : needle ≠ []) (fresh : Bool)
    (above below : List Char) :
    0 < startsFrom needle fresh (above ++ '\n' :: (needle ++ below)) := by
  induction above generalizing fresh with
  | nil =>
    cases needle with
    | nil => exact absurd rfl filled
    | cons c rest =>
      have begins : (c :: rest).isPrefixOf (c :: (rest ++ below)) = true := by
        rw [List.isPrefixOf_iff_prefix]
        exact List.prefix_append _ _
      simp only [List.nil_append, List.cons_append, startsFrom, begins, decide_true, Bool.true_or,
        Bool.true_and, if_true]
      omega
  | cons c rest ih =>
    rw [List.cons_append, startsFrom]
    exact Nat.lt_of_lt_of_le (ih _) (Nat.le_add_left _ _)

theorem startsFrom_hasLine {line l : String} {lines : List String} (member : l ∈ lines)
    (held : HasLine line l) : 0 < startsFrom (line.toList ++ ['\n']) true (joined lines) := by
  obtain ⟨first, last, rfl⟩ := List.append_of_mem member
  obtain ⟨above, below, same⟩ := held
  have whole : joined (first ++ l :: last) = joined first ++ above ++
      '\n' :: (line.toList ++ ['\n'] ++ (below ++ '\n' :: joined last)) := by
    simp [joined, same]
  rw [whole]
  exact startsFrom_pos (by simp) true _ _

/-! ### Written values -/

/-- A quoted text has the printable characters of the text, and those of escapes. -/
theorem mem_quote {s : String} {c : Char} (member : c ∈ (quote s).toList) :
    c ∈ s.toList ∧ 32 ≤ c.toNat ∨ c = '"' ∨ c = '\\' ∨ isLetterOrDigit c = true := by
  have digit (n : Nat) : isLetterOrDigit (Quoted.hexDigit (n % 16)) = true := by
    have small : ∀ k < 16, isLetterOrDigit (Quoted.hexDigit k) = true := by decide
    exact small _ (Nat.mod_lt _ (by decide))
  have unit {n : Nat} (listed : c ∈ Quoted.unitEscape n) :
      c = '"' ∨ c = '\\' ∨ isLetterOrDigit c = true := by
    simp only [Quoted.unitEscape, List.mem_cons, List.not_mem_nil, or_false] at listed
    rcases listed with rfl | rfl | rfl | rfl | rfl | rfl
    · exact .inr (.inl rfl)
    · exact .inr (.inr (by decide))
    all_goals exact .inr (.inr (digit _))
  have written {d : Char} (listed : c ∈ Quoted.encodeChar d) :
      c = d ∧ 32 ≤ c.toNat ∨ c = '"' ∨ c = '\\' ∨ isLetterOrDigit c = true := by
    unfold Quoted.encodeChar at listed
    split at listed
    · next e short =>
      have sign : e = '"' ∨ e = '\\' ∨ isLetterOrDigit e = true := by
        unfold Quoted.shortEscape at short
        repeat' split at short
        all_goals cases short <;> decide
      rcases List.mem_cons.mp listed with rfl | last
      · exact .inr (.inr (.inl rfl))
      · obtain rfl := List.mem_singleton.mp last
        exact .inr sign
    · dsimp only at listed
      split at listed
      · next printable =>
        obtain rfl := List.mem_singleton.mp listed
        exact .inl ⟨rfl, printable.1⟩
      · split at listed
        · exact .inr (unit listed)
        · rcases List.mem_append.mp listed with listed | listed <;> exact .inr (unit listed)
  rw [quote, String.toList_ofList, Quoted.encode] at member
  simp only [List.cons_append, List.mem_cons, List.mem_append, List.mem_flatMap, List.not_mem_nil,
    or_false] at member
  rcases member with quotation | ⟨d, listed, escaped⟩ | quotation
  · exact .inr (.inl quotation)
  · rcases written escaped with ⟨rfl, printable⟩ | other
    · exact .inl ⟨listed, printable⟩
    · exact .inr other
  · exact .inr (.inl quotation)

theorem mem_int {n : Int} {c : Char} (member : c ∈ (toString n).toList) :
    c.isDigit = true ∨ c = '-' := by
  have natural {n : Nat} (listed : c ∈ (toString n).toList) : c.isDigit = true := by
    have digits : (toString n).toList = Nat.toDigits 10 n := String.toList_ofList
    rw [digits] at listed
    exact Nat.isDigit_of_mem_toDigits (by decide) (by decide) listed
  cases n with
  | ofNat n => exact .inl (natural member)
  | negSucc n =>
    have written : toString (Int.negSucc n) = "-" ++ toString (n + 1) := rfl
    rw [written, String.toList_append] at member
    rcases List.mem_append.mp member with sign | later
    · exact .inr (by simpa using sign)
    · exact .inl (natural later)

end ApiLoom.Text
