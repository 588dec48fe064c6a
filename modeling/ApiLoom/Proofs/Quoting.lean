import ApiLoom.Proofs.Columns
import ApiLoom.Proofs.JsonDocuments
import ApiLoom.Proofs.Stamping

/-!
# Quoting

A quoted text is a literal of printable ASCII within one line.  Each of its characters is spelled on
its own, and the text is read back from what they are spelled as.  So no two texts share a literal,
and no two lists of groups, names of functions or lists of statements share what is written of them.
-/

namespace ApiLoom

namespace Json

open Text (quote)
open Text.Quoted

/-! ### Spellings -/

/-- The escape with four digits. -/
def unitText (h i j k : Char) : List Char := ['\\', 'u', h, i, j, k]

/-- What stands for a character between quotes. -/
inductive Spelling : Char → List Char → Prop where
  | plain {c : Char} (printed : 0x20 ≤ c.toNat ∧ c.toNat ≤ 0x7e) (quotation : c ≠ '"')
      (slash : c ≠ '\\') : Spelling c [c]
  | short {c e : Char} (known : shortUnescape e = some c) : Spelling c ['\\', e]
  | unit {c : Char} {n : Nat} {h i j k : Char} (digits : unitValue h i j k = some n)
      (whole : (isHighUnit n || isLowUnit n) = false) (means : c.toNat = n) :
      Spelling c (unitText h i j k)
  /-- Two units, for a character that is above all of one. -/
  | pair {c : Char} {high low : Nat} {h i j k p q r s : Char}
      (first : unitValue h i j k = some high) (second : unitValue p q r s = some low)
      (upper : isHighUnit high = true) (lower : isLowUnit low = true)
      (above : 0xffff < c.toNat) (means : joinUnits high low = c.toNat) :
      Spelling c (unitText h i j k ++ unitText p q r s)

/-- Each backslash escapes a character, and no quote stands unescaped. -/
def isEscaped : List Char → Bool
  | [] => true
  | ['\\'] => false
  | '\\' :: _ :: rest => isEscaped rest
  | c :: rest => c ≠ '"' && isEscaped rest

def isPrinted (c : Char) : Bool := 0x20 ≤ c.toNat && c.toNat ≤ 0x7e

/-- A character that can stand alone in a literal. -/
def isFree (c : Char) : Bool := isPrinted c && c ≠ '"' && c ≠ '\\'

theorem isFree_of_hexValue {c : Char} {n : Nat} (digit : hexValue c = some n) :
    isFree c = true := by
  have small : c.toNat < 128 := by
    unfold hexValue at digit
    split at digit
    · next among => exact Nat.lt_of_le_of_lt among.2 (by decide)
    split at digit
    · next among => exact Nat.lt_of_le_of_lt among.2 (by decide)
    split at digit
    · next among => exact Nat.lt_of_le_of_lt among.2 (by decide)
    · cases digit
  have all : ∀ k < 128, (hexValue (Char.ofNat k)).isSome = true → isFree (Char.ofNat k) = true := by
    decide
  rw [← Char.ofNat_toNat c] at digit ⊢
  exact all _ small (by rw [digit]; rfl)

theorem isFree_of_unitValue {h i j k : Char} {n : Nat} (digits : unitValue h i j k = some n) :
    isFree h = true ∧ isFree i = true ∧ isFree j = true ∧ isFree k = true := by
  simp only [unitValue, bind, Option.bind_eq_some_iff] at digits
  obtain ⟨_, first, _, second, _, third, _, fourth, _⟩ := digits
  exact ⟨isFree_of_hexValue first, isFree_of_hexValue second, isFree_of_hexValue third,
    isFree_of_hexValue fourth⟩

theorem isPrinted_of_isFree {c : Char} (free : isFree c = true) : isPrinted c = true := by
  simp only [isFree, Bool.and_eq_true] at free
  exact free.1.1

theorem isPrinted_of_shortUnescape {c e : Char} (known : shortUnescape e = some c) :
    isPrinted e = true := by
  unfold shortUnescape at known
  repeat' split at known
  · next among => rcases among with rfl | rfl | rfl <;> decide
  all_goals first
    | subst e; decide
    | cases known

theorem isEscaped_free {c : Char} (free : isFree c = true) (rest : List Char) :
    isEscaped (c :: rest) = isEscaped rest := by
  simp only [isFree, Bool.and_eq_true, decide_eq_true_eq] at free
  obtain ⟨⟨_, quotation⟩, slash⟩ := free
  rw [isEscaped]
  · simp [quotation]
  · exact fun same _ => slash same
  · exact fun _ _ same => absurd same slash

section Units

variable {h i j k : Char} {n : Nat}

theorem unitText_printed (digits : unitValue h i j k = some n) :
    ∀ x ∈ unitText h i j k, isPrinted x = true := by
  obtain ⟨first, second, third, fourth⟩ := isFree_of_unitValue digits
  simp only [unitText, List.forall_mem_cons]
  exact ⟨rfl, rfl, isPrinted_of_isFree first, isPrinted_of_isFree second,
    isPrinted_of_isFree third, isPrinted_of_isFree fourth, by simp⟩

theorem isEscaped_unitText (digits : unitValue h i j k = some n) (rest : List Char) :
    isEscaped (unitText h i j k ++ rest) = isEscaped rest := by
  obtain ⟨first, second, third, fourth⟩ := isFree_of_unitValue digits
  simp only [unitText, List.cons_append, List.nil_append]
  rw [isEscaped, isEscaped_free first, isEscaped_free second, isEscaped_free third,
    isEscaped_free fourth]

end Units

namespace Spelling

variable {c : Char} {piece : List Char}

theorem printed (spelling : Spelling c piece) : ∀ x ∈ piece, isPrinted x = true := by
  cases spelling with
  | plain printed => simpa [isPrinted] using printed
  | short known =>
    simp only [List.forall_mem_cons]
    exact ⟨rfl, isPrinted_of_shortUnescape known, by simp⟩
  | unit digits => exact unitText_printed digits
  | pair first second =>
    exact List.forall_mem_append.mpr ⟨unitText_printed first, unitText_printed second⟩

/-- A quote is spelled with a backslash before it. -/
theorem isEscaped_append (spelling : Spelling c piece) (rest : List Char) :
    isEscaped (piece ++ rest) = isEscaped rest := by
  cases spelling with
  | plain printed quotation slash =>
    have free : isFree c = true := by simp [isFree, isPrinted, printed, quotation, slash]
    exact isEscaped_free free rest
  | short known =>
    rw [List.cons_append, List.cons_append, isEscaped]
    rfl
  | unit digits => exact isEscaped_unitText digits rest
  | pair first second =>
    rw [List.append_assoc, isEscaped_unitText first, isEscaped_unitText second]

end Spelling

theorem encodeChar_spelling (c : Char) : Spelling c (encodeChar c) := by
  have scalar : c.toNat < 0xd800 ∨ 0xdfff < c.toNat ∧ c.toNat < 0x110000 := c.valid
  unfold encodeChar
  cases short : shortEscape c with
  | some e => exact .short (shortUnescape_shortEscape short)
  | none =>
    dsimp only
    split
    · next printed =>
      have quotation : c ≠ '"' := by
        rintro rfl
        cases short
      have slash : c ≠ '\\' := by
        rintro rfl
        cases short
      exact .plain printed quotation slash
    split
    · next small =>
      have whole : (isHighUnit c.toNat || isLowUnit c.toNat) = false := by
        simp only [isHighUnit, isLowUnit, Bool.or_eq_false_iff, Bool.and_eq_false_iff,
          decide_eq_false_iff_not]
        omega
      exact .unit (unitValue_unitDigits small) whole rfl
    · next above =>
      have upper : isHighUnit (0xd800 + (c.toNat - 0x10000) / 1024) = true := by
        simp only [isHighUnit, Bool.and_eq_true, decide_eq_true_eq]
        omega
      have lower : isLowUnit (0xdc00 + (c.toNat - 0x10000) % 1024) = true := by
        simp only [isLowUnit, Bool.and_eq_true, decide_eq_true_eq]
        omega
      refine .pair (unitValue_unitDigits (by omega)) (unitValue_unitDigits (by omega)) upper lower
        (by omega) ?_
      unfold joinUnits
      omega

/-! ### Literals -/

/-- A literal of a text. -/
structure IsLiteral (s literal : String) : Prop where
  printed : ∀ c ∈ literal.toList, isPrinted c = true
  unbroken : '\n' ∉ literal.toList ∧ '\r' ∉ literal.toList
  /-- Between the quotes stand the spellings of the characters, in their order. -/
  spelled : ∃ pieces, List.Forall₂ Spelling s.toList pieces ∧
    literal.toList = '"' :: (pieces.flatten ++ ['"']) ∧ isEscaped pieces.flatten = true
  reads : read literal = .ok (.text s)

theorem isEscaped_flatten {cs : List Char} {pieces : List (List Char)}
    (spelled : List.Forall₂ Spelling cs pieces) : isEscaped pieces.flatten = true := by
  induction spelled with
  | nil => rfl
  | cons spelling _ ih => rw [List.flatten_cons, spelling.isEscaped_append, ih]

theorem isPrinted_flatten {cs : List Char} {pieces : List (List Char)}
    (spelled : List.Forall₂ Spelling cs pieces) : ∀ x ∈ pieces.flatten, isPrinted x = true := by
  induction spelled with
  | nil => simp
  | cons spelling _ ih =>
    rw [List.flatten_cons]
    exact List.forall_mem_append.mpr ⟨spelling.printed, ih⟩

theorem quote_isLiteral (s : String) : IsLiteral s (quote s) := by
  have spelled : List.Forall₂ Spelling s.toList (s.toList.map encodeChar) := by
    rw [List.forall₂_map_right_iff]
    exact List.forall₂_same.mpr fun c _ => encodeChar_spelling c
  have enclosed : (quote s).toList = '"' :: ((s.toList.map encodeChar).flatten ++ ['"']) := by
    simpa [List.flatMap_def] using quote_append s []
  have printed : ∀ c ∈ (quote s).toList, isPrinted c = true := by
    rw [enclosed, List.forall_mem_cons, List.forall_mem_append, List.forall_mem_singleton]
    exact ⟨rfl, isPrinted_flatten spelled, rfl⟩
  constructor
  case printed => exact printed
  case unbroken =>
    constructor
    · intro feed
      exact absurd (printed _ feed) (by decide)
    · intro back
      exact absurd (printed _ back) (by decide)
  case spelled => exact ⟨_, spelled, enclosed, isEscaped_flatten spelled⟩
  case reads =>
    have document := read_printed (.text s) "" (by simp)
    rwa [printAt, scalarText, String.append_empty] at document

/-! ### Literals within a text -/

section Within

variable {s t : String} {x y tail : List Char}

/-- A literal ends where it is read to, whatever stands behind it. -/
theorem quote_ends (same : (quote s).toList ++ x = (quote t).toList ++ y) : s = t ∧ x = y := by
  have first := readValue_text 0 s x
  rw [same, readValue_text 0 t y] at first
  cases first
  exact ⟨rfl, rfl⟩

theorem quote_injective : Function.Injective quote := by
  intro s t same
  exact (quote_ends (x := []) (y := []) (by rw [same])).1

/-- Literals in a row, each behind a lead and with a separator before it if it is not the first. -/
def quotedRow (lead separator : List Char) : List String → List Char
  | [] => []
  | s :: rest =>
    lead ++ ((quote s).toList ++ rest.flatMap fun t => separator ++ (lead ++ (quote t).toList))

/-- The texts of a row are given by the row, where what follows begins like no further literal. -/
theorem quotedRow_inj {lead separator : List Char} {xs ys : List String}
    (opens : ∀ z, lead ++ z ≠ tail) (goes : ∀ z, separator ++ z ≠ tail)
    (same : quotedRow lead separator xs ++ tail = quotedRow lead separator ys ++ tail) :
    xs = ys := by
  have later : ∀ xs ys : List String,
      (xs.flatMap fun t => separator ++ (lead ++ (quote t).toList)) ++ tail =
        (ys.flatMap fun t => separator ++ (lead ++ (quote t).toList)) ++ tail → xs = ys := by
    intro xs
    induction xs with
    | nil =>
      intro ys same
      cases ys with
      | nil => rfl
      | cons y rest =>
        simp only [List.flatMap_cons, List.append_assoc] at same
        exact absurd same.symm (goes _)
    | cons x rest ih =>
      intro ys same
      cases ys with
      | nil =>
        simp only [List.flatMap_cons, List.append_assoc] at same
        exact absurd same (goes _)
      | cons y others =>
        simp only [List.flatMap_cons, List.append_assoc] at same
        have literal := List.append_cancel_left (List.append_cancel_left same)
        obtain ⟨rfl, behind⟩ := quote_ends literal
        rw [ih others behind]
  cases xs with
  | nil =>
    cases ys with
    | nil => rfl
    | cons y rest =>
      rw [quotedRow, quotedRow, List.append_assoc] at same
      exact absurd same.symm (opens _)
  | cons x rest =>
    cases ys with
    | nil =>
      rw [quotedRow, quotedRow, List.append_assoc] at same
      exact absurd same (opens _)
    | cons y others =>
      rw [quotedRow, quotedRow, List.append_assoc lead, List.append_assoc lead] at same
      have literal := List.append_cancel_left same
      rw [List.append_assoc, List.append_assoc] at literal
      obtain ⟨rfl, behind⟩ := quote_ends literal
      rw [later rest others behind]

end Within

end Json

namespace Template

open Json (quotedRow quotedRow_inj quote_ends)
open Text (quote joined)

/-! ### Literals in templates -/

theorem oneOf_toList (subject : Term) (groups : List String) :
    (Cond.oneOf subject groups).text.toList =
      quotedRow (subject.text ++ " == ").toList " || ".toList groups := by
  cases groups with
  | nil => rfl
  | cons group rest =>
    rw [Cond.text, List.map_cons, Text.toList_separated, List.flatMap_map, quotedRow]
    simp only [String.toList_append, List.append_assoc]

/-- The text of a script in which one line varies. -/
theorem text_varied {s : Script} {above below : List String} {line : String}
    (varied : s.lines = above ++ line :: below) :
    s.text.toList = joined above ++ (line.toList ++ '\n' :: joined below) := by
  rw [Script.text_toList (by simp [varied]), varied]
  simp [joined]

/-- What is written behind a fixed front tells what a text was written for. -/
theorem injective_of_framed {α : Type} {text : α → String} {front : List Char}
    {inner : α → List Char} (framed : ∀ x, (text x).toList = front ++ inner x)
    (apart : Function.Injective inner) : Function.Injective text := by
  intro x y same
  have whole : front ++ inner x = front ++ inner y := by rw [← framed, ← framed, same]
  exact apart (List.append_cancel_left whole)

/-- Checks for different groups have different texts. -/
theorem grantToGroups_injective (name : String) (items : Term) :
    Function.Injective fun groups => (grantToGroups name items groups).text := by
  let fixed := (grantToGroups name items []).lines
  have text (groups : List String) : (grantToGroups name items groups).text.toList =
      (joined (fixed.take 2) ++ "    #if(".toList) ++
        (quotedRow "$group == ".toList " || ".toList groups ++
          ')' :: '\n' :: joined (fixed.drop 3)) := by
    have lines : (grantToGroups name items groups).lines = fixed.take 2 ++
        ("  " ++ ("  " ++ ("#if(" ++ (Cond.oneOf (.var "group") groups).text ++ ")"))) ::
          fixed.drop 3 := rfl
    rw [text_varied lines]
    simp only [String.toList_append, oneOf_toList, List.append_assoc]
    rfl
  apply injective_of_framed text
  intro groups others same
  exact quotedRow_inj (fun z => by simp) (fun z => by simp) same

/-- Calls of different functions have different texts. -/
theorem invokeHook_injective (config : Config) (hook model : String) (phase : HookPhase) :
    Function.Injective fun function =>
      (perform config (.invokeHook hook function model phase)).text := by
  let fixed := (perform config (.invokeHook hook "" model phase)).lines
  have text (function : String) :
      (perform config (.invokeHook hook function model phase)).text.toList =
        (joined (fixed.take 5) ++ "    \"function\": ".toList) ++
          ((quote function).toList ++ ',' :: '\n' :: joined (fixed.drop 6)) := by
    have lines : (perform config (.invokeHook hook function model phase)).lines = fixed.take 5 ++
        ("    \"function\": " ++ quote function ++ ",") :: fixed.drop 6 := by
      cases phase <;> rfl
    rw [text_varied lines]
    simp only [String.toList_append, List.append_assoc]
    rfl
  apply injective_of_framed text
  intro function other same
  exact (quote_ends same).1

theorem joined_separated (lead : String) (texts : List String) :
    '\n' :: joined (separated (texts.map fun s => lead ++ quote s)) =
      quotedRow ('\n' :: lead.toList) [','] texts ++ ['\n'] := by
  induction texts with
  | nil => rfl
  | cons s rest ih =>
    cases rest with
    | nil => simp [separated, quotedRow, joined]
    | cons t others =>
      have first : joined (separated ((s :: t :: others).map fun s => lead ++ quote s)) =
          lead.toList ++ ((quote s).toList ++ ',' ::
            '\n' :: joined (separated ((t :: others).map fun s => lead ++ quote s))) := by
        simp [separated, joined]
      rw [first, ih]
      simp [quotedRow]

theorem sql_lines (config : Config) (q : SqlStatements) : (perform config (.sql q)).lines =
    (beforeGuard q ++ guardScript q.ownerGuard).lines ++
      "\x7b" :: ("  \"version\": " ++ (Term.plain config.templateVersion).text ++ ",") ::
        "  \"statements\": [" :: (separated (q.statements.map fun s => "    " ++ quote s) ++
          "  ]," :: (memberLines 1 false (sqlMembers q).tail ++ ["\x7d"])) := by
  have rows : (q.statements.map Term.quoted).map (fun t => margin 2 ++ t.text) =
      q.statements.map fun s => "    " ++ quote s := by
    rw [List.map_map]
    rfl
  have body : (versioned config (sqlMembers q)).lines =
      "\x7b" :: (("  \"version\": " ++ (Term.plain config.templateVersion).text ++ ",") ::
        ("  \"statements\": [" :: (separated ((q.statements.map Term.quoted).map
          fun t => margin 2 ++ t.text) ++ ["  ],"]) ++
            memberLines 1 false (sqlMembers q).tail) ++ ["\x7d"]) := rfl
  rw [sql_parts, Script.lines_append, ← rows]
  simp only [Script.acts, Script.lines, Action.lines, body, List.append_nil, List.append_assoc,
    List.cons_append, List.nil_append]

/-- Requests with different statements have different texts. -/
theorem sql_injective (config : Config) (q : SqlStatements) :
    Function.Injective fun statements =>
      (perform config (.sql { q with statements := statements })).text := by
  let above : List String := (beforeGuard q ++ guardScript q.ownerGuard).lines ++
    ["\x7b", "  \"version\": " ++ (Term.plain config.templateVersion).text ++ ","]
  let below : List String := memberLines 1 false (sqlMembers q).tail ++ ["\x7d"]
  have text (statements : List String) :
      (perform config (.sql { q with statements := statements })).text.toList =
        (joined above ++ "  \"statements\": [".toList) ++
          (quotedRow ('\n' :: "    ".toList) [','] statements ++
            '\n' :: ("  ],".toList ++ '\n' :: joined below)) := by
    have lines := sql_lines config { q with statements := statements }
    have filled : (perform config (.sql { q with statements := statements })).lines ≠ [] := by
      simp [lines]
    have rows := joined_separated "    " statements
    have whole : joined (perform config (.sql { q with statements := statements })).lines =
        joined above ++ ("  \"statements\": [".toList ++
          ('\n' :: joined (separated (statements.map fun s => "    " ++ quote s)) ++
            ("  ],".toList ++ '\n' :: joined below))) := by
      rw [lines]
      simp [joined, above, below]
      rfl
    rw [Script.text_toList filled, whole, rows]
    simp only [List.append_assoc, List.cons_append, List.nil_append]
  apply injective_of_framed text
  intro statements others same
  exact quotedRow_inj (fun z => by simp) (fun z => by simp) same

end Template

open Template

/-- What a text is quoted as is a literal of it, so that no two texts share one.  Neither do two
lists of groups share a check of the caller, two functions a call, or two lists of statements a
request that is otherwise the same. -/
theorem quoting_invertible :
    (∀ s, Json.IsLiteral s (Text.quote s)) ∧ Function.Injective Text.quote ∧
      (∀ name items, Function.Injective fun groups => (grantToGroups name items groups).text) ∧
      (∀ config hook model phase, Function.Injective fun function =>
        (perform config (.invokeHook hook function model phase)).text) ∧
      ∀ config (q : SqlStatements), Function.Injective fun statements =>
        (perform config (.sql { q with statements := statements })).text :=
  ⟨Json.quote_isLiteral, Json.quote_injective, grantToGroups_injective, invokeHook_injective,
    sql_injective⟩

end ApiLoom
