import ApiLoom.Document.Json.Reader
import ApiLoom.Text.Quoted

/-!
# Texts that are read back

A text that was quoted is read as it was, escape by escape; so is one that needs no escape and was
put between quotes as it is.
-/

namespace ApiLoom.Json

open Text Text.Quoted

theorem hexValue_hexDigit : ∀ n : Fin 16, hexValue (hexDigit n) = some n := by decide

theorem unitValue_unitDigits {n : Nat} (small : n < 65536) :
    unitValue (hexDigit (n / 4096 % 16)) (hexDigit (n / 256 % 16)) (hexDigit (n / 16 % 16))
      (hexDigit (n % 16)) = some n := by
  have digit : ∀ k, hexValue (hexDigit (k % 16)) = some (k % 16) := fun k =>
    hexValue_hexDigit ⟨k % 16, Nat.mod_lt _ (by decide)⟩
  simp only [unitValue, digit, bind, Option.bind, pure, Option.some.injEq]
  omega

theorem char_of_toNat {c : Char} {n : Nat} (same : c.toNat = n) : c = Char.ofNat n := by
  rw [← same, Char.ofNat_toNat]

theorem shortUnescape_shortEscape {c e : Char} (short : shortEscape c = some e) :
    shortUnescape e = some c := by
  unfold shortEscape at short
  repeat' split at short
  all_goals cases short
  all_goals first
    | subst c; decide
    | rw [char_of_toNat ‹c.toNat = _›]; decide

theorem readText_short {start : Nat} {seen rest : List Char} {c e : Char}
    (short : shortEscape c = some e) :
    readText start seen ('\\' :: e :: rest) = readText start (c :: seen) rest := by
  have back := shortUnescape_shortEscape short
  have unit : e ≠ 'u' := by
    rintro rfl
    cases back
  rw [readText.eq_6 start seen e rest (fun _ _ _ _ _ same _ => unit same) unit, back]

theorem readText_unit {start : Nat} {seen rest : List Char} {n : Nat} (small : n < 65536)
    (whole : (isHighUnit n || isLowUnit n) = false) (more : rest ≠ []) :
    readText start seen (unitEscape n ++ rest) = readText start (Char.ofNat n :: seen) rest := by
  have filled : ¬ rest.isEmpty = true := by simpa using more
  have one : unitChar n = Char.ofNat n := by simp [unitChar, whole]
  have upper : isHighUnit n = false := (Bool.or_eq_false_iff.mp whole).1
  simp only [unitEscape, List.cons_append, List.nil_append]
  rw [readText.eq_4, if_neg filled, unitValue_unitDigits small]
  dsimp only
  split
  · rw [upper, Bool.false_and, if_neg (by decide), one]
  · rw [one]

theorem readText_pair {start : Nat} {seen rest : List Char} {high low : Nat}
    (upper : isHighUnit high = true) (lower : isLowUnit low = true) (more : rest ≠ []) :
    readText start seen (unitEscape high ++ (unitEscape low ++ rest)) =
      readText start (Char.ofNat (joinUnits high low) :: seen) rest := by
  have filled : rest.isEmpty = false := by simpa using more
  have highSmall : high < 65536 := by
    simp only [isHighUnit, Bool.and_eq_true, decide_eq_true_eq] at upper
    omega
  have lowSmall : low < 65536 := by
    simp only [isLowUnit, Bool.and_eq_true, decide_eq_true_eq] at lower
    omega
  simp only [unitEscape, List.cons_append, List.nil_append]
  rw [readText.eq_4, if_neg (by simp), unitValue_unitDigits highSmall]
  simp only [upper, filled, lower, Bool.not_false, Bool.and_true, if_true,
    unitValue_unitDigits lowSmall]

theorem readText_plain {start : Nat} {seen rest : List Char} {c : Char}
    (quote : c ≠ '"') (slash : c ≠ '\\') (printed : 0x20 ≤ c.toNat) :
    readText start seen (c :: rest) = readText start (c :: seen) rest := by
  rw [readText.eq_7 start seen c rest quote (fun same => absurd same slash)
    (fun _ _ _ _ _ same => absurd same slash) (fun _ same => absurd same slash)
    (fun _ _ same => absurd same slash), if_neg (by omega)]

theorem readText_encodeChar {start : Nat} {seen rest : List Char} (c : Char) (more : rest ≠ []) :
    readText start seen (encodeChar c ++ rest) = readText start (c :: seen) rest := by
  unfold encodeChar
  cases short : shortEscape c with
  | some e => exact readText_short short
  | none =>
    have scalar : c.toNat < 0xd800 ∨ 0xdfff < c.toNat ∧ c.toNat < 0x110000 := c.valid
    dsimp only
    split
    · next printed =>
      have quote : c ≠ '"' := by rintro rfl; cases short
      have slash : c ≠ '\\' := by rintro rfl; cases short
      exact readText_plain quote slash printed.1
    split
    · next small =>
      have whole : (isHighUnit c.toNat || isLowUnit c.toNat) = false := by
        simp only [isHighUnit, isLowUnit, Bool.or_eq_false_iff, Bool.and_eq_false_iff,
          decide_eq_false_iff_not]
        omega
      rw [readText_unit small whole more, Char.ofNat_toNat]
    · have upper : isHighUnit (0xd800 + (c.toNat - 0x10000) / 1024) = true := by
        simp only [isHighUnit, Bool.and_eq_true, decide_eq_true_eq]
        omega
      have lower : isLowUnit (0xdc00 + (c.toNat - 0x10000) % 1024) = true := by
        simp only [isLowUnit, Bool.and_eq_true, decide_eq_true_eq]
        omega
      have joined : joinUnits (0xd800 + (c.toNat - 0x10000) / 1024)
          (0xdc00 + (c.toNat - 0x10000) % 1024) = c.toNat := by
        unfold joinUnits
        omega
      rw [List.append_assoc, readText_pair upper lower more, joined, Char.ofNat_toNat]

/-- A text that was quoted is read as it was. -/
theorem readText_encode (start : Nat) (seen cs rest : List Char) :
    readText start seen (cs.flatMap encodeChar ++ '"' :: rest) =
      .ok (String.ofList (seen.reverse ++ cs), rest) := by
  induction cs generalizing seen with
  | nil => rw [List.flatMap_nil, List.nil_append, readText.eq_2, List.append_nil]
  | cons c cs ih =>
    rw [List.flatMap_cons, List.append_assoc, readText_encodeChar c (by simp), ih,
      List.reverse_cons, List.append_assoc, List.singleton_append]

/-- Neither a quote nor an escape nor a control character is in the text. -/
def IsSpelled (s : String) : Prop := ∀ c ∈ s.toList, c ≠ '"' ∧ c ≠ '\\' ∧ 0x20 ≤ c.toNat

instance (s : String) : Decidable (IsSpelled s) := List.decidableBAll _ s.toList

theorem readText_spelled (start : Nat) (seen rest : List Char) {cs : List Char}
    (spelled : ∀ c ∈ cs, c ≠ '"' ∧ c ≠ '\\' ∧ 0x20 ≤ c.toNat) :
    readText start seen (cs ++ '"' :: rest) = .ok (String.ofList (seen.reverse ++ cs), rest) := by
  induction cs generalizing seen with
  | nil => rw [List.nil_append, readText.eq_2, List.append_nil]
  | cons c cs ih =>
    obtain ⟨quote, slash, printed⟩ := spelled c List.mem_cons_self
    rw [List.cons_append, readText_plain quote slash printed,
      ih _ fun d later => spelled d (List.mem_cons_of_mem _ later), List.reverse_cons,
      List.append_assoc, List.singleton_append]

theorem readText_length {start : Nat} {seen cs rest : List Char} {s : String}
    (read : readText start seen cs = .ok (s, rest)) : rest.length < cs.length := by
  fun_induction readText start seen cs
  all_goals simp_all [failAt]
  all_goals omega

end ApiLoom.Json
