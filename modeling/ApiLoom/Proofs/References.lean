import ApiLoom.Text.Identifier

/-!
# Words and references

How a text falls into parts, and how the references in it are replaced.  A
reference is a dollar sign and a path of names; it ends where its characters end.
-/

namespace ApiLoom.Text

/-! ### Parts -/

/-- The parts between the separators. -/
def parts (sep : Char) : List Char → List (List Char)
  | [] => [[]]
  | c :: rest =>
    if c = sep then [] :: parts sep rest
    else
      match parts sep rest with
      | [] => [[c]]
      | part :: later => (c :: part) :: later

theorem parts_ne_nil (sep : Char) (cs : List Char) : parts sep cs ≠ [] := by
  unfold parts
  split
  · simp
  · split
    · simp
    · split <;> simp

theorem parts_append (sep : Char) (xs ys : List Char) :
    parts sep (xs ++ sep :: ys) = parts sep xs ++ parts sep ys := by
  induction xs with
  | nil => simp [parts]
  | cons c rest ih =>
    simp only [List.cons_append, parts, ih]
    split
    · rfl
    · cases found : parts sep rest with
      | nil => exact absurd found (parts_ne_nil sep rest)
      | cons part later => rfl

theorem parts_of_notMem {sep : Char} {cs : List Char} (whole : sep ∉ cs) :
    parts sep cs = [cs] := by
  induction cs with
  | nil => rfl
  | cons c rest ih =>
    simp only [List.mem_cons, not_or] at whole
    simp [parts, ih whole.2, Ne.symm whole.1]

def words (s : String) : List String := (parts ' ' s.toList).map String.ofList

/-! ### References -/

def isPathChar (c : Char) : Bool := isLetterOrDigit c || c = '_' || c = '.'

def path (cs : List Char) : List String := (parts '.' cs).map String.ofList

/-- Replaces the references by what `read` makes of them; `pending` is the part that was seen of
the reference one is in. -/
def expand (read : List Char → List Char) (pending : Option (List Char)) :
    List Char → List Char
  | [] => (pending.map read).getD []
  | c :: rest =>
    match pending with
    | none => if c = '$' then expand read (some []) rest else c :: expand read none rest
    | some seen =>
      if isPathChar c then expand read (some (seen ++ [c])) rest
      else
        read seen ++
          if c = '$' then expand read (some []) rest else c :: expand read none rest

variable {read : List Char → List Char}

/-- No reference reaches beyond a blank. -/
theorem expand_append (xs ys : List Char) (pending : Option (List Char)) :
    expand read pending (xs ++ ' ' :: ys) =
      expand read pending xs ++ ' ' :: expand read none ys := by
  have outside : isPathChar ' ' = false := by decide
  induction xs generalizing pending with
  | nil => cases pending <;> simp [expand, outside]
  | cons c rest ih =>
    simp only [List.cons_append, expand]
    cases pending with
    | none =>
      by_cases dollar : c = '$'
      · simp [dollar, ih]
      · simp [dollar, ih]
    | some seen =>
      by_cases inside : isPathChar c = true
      · simp [inside, ih]
      · by_cases dollar : c = '$'
        · subst dollar
          simp [inside, ih]
        · simp [inside, dollar, ih]

theorem expand_of_notMem {xs : List Char} (plain : '$' ∉ xs) (ys : List Char) :
    expand read none (xs ++ ys) = xs ++ expand read none ys := by
  induction xs with
  | nil => rfl
  | cons c rest ih =>
    simp only [List.mem_cons, not_or] at plain
    simp [expand, ih plain.2, Ne.symm plain.1]

theorem expand_plain {xs : List Char} (plain : '$' ∉ xs) : expand read none xs = xs := by
  have whole : expand read none (xs ++ []) = xs ++ expand read none [] := expand_of_notMem plain []
  simpa [expand] using whole

theorem ends_cons {c : Char} (outside : isPathChar c = false) (rest : List Char) :
    ∀ d ∈ (c :: rest).head?, isPathChar d = false := by
  intro d first
  obtain rfl := Option.some.inj first
  exact outside

/-- A reference ends where its characters end. -/
theorem expand_path {name rest : List Char} (path : name.all isPathChar = true)
    (ends : ∀ c ∈ rest.head?, isPathChar c = false) :
    expand read none ('$' :: (name ++ rest)) = read name ++ expand read none rest := by
  have seen : ∀ seen, expand read (some seen) (name ++ rest) =
      read (seen ++ name) ++ expand read none rest := by
    induction name with
    | nil =>
      intro seen
      cases rest with
      | nil => simp [expand]
      | cons c more =>
        have outside : isPathChar c = false := ends c rfl
        by_cases dollar : c = '$'
        · subst dollar
          simp [expand, outside]
        · simp [expand, outside, dollar]
    | cons c later ih =>
      intro seen
      obtain ⟨first, others⟩ := Bool.and_eq_true_iff.mp path
      simp [expand, first, ih others]
  simpa [expand] using seen []

theorem expand_reference {name : List Char} (path : name.all isPathChar = true) :
    expand read none ('$' :: name) = read name := by
  have whole : expand read none ('$' :: (name ++ [])) = read name ++ expand read none [] :=
    expand_path path nofun
  simpa [expand] using whole

end ApiLoom.Text
