/-!
# Values that are known in part

A JSON value as a template writes it: of what `$util.toJson` writes, only the expression is known.
The reader of its tokens is strict.  No comma is missing and none is too many, and the members of
an object keep their order, also where two have one name.
-/

namespace ApiLoom

/-- A JSON value, some parts of which a template computes. -/
inductive Draft where
  | text (s : String)
  | computed (expression : String)
  | list (items : List Draft)
  | object (members : List (String × Draft))

namespace Draft

/-! ### Tokens -/

inductive Token where
  | openObject
  | closeObject
  | openList
  | closeList
  | comma
  | colon
  | text (s : String)
  | computed (expression : String)

def commas : List (List Token) → List Token
  | [] => []
  | [last] => last
  | ts :: rest => ts ++ .comma :: commas rest

mutual

def tokens : Draft → List Token
  | .text s => [.text s]
  | .computed expression => [.computed expression]
  | .list items => .openList :: (commas (itemTokens items) ++ [.closeList])
  | .object members => .openObject :: (commas (memberTokens members) ++ [.closeObject])

def itemTokens : List Draft → List (List Token)
  | [] => []
  | d :: rest => d.tokens :: itemTokens rest

def memberTokens : List (String × Draft) → List (List Token)
  | [] => []
  | (key, d) :: rest => (.text key :: .colon :: d.tokens) :: memberTokens rest

end

/-! ### Reading -/

mutual

/-- A value at the first token.  Every step takes a token or turns to the first part of a value. -/
def readValue : Nat → List Token → Option (Draft × List Token)
  | _ + 1, .text s :: rest => some (.text s, rest)
  | _ + 1, .computed expression :: rest => some (.computed expression, rest)
  | _ + 1, .openList :: .closeList :: rest => some (.list [], rest)
  | fuel + 1, .openList :: rest => (readItems fuel rest).map fun r => (.list r.1, r.2)
  | _ + 1, .openObject :: .closeObject :: rest => some (.object [], rest)
  | fuel + 1, .openObject :: rest => (readMembers fuel rest).map fun r => (.object r.1, r.2)
  | _, _ => none

def readItems : Nat → List Token → Option (List Draft × List Token)
  | 0, _ => none
  | fuel + 1, ts =>
    match readValue fuel ts with
    | some (d, .closeList :: rest) => some ([d], rest)
    | some (d, .comma :: rest) => (readItems fuel rest).map fun r => (d :: r.1, r.2)
    | _ => none

def readMembers : Nat → List Token → Option (List (String × Draft) × List Token)
  | fuel + 1, .text key :: .colon :: ts =>
    match readValue fuel ts with
    | some (d, .closeObject :: rest) => some ([(key, d)], rest)
    | some (d, .comma :: rest) => (readMembers fuel rest).map fun r => ((key, d) :: r.1, r.2)
    | _ => none
  | _, _ => none

end

def read (ts : List Token) : Option Draft :=
  match readValue ts.length ts with
  | some (d, []) => some d
  | _ => none

theorem commas_cons (ts next : List Token) (rest : List (List Token)) :
    commas (ts :: next :: rest) = ts ++ .comma :: commas (next :: rest) := rfl

theorem commas_starts (ts : List Token) (rest : List (List Token)) :
    ∃ more, commas (ts :: rest) = ts ++ more := by
  cases rest with
  | nil => exact ⟨[], (List.append_nil ts).symm⟩
  | cons next rest => exact ⟨_, rfl⟩

/-- No value starts with the end of another. -/
theorem tokens_starts (d : Draft) :
    ∃ t ts, d.tokens = t :: ts ∧ t ≠ .closeList ∧ t ≠ .closeObject := by
  cases d <;> exact ⟨_, _, by rw [tokens], by simp, by simp⟩

theorem inside_length {opening closing : Token} {ts : List Token} {fuel : Nat}
    (enough : (opening :: (ts ++ [closing])).length ≤ fuel + 1) : ts.length < fuel := by
  simp only [List.length_cons, List.length_append, List.length_nil] at enough
  omega

section Reading

variable {fuel : Nat} {ts rest : List Token}

theorem readValue_list (filled : ∀ more, ts ≠ .closeList :: more) :
    readValue (fuel + 1) (.openList :: ts) =
      (readItems fuel ts).map fun r => (.list r.1, r.2) :=
  readValue.eq_4 fuel ts filled

theorem readValue_object (filled : ∀ more, ts ≠ .closeObject :: more) :
    readValue (fuel + 1) (.openObject :: ts) =
      (readMembers fuel ts).map fun r => (.object r.1, r.2) :=
  readValue.eq_6 fuel ts filled

end Reading

/-- With so much fuel, what was written is read back. -/
structure ReadsBack (fuel : Nat) : Prop where
  draft : ∀ (d : Draft) rest, d.tokens.length ≤ fuel →
    readValue fuel (d.tokens ++ rest) = some (d, rest)
  items : ∀ d items rest, (commas (itemTokens (d :: items))).length < fuel →
    readItems fuel (commas (itemTokens (d :: items)) ++ .closeList :: rest) =
      some (d :: items, rest)
  members : ∀ key d members rest,
    (commas (memberTokens ((key, d) :: members))).length < fuel →
      readMembers fuel (commas (memberTokens ((key, d) :: members)) ++ .closeObject :: rest) =
        some ((key, d) :: members, rest)

namespace ReadsBack

variable {fuel : Nat}

theorem draft_step (less : ReadsBack fuel) (d : Draft) (rest : List Token)
    (enough : d.tokens.length ≤ fuel + 1) :
    readValue (fuel + 1) (d.tokens ++ rest) = some (d, rest) := by
  cases d with
  | text s => simp [tokens, readValue]
  | computed expression => simp [tokens, readValue]
  | list items =>
    cases items with
    | nil => simp [tokens, itemTokens, commas, readValue]
    | cons d items =>
      rw [tokens] at enough ⊢
      obtain ⟨t, ts, starts, inside, _⟩ := d.tokens_starts
      obtain ⟨more, same⟩ := commas_starts d.tokens (itemTokens items)
      have inner : (commas (itemTokens (d :: items))).length < fuel := inside_length enough
      rw [List.cons_append, List.append_assoc, List.singleton_append, readValue_list,
        less.items d items rest inner]
      · rfl
      · rw [itemTokens, same, starts]
        rintro more ⟨⟩
        exact inside rfl
  | object members =>
    cases members with
    | nil => simp [tokens, memberTokens, commas, readValue]
    | cons member members =>
      obtain ⟨key, d⟩ := member
      rw [tokens] at enough ⊢
      obtain ⟨more, same⟩ := commas_starts (.text key :: .colon :: d.tokens) (memberTokens members)
      have inner : (commas (memberTokens ((key, d) :: members))).length < fuel :=
        inside_length enough
      rw [List.cons_append, List.append_assoc, List.singleton_append, readValue_object,
        less.members key d members rest inner]
      · rfl
      · rw [memberTokens, same]
        rintro more ⟨⟩

theorem items_step (less : ReadsBack fuel) (d : Draft) (items : List Draft) (rest : List Token)
    (enough : (commas (itemTokens (d :: items))).length < fuel + 1) :
    readItems (fuel + 1) (commas (itemTokens (d :: items)) ++ .closeList :: rest) =
      some (d :: items, rest) := by
  cases items with
  | nil =>
    simp only [itemTokens, commas] at enough ⊢
    rw [readItems, less.draft d _ (by omega)]
  | cons next items =>
    have later := less.items next items rest
    simp only [itemTokens, commas_cons, List.length_append, List.length_cons, List.append_assoc,
      List.cons_append] at enough later ⊢
    rw [readItems, less.draft d _ (by omega)]
    simp only [later (by omega), Option.map_some]

theorem members_step (less : ReadsBack fuel) (key : String) (d : Draft)
    (members : List (String × Draft)) (rest : List Token)
    (enough : (commas (memberTokens ((key, d) :: members))).length < fuel + 1) :
    readMembers (fuel + 1) (commas (memberTokens ((key, d) :: members)) ++ .closeObject :: rest) =
      some ((key, d) :: members, rest) := by
  cases members with
  | nil =>
    simp only [memberTokens, commas, List.length_cons, List.cons_append] at enough ⊢
    rw [readMembers, less.draft d _ (by omega)]
  | cons next members =>
    obtain ⟨other, e⟩ := next
    have later := less.members other e members rest
    simp only [memberTokens, commas_cons, List.length_append, List.length_cons, List.append_assoc,
      List.cons_append] at enough later ⊢
    rw [readMembers, less.draft d _ (by omega)]
    simp only [later (by omega), Option.map_some]

end ReadsBack

theorem readsBack (fuel : Nat) : ReadsBack fuel := by
  induction fuel with
  | zero =>
    refine ⟨fun d rest enough => ?_, fun d items rest enough => ?_,
      fun key d members rest enough => ?_⟩
    · obtain ⟨t, ts, starts, _⟩ := d.tokens_starts
      simp [starts] at enough
    · exact absurd enough (Nat.not_lt_zero _)
    · exact absurd enough (Nat.not_lt_zero _)
  | succ fuel less => exact ⟨less.draft_step, less.items_step, less.members_step⟩

/-- A value is read from its own tokens. -/
theorem read_tokens (d : Draft) : read d.tokens = some d := by
  have whole := (readsBack d.tokens.length).draft d [] (Nat.le_refl _)
  rw [List.append_nil] at whole
  rw [Draft.read, whole]

end Draft

end ApiLoom
