import ApiLoom.Proofs.WrittenNames

/-!
# Queries

What a statement says, read off its text.  A name reaches as far as its characters do, blanks
only part names from each other, and any other character is a sign.  A text is read in one way
at most, so that its table, its columns and its placeholders are those of its one reading.
-/

namespace ApiLoom

namespace Store

/-! ### Tokens -/

inductive Token where
  | name (text : String)
  | sign (c : Char)
deriving DecidableEq, Repr

def pendingName (seen : List Char) : List Token :=
  if seen.isEmpty then [] else [.name (String.ofList seen)]

/-- The tokens of a text; `seen` is the part that was seen of the name one is in.  Names may end
in a line feed, which is then one of their characters. -/
def tokensFrom (seen : List Char) : List Char → List Token
  | [] => pendingName seen
  | c :: rest =>
    if Text.isNameChar c then tokensFrom (seen ++ [c]) rest
    else pendingName seen ++ ((if c = ' ' then [] else [.sign c]) ++ tokensFrom [] rest)

def tokens (statement : String) : List Token := tokensFrom [] statement.toList

/-- No name goes on here. -/
def Apart (s : String) : Prop := ∀ c ∈ s.toList.head?, Text.isNameChar c = false

instance (s : String) : Decidable (Apart s) :=
  Option.decidableForallMem s.toList.head?

/-- What follows is read for itself. -/
def Closed (s : String) : Prop := s.toList.getLast?.any (fun c => !Text.isNameChar c) = true

instance (s : String) : Decidable (Closed s) :=
  inferInstanceAs (Decidable (_ = true))

section Tokens

variable {s t : String}

theorem Apart.empty : Apart "" := by simp [Apart]

theorem Apart.append (starts : s.toList.head?.any (fun c => !Text.isNameChar c) = true)
    (t : String) : Apart (s ++ t) := by
  intro c first
  cases letters : s.toList with
  | nil => simp [letters] at starts
  | cons d rest =>
    simp only [String.toList_append, letters, List.cons_append, List.head?_cons,
      Option.mem_def, Option.some.injEq] at first
    simpa [letters, first] using starts

theorem tokensFrom_name {cs : List Char} (name : ∀ c ∈ cs, Text.isNameChar c = true)
    (apart : Apart t) (seen : List Char) :
    tokensFrom seen (cs ++ t.toList) = pendingName (seen ++ cs) ++ tokens t := by
  induction cs generalizing seen with
  | nil =>
    rw [List.nil_append, List.append_nil, tokens]
    cases letters : t.toList with
    | nil => simp [tokensFrom, pendingName]
    | cons c rest =>
      have outside : Text.isNameChar c = false := apart c (by simp [letters])
      simp [tokensFrom, outside, pendingName]
  | cons c rest ih =>
    obtain ⟨first, later⟩ := List.forall_mem_cons.mp name
    rw [List.cons_append, tokensFrom, if_pos first, ih later]
    simp

theorem tokens_name (name : Text.IsName s) (filled : s ≠ "") (apart : Apart t) :
    tokens (s ++ t) = .name s :: tokens t := by
  have some : s.toList ≠ [] := fun none => filled (String.toList_inj.mp (by simpa using none))
  rw [tokens, String.toList_append, tokensFrom_name name apart, List.nil_append, pendingName,
    if_neg (by simpa using some), String.ofList_toList]
  rfl

/-- Behind a character that is in no name, the text is read for itself. -/
theorem tokensFrom_append {c : Char} (outside : Text.isNameChar c = false) (xs ys : List Char)
    (seen : List Char) :
    tokensFrom seen (xs ++ c :: ys) = tokensFrom seen (xs ++ [c]) ++ tokensFrom [] ys := by
  induction xs generalizing seen with
  | nil => simp [tokensFrom, outside, pendingName]
  | cons d rest ih =>
    simp only [List.cons_append, tokensFrom]
    split
    · exact ih _
    · simp [ih]

theorem tokens_closed (closed : Closed s) (t : String) :
    tokens (s ++ t) = tokens s ++ tokens t := by
  cases last : s.toList.getLast? with
  | none => simp [Closed, last] at closed
  | some c =>
    have outside : Text.isNameChar c = false := by simpa [Closed, last] using closed
    obtain ⟨lead, letters⟩ := List.getLast?_eq_some_iff.mp last
    rw [tokens, tokens, tokens, String.toList_append, letters, List.append_assoc]
    exact tokensFrom_append outside lead _ []

end Tokens

/-! ### Queries -/

/-- The column has the value of the placeholder. -/
structure Condition where
  column : String
  bound : String
deriving DecidableEq, Repr

/-- The column takes the value of the placeholder; where that is null, it may take the one that
a column has. -/
inductive Change where
  | put (column bound : String)
  | keepIfNull (column bound kept : String)
deriving DecidableEq, Repr

inductive Query where
  | select (table : String) (conditions : List Condition) (extent : SqlExtent)
  | insert (table : String) (columns bound : List String)
  | update (table : String) (changes : List Change) (conditions : List Condition)
  | delete (table : String) (conditions : List Condition)
deriving DecidableEq, Repr

def Change.columns : Change → List String
  | put column _ => [column]
  | keepIfNull column _ kept => [column, kept]

def Change.bound : Change → String
  | put _ bound => bound
  | keepIfNull _ bound _ => bound

namespace Query

def table : Query → String
  | select t .. => t
  | insert t .. => t
  | update t .. => t
  | delete t .. => t

def columns : Query → List String
  | select _ conditions _ => conditions.map (·.column)
  | insert _ columns _ => columns
  | update _ changes conditions => changes.flatMap Change.columns ++ conditions.map (·.column)
  | delete _ conditions => conditions.map (·.column)

/-- The names of the placeholders, those of the page apart. -/
def bound : Query → List String
  | select _ conditions _ => conditions.map (·.bound)
  | insert _ _ bound => bound
  | update _ changes conditions => changes.map Change.bound ++ conditions.map (·.bound)
  | delete _ conditions => conditions.map (·.bound)

end Query

def boundTokens (name : String) : List Token := [.sign ':', .name name]

def Condition.tokens (c : Condition) : List Token :=
  .name c.column :: .sign '=' :: boundTokens c.bound

def Change.tokens : Change → List Token
  | put column bound => .name column :: .sign '=' :: boundTokens bound
  | keepIfNull column bound kept =>
    [.name column, .sign '=', .name "COALESCE", .sign '('] ++
      (boundTokens bound ++ [.sign ',', .name kept, .sign ')'])

/-- The tokens of some parts, with a separator between them. -/
def joined {α : Type} (separator : Token) (part : α → List Token) : List α → List Token
  | [] => []
  | x :: rest => part x ++ rest.flatMap fun y => separator :: part y

theorem joined_map {α β : Type} (separator : Token) (part : β → List Token) (f : α → β)
    (xs : List α) : joined separator part (xs.map f) = joined separator (part ∘ f) xs := by
  cases xs <;> simp [joined, List.flatMap_map]

def whereTokens : List Condition → List Token
  | [] => []
  | conditions => .name "WHERE" :: joined (.name "AND") Condition.tokens conditions

def extentTokens : SqlExtent → List Token
  | .all => []
  | .page => .name "LIMIT" :: boundTokens "limit" ++ .name "OFFSET" :: boundTokens "offset"
  | .first => [.name "LIMIT", .name "1"]

namespace Query

/-- The tokens before the table. -/
def verb : Query → List Token
  | select .. => [.name "SELECT", .sign '*', .name "FROM"]
  | insert .. => [.name "INSERT", .name "INTO"]
  | update .. => [.name "UPDATE"]
  | delete .. => [.name "DELETE", .name "FROM"]

/-- The tokens behind the table. -/
def details : Query → List Token
  | select _ conditions extent => whereTokens conditions ++ extentTokens extent
  | insert _ columns bound =>
    .sign '(' :: (joined (.sign ',') (fun column => [.name column]) columns ++
      ([.sign ')', .name "VALUES", .sign '('] ++
        (joined (.sign ',') boundTokens bound ++ [.sign ')'])))
  | update _ changes conditions =>
    .name "SET" :: (joined (.sign ',') Change.tokens changes ++ whereTokens conditions)
  | delete _ conditions => whereTokens conditions

def tokens (q : Query) : List Token := q.verb ++ .name q.table :: q.details

end Query

/-- The tokens that are there whatever a statement is about: its keywords, its signs, and the
names of the placeholders that stand for no column. -/
def fixedTokens : List Token :=
  ["SELECT", "FROM", "INSERT", "INTO", "VALUES", "UPDATE", "SET", "DELETE", "WHERE", "AND",
    "COALESCE", "LIMIT", "OFFSET", "1", "limit", "offset", "owner"].map .name ++
  ['*', '=', ':', ',', '(', ')'].map .sign

/-- The statement says what the query says. -/
def Reads (statement : String) (q : Query) : Prop := tokens statement = q.tokens

instance (statement : String) (q : Query) : Decidable (Reads statement q) :=
  inferInstanceAs (Decidable (tokens statement = q.tokens))

example : Reads "DELETE FROM notes WHERE id = :id AND author = :owner"
    (.delete "notes" [⟨"id", "id"⟩, ⟨"author", "owner"⟩]) := by decide +kernel

/-! ### One reading -/

/-- Neither a separator nor another part follows. -/
structure Ends {α : Type} (separator : Token) (part : α → List Token) (rest : List Token) :
    Prop where
  last : ∀ more, rest ≠ separator :: more
  none : ∀ x more, rest ≠ part x ++ more

section Joined

variable {α : Type} {separator : Token} {part : α → List Token} {xs ys : List α}
  {r t : List Token}

theorem joined_inj (split : ∀ x y r t, part x ++ r = part y ++ t → x = y ∧ r = t)
    (ends : Ends separator part r) (also : Ends separator part t)
    (same : joined separator part xs ++ r = joined separator part ys ++ t) : xs = ys ∧ r = t := by
  have later : ∀ xs ys : List α,
      (xs.flatMap fun y => separator :: part y) ++ r =
        (ys.flatMap fun y => separator :: part y) ++ t → xs = ys ∧ r = t := by
    intro xs
    induction xs with
    | nil =>
      intro ys same
      cases ys with
      | nil => exact ⟨rfl, same⟩
      | cons y rest => exact absurd same (ends.last _)
    | cons x rest ih =>
      intro ys same
      cases ys with
      | nil => exact absurd same.symm (also.last _)
      | cons y others =>
        simp only [List.flatMap_cons, List.cons_append, List.append_assoc, List.cons.injEq,
          true_and] at same
        obtain ⟨rfl, behind⟩ := split x y _ _ same
        obtain ⟨rfl, done⟩ := ih others behind
        exact ⟨rfl, done⟩
  cases xs with
  | nil =>
    cases ys with
    | nil => exact ⟨rfl, same⟩
    | cons y rest =>
      rw [joined, joined, List.append_assoc] at same
      exact absurd same (ends.none y _)
  | cons x rest =>
    cases ys with
    | nil =>
      rw [joined, joined, List.append_assoc] at same
      exact absurd same.symm (also.none x _)
    | cons y others =>
      rw [joined, joined, List.append_assoc, List.append_assoc] at same
      obtain ⟨rfl, behind⟩ := split x y _ _ same
      obtain ⟨rfl, done⟩ := later rest others behind
      exact ⟨rfl, done⟩

end Joined

theorem Condition.split (c d : Condition) (r t : List Token)
    (same : c.tokens ++ r = d.tokens ++ t) : c = d ∧ r = t := by
  obtain ⟨column, bound⟩ := c
  obtain ⟨other, also⟩ := d
  simpa [Condition.tokens, boundTokens, and_assoc] using same

theorem Change.split (c d : Change) (r t : List Token)
    (same : c.tokens ++ r = d.tokens ++ t) : c = d ∧ r = t := by
  cases c <;> cases d <;> simp_all [Change.tokens, boundTokens]

theorem extentTokens_ends (extent : SqlExtent) :
    Ends (.name "AND") Condition.tokens (extentTokens extent) := by
  constructor <;> cases extent <;> simp [extentTokens, boundTokens, Condition.tokens]

theorem whereTokens_ends (conditions : List Condition) :
    Ends (.sign ',') Change.tokens (whereTokens conditions) := by
  constructor
  · cases conditions <;> simp [whereTokens]
  · intro change more
    cases conditions <;> cases change <;>
      simp [whereTokens, joined, Condition.tokens, Change.tokens]

/-- Conditions are read off with what stands behind them. -/
theorem whereTokens_inj {cs ds : List Condition} {e f : SqlExtent}
    (same : whereTokens cs ++ extentTokens e = whereTokens ds ++ extentTokens f) :
    cs = ds ∧ e = f := by
  have extents (same : extentTokens e = extentTokens f) : e = f := by
    cases e <;> cases f <;> simp_all [extentTokens, boundTokens]
  cases cs with
  | nil =>
    cases ds with
    | nil => exact ⟨rfl, extents same⟩
    | cons d rest => cases e <;> simp [whereTokens, extentTokens] at same
  | cons c rest =>
    cases ds with
    | nil => cases f <;> simp [whereTokens, extentTokens] at same
    | cons d others =>
      simp only [whereTokens, List.cons_append, List.cons.injEq, true_and] at same
      obtain ⟨equal, behind⟩ :=
        joined_inj Condition.split (extentTokens_ends e) (extentTokens_ends f) same
      exact ⟨equal, extents behind⟩

theorem Query.tokens_inj {q p : Query} (same : q.tokens = p.tokens) : q = p := by
  cases q with
  | select table conditions extent =>
    cases p with
    | select other others f =>
      simp only [tokens, verb, Query.table, details, List.cons_append, List.nil_append,
        List.cons.injEq, Token.name.injEq, true_and] at same
      obtain ⟨rfl, rest⟩ := same
      obtain ⟨rfl, rfl⟩ := whereTokens_inj rest
      rfl
    | insert | update | delete => simp [tokens, verb] at same
  | insert table columns bound =>
    cases p with
    | insert other others names =>
      simp only [tokens, verb, Query.table, details, List.cons_append, List.nil_append,
        List.cons.injEq, Token.name.injEq, true_and] at same
      obtain ⟨rfl, rest⟩ := same
      obtain ⟨rfl, behind⟩ := joined_inj (by simp) ⟨by simp, by simp⟩ ⟨by simp, by simp⟩ rest
      simp only [List.cons.injEq, true_and] at behind
      obtain ⟨rfl, _⟩ := joined_inj (by simp [boundTokens]) ⟨by simp, by simp [boundTokens]⟩
        ⟨by simp, by simp [boundTokens]⟩ behind
      rfl
    | select | update | delete => simp [tokens, verb] at same
  | update table changes conditions =>
    cases p with
    | update other others more =>
      simp only [tokens, verb, Query.table, details, List.cons_append, List.nil_append,
        List.cons.injEq, Token.name.injEq, true_and] at same
      obtain ⟨rfl, rest⟩ := same
      obtain ⟨rfl, behind⟩ :=
        joined_inj Change.split (whereTokens_ends conditions) (whereTokens_ends more) rest
      obtain ⟨rfl, _⟩ := whereTokens_inj (e := .all) (f := .all) (congrArg (· ++ []) behind)
      rfl
    | select | insert | delete => simp [tokens, verb] at same
  | delete table conditions =>
    cases p with
    | delete other others =>
      simp only [tokens, verb, Query.table, details, List.cons_append, List.nil_append,
        List.cons.injEq, Token.name.injEq, true_and] at same
      obtain ⟨rfl, rest⟩ := same
      obtain ⟨rfl, _⟩ := whereTokens_inj (e := .all) (f := .all) (congrArg (· ++ []) rest)
      rfl
    | select | insert | update => simp [tokens, verb] at same

theorem Reads.unique {statement : String} {q p : Query} (first : Reads statement q)
    (second : Reads statement p) : q = p :=
  Query.tokens_inj (first.symm.trans second)

/-! ### What stands in a query -/

section Members

variable {token : Token}

theorem mem_joined {α : Type} {separator : Token} {part : α → List Token} {xs : List α}
    (member : token ∈ joined separator part xs) :
    token = separator ∨ ∃ x ∈ xs, token ∈ part x := by
  cases xs with
  | nil => cases member
  | cons x rest =>
    rcases List.mem_append.mp member with first | later
    · exact Or.inr ⟨x, List.mem_cons_self, first⟩
    · obtain ⟨y, listed, behind⟩ := List.mem_flatMap.mp later
      rcases List.mem_cons.mp behind with between | within
      · exact Or.inl between
      · exact Or.inr ⟨y, List.mem_cons_of_mem _ listed, within⟩

theorem mem_boundTokens {name : String} (member : token ∈ boundTokens name) :
    token ∈ fixedTokens ∨ token = .name name := by
  rcases List.mem_cons.mp member with rfl | last
  · exact Or.inl (by decide)
  · exact Or.inr (List.mem_singleton.mp last)

theorem Condition.mem_tokens {c : Condition} (member : token ∈ c.tokens) :
    token ∈ fixedTokens ∨ token = .name c.column ∨ token = .name c.bound := by
  simp only [Condition.tokens, List.mem_cons] at member
  rcases member with column | rfl | bound
  · exact Or.inr (Or.inl column)
  · exact Or.inl (by decide)
  · exact (mem_boundTokens bound).imp_right Or.inr

theorem Change.mem_tokens {c : Change} (member : token ∈ c.tokens) :
    token ∈ fixedTokens ∨ (∃ column ∈ c.columns, token = .name column) ∨ token = .name c.bound := by
  cases c with
  | put column bound =>
    rcases Condition.mem_tokens (c := ⟨column, bound⟩) member with fixed | named | bound
    · exact Or.inl fixed
    · exact Or.inr (Or.inl ⟨column, by simp [Change.columns], named⟩)
    · exact Or.inr (Or.inr bound)
  | keepIfNull column bound kept =>
    simp only [Change.tokens, List.mem_append, List.mem_cons, List.not_mem_nil, or_false] at member
    rcases member with (named | rfl | rfl | rfl) | bound | rfl | named | rfl
    · exact Or.inr (Or.inl ⟨column, by simp [Change.columns], named⟩)
    · exact Or.inl (by decide)
    · exact Or.inl (by decide)
    · exact Or.inl (by decide)
    · exact (mem_boundTokens bound).imp_right Or.inr
    · exact Or.inl (by decide)
    · exact Or.inr (Or.inl ⟨kept, by simp [Change.columns], named⟩)
    · exact Or.inl (by decide)

theorem mem_whereTokens {conditions : List Condition} (member : token ∈ whereTokens conditions) :
    token ∈ fixedTokens ∨ ∃ name ∈ conditions.map (·.column) ++ conditions.map (·.bound),
      token = .name name := by
  cases conditions with
  | nil => cases member
  | cons first rest =>
    rcases List.mem_cons.mp member with rfl | later
    · exact Or.inl (by decide)
    · rcases mem_joined later with rfl | ⟨c, listed, within⟩
      · exact Or.inl (by decide)
      · rcases Condition.mem_tokens within with fixed | column | bound
        · exact Or.inl fixed
        · exact Or.inr ⟨c.column, List.mem_append_left _ (List.mem_map_of_mem listed), column⟩
        · exact Or.inr ⟨c.bound, List.mem_append_right _ (List.mem_map_of_mem listed), bound⟩

theorem mem_extentTokens {extent : SqlExtent} (member : token ∈ extentTokens extent) :
    token ∈ fixedTokens := by
  have known : ∀ t ∈ extentTokens extent, t ∈ fixedTokens := by cases extent <;> decide
  exact known token member

theorem Query.mem_verb {q : Query} (member : token ∈ q.verb) : token ∈ fixedTokens := by
  have known : ∀ t ∈ q.verb, t ∈ fixedTokens := by cases q <;> simp only [verb] <;> decide
  exact known token member

theorem Query.mem_details {q : Query} (member : token ∈ q.details) :
    token ∈ fixedTokens ∨ ∃ name ∈ q.columns ++ q.bound, token = .name name := by
  cases q with
  | select table conditions extent =>
    rcases List.mem_append.mp member with rows | extents
    · exact mem_whereTokens rows
    · exact Or.inl (mem_extentTokens extents)
  | insert table columns bound =>
    simp only [details, List.mem_append, List.mem_cons, List.not_mem_nil, or_false] at member
    rcases member with rfl | columns | (rfl | rfl | rfl) | places | rfl
    · exact Or.inl (by decide)
    · rcases mem_joined columns with rfl | ⟨column, listed, here⟩
      · exact Or.inl (by decide)
      · exact Or.inr ⟨column, List.mem_append_left _ listed, List.mem_singleton.mp here⟩
    · exact Or.inl (by decide)
    · exact Or.inl (by decide)
    · exact Or.inl (by decide)
    · rcases mem_joined places with rfl | ⟨name, listed, here⟩
      · exact Or.inl (by decide)
      · exact (mem_boundTokens here).imp_right fun same =>
          ⟨name, List.mem_append_right _ listed, same⟩
    · exact Or.inl (by decide)
  | update table changes conditions =>
    simp only [details, List.mem_append, List.mem_cons] at member
    rcases member with rfl | changed | rows
    · exact Or.inl (by decide)
    · rcases mem_joined changed with rfl | ⟨change, listed, here⟩
      · exact Or.inl (by decide)
      · rcases Change.mem_tokens here with fixed | ⟨column, among, same⟩ | same
        · exact Or.inl fixed
        · exact Or.inr ⟨column, List.mem_append_left _ (List.mem_append_left _
            (List.mem_flatMap.mpr ⟨change, listed, among⟩)), same⟩
        · exact Or.inr ⟨change.bound, List.mem_append_right _ (List.mem_append_left _
            (List.mem_map_of_mem listed)), same⟩
    · rcases mem_whereTokens rows with fixed | ⟨name, listed, same⟩
      · exact Or.inl fixed
      · refine Or.inr ⟨name, ?_, same⟩
        rcases List.mem_append.mp listed with column | bound
        · exact List.mem_append_left _ (List.mem_append_right _ column)
        · exact List.mem_append_right _ (List.mem_append_right _ bound)
  | delete table conditions => exact mem_whereTokens member

/-- Beside its table, its columns and its placeholders, a query has fixed tokens only. -/
theorem Query.mem_tokens {q : Query} (member : token ∈ q.tokens) :
    token ∈ fixedTokens ∨ token = .name q.table ∨
      ∃ name ∈ q.columns ++ q.bound, token = .name name := by
  rcases List.mem_append.mp member with verb | rest
  · exact Or.inl (mem_verb verb)
  · rcases List.mem_cons.mp rest with table | details
    · exact Or.inr (Or.inl table)
    · exact (mem_details details).imp_right Or.inr

end Members

end Store

end ApiLoom
