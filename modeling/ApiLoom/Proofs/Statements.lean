import ApiLoom.Proofs.WriteRequests

/-!
# Statements as they run

The guard of a statement is put in when the template runs.  What counts of a
statement are its words: the first says what it does, the last ones on which rows.
-/

namespace ApiLoom.Template

open Script

/-! ### Words of statements -/

section Words

variable {w : World} {s : State}

/-- The words of a text when its references are replaced. -/
def World.words (w : World) (s : State) (cs : List Char) : List (List Char) :=
  Text.parts ' ' (Text.expand (w.reference s) none cs)

theorem words_append (xs ys : List Char) :
    w.words s (xs ++ ' ' :: ys) = w.words s xs ++ w.words s ys := by
  rw [World.words, Text.expand_append, Text.parts_append]
  rfl

theorem words_word {xs : List Char} (plain : '$' ∉ xs) (whole : ' ' ∉ xs) :
    w.words s xs = [xs] := by
  rw [World.words, Text.expand_plain plain, Text.parts_of_notMem whole]

theorem words_expand (text : String) :
    Text.words (w.expand s text) = (w.words s text.toList).map String.ofList := by
  simp [Text.words, World.expand, World.words]

end Words

/-! ### The condition of a statement -/

/-- What `$ownerGuard` stands for, where the owner counts or nobody does. -/
def rowGuard : Option String → String
  | some owner => " AND " ++ owner ++ " = :owner"
  | none => ""

/-- The columns of a condition, each with the placeholder it is compared with; the last first. -/
def conditionsOf (key : String) (active : Option String) : List (String × String) :=
  (active.map fun owner => (owner, ":owner")).toList ++ [(key, placeholder key)]

section Statements

variable {w : World} {s : State} {key : String} {active : Option String} {guarded : Bool}

def GuardBound (active : Option String) (guarded : Bool) (s : State) : Prop :=
  if guarded then s.local? "ownerGuard" = .text (rowGuard active) else active = none

theorem parts_rowGuard {xs : List Char} {owner : String} (whole : ' ' ∉ xs)
    (named : ' ' ∉ owner.toList) :
    Text.parts ' ' (xs ++ (rowGuard (some owner)).toList) =
      [xs, "AND".toList, owner.toList, "=".toList, ":owner".toList] := by
  have spelled : (rowGuard (some owner)).toList =
      ' ' :: ("AND".toList ++ ' ' :: (owner.toList ++ ' ' ::
        ("=".toList ++ ' ' :: ":owner".toList))) := by
    have lead : " AND ".toList = ' ' :: ("AND".toList ++ [' ']) := rfl
    have trail : " = :owner".toList = ' ' :: ("=".toList ++ ' ' :: ":owner".toList) := rfl
    simp only [rowGuard, String.toList_append, lead, trail, List.cons_append,
      List.append_assoc, List.nil_append]
  rw [spelled, Text.parts_append, Text.parts_append, Text.parts_append, Text.parts_append,
    Text.parts_of_notMem whole, Text.parts_of_notMem named,
    Text.parts_of_notMem (by decide : ' ' ∉ "AND".toList),
    Text.parts_of_notMem (by decide : ' ' ∉ "=".toList),
    Text.parts_of_notMem (by decide : ' ' ∉ ":owner".toList)]
  rfl

theorem guard_words (word : Text.IsWord key) (bound : GuardBound active guarded s)
    (named : ∀ owner, active = some owner → Text.IsWord owner) :
    w.words s ((placeholder key).toList ++ (SqlStatement.guard guarded).toList) =
      (placeholder key).toList :: match active with
        | some owner => ["AND".toList, owner.toList, "=".toList, ":owner".toList]
        | none => [] := by
  have spelled : (placeholder key).toList = ':' :: key.toList := by
    rw [placeholder, String.toList_append]
    rfl
  have plain : '$' ∉ (placeholder key).toList := by simp [spelled, word.plain]
  have whole : ' ' ∉ (placeholder key).toList := by simp [spelled, word.whole]
  cases guarded with
  | false =>
    obtain rfl : active = none := bound
    simp [SqlStatement.guard, words_word plain whole]
  | true =>
    have reference : w.reference s "ownerGuard".toList = (rowGuard active).toList :=
      reference_text (by decide) rfl bound
    have chars : (SqlStatement.guard true).toList = '$' :: "ownerGuard".toList := rfl
    rw [World.words, chars, Text.expand_of_notMem plain, Text.expand_reference (by decide),
      reference]
    cases active with
    | none =>
      have none : (rowGuard none).toList = [] := rfl
      rw [none, List.append_nil, Text.parts_of_notMem whole]
    | some owner => exact parts_rowGuard whole (named owner rfl).whole

theorem matching_words (word : Text.IsWord key) (bound : GuardBound active guarded s)
    (named : ∀ owner, active = some owner → Text.IsWord owner) (front : List Char) :
    w.words s (front ++ (SqlStatement.matching key guarded).toList) =
      w.words s front ++ ["WHERE".toList, key.toList, "=".toList] ++
        ((placeholder key).toList :: match active with
          | some owner => ["AND".toList, owner.toList, "=".toList, ":owner".toList]
          | none => []) := by
  have chars : (SqlStatement.matching key guarded).toList =
      ' ' :: ("WHERE".toList ++ ' ' :: (key.toList ++ ' ' :: ("=".toList ++ ' ' ::
        ((placeholder key).toList ++ (SqlStatement.guard guarded).toList)))) := by
    have spelled : SqlStatement.matching key guarded =
        " WHERE " ++ (key ++ " = " ++ placeholder key) ++ SqlStatement.guard guarded := rfl
    have lead : " WHERE ".toList = ' ' :: ("WHERE".toList ++ [' ']) := rfl
    have middle : " = ".toList = ' ' :: ("=".toList ++ [' ']) := rfl
    simp only [spelled, String.toList_append, lead, middle,
      List.cons_append, List.append_assoc, List.nil_append]
  rw [chars, words_append, words_append, words_append, words_append,
    guard_words word bound named, words_word word.plain word.whole,
    words_word (by decide : '$' ∉ "WHERE".toList) (by decide),
    words_word (by decide : '$' ∉ "=".toList) (by decide)]
  simp

theorem equalities_matching (front : List String) :
    Store.equalities (front ++ ["WHERE", key, "="] ++ (placeholder key :: match active with
        | some owner => ["AND", owner, "=", ":owner"]
        | none => [])).reverse = some (conditionsOf key active) := by
  cases active <;> simp [Store.equalities, conditionsOf]

theorem head?_words {verb : String} {text : String} {rest : List Char}
    (begins : text.toList = verb.toList ++ ' ' :: rest) (plain : '$' ∉ verb.toList)
    (whole : ' ' ∉ verb.toList) : (Text.words (w.expand s text)).head? = some verb := by
  rw [words_expand, begins, words_append, words_word plain whole]
  simp

/-- The condition at the end of a statement, as it runs. -/
theorem equalities_expand {text : String} (front : List Char) (word : Text.IsWord key)
    (bound : GuardBound active guarded s) (named : ∀ owner, active = some owner → Text.IsWord owner)
    (spelled : text.toList = front ++ (SqlStatement.matching key guarded).toList) :
    Store.equalities (Text.words (w.expand s text)).reverse = some (conditionsOf key active) := by
  rw [words_expand, spelled, matching_words word bound named,
    ← equalities_matching ((w.words s front).map String.ofList)]
  cases active <;> simp

theorem statementWrites_eq (verb : String) (rest : List Char) {text : String} {values : Value}
    {r : Record} (word : Text.IsWord key) (bound : GuardBound active guarded s)
    (named : ∀ owner, active = some owner → Text.IsWord owner)
    (writes : ["UPDATE", "DELETE"].contains verb = true) (plain : '$' ∉ verb.toList)
    (whole : ' ' ∉ verb.toList)
    (spelled : text.toList =
      (verb.toList ++ ' ' :: rest) ++ (SqlStatement.matching key guarded).toList) :
    Store.statementWrites values r (w.expand s text) =
      (conditionsOf key active).all fun c => Store.columnIs r c.1 (values.field c.2) := by
  have head : (Text.words (w.expand s text)).head? = some verb :=
    head?_words (by rw [spelled, List.append_assoc, List.cons_append]) plain whole
  rw [Store.statementWrites, head, equalities_expand _ word bound named spelled]
  simp only [Option.getD_some, writes, Bool.true_and, Option.any_some]

theorem delete_toList (table key : String) (guarded : Bool) :
    (SqlStatement.delete table key guarded).text.toList =
      ("DELETE".toList ++ ' ' :: ("FROM ".toList ++ table.toList)) ++
        (SqlStatement.matching key guarded).toList := by
  have spelled : (SqlStatement.delete table key guarded).text =
      "DELETE FROM " ++ table ++ SqlStatement.matching key guarded := rfl
  have lead : "DELETE FROM ".toList = "DELETE".toList ++ ' ' :: "FROM ".toList := rfl
  simp only [spelled, String.toList_append, lead, List.append_assoc, List.cons_append]

theorem update_toList (table : String) (assignments : List SqlAssignment) (key : String)
    (guarded : Bool) : (SqlStatement.update table assignments key guarded).text.toList =
      ("UPDATE".toList ++ ' ' :: (table.toList ++ (" SET ".toList ++
        (SqlStatement.commas (assignments.map SqlStatement.assignmentText)).toList))) ++
          (SqlStatement.matching key guarded).toList := by
  have spelled : (SqlStatement.update table assignments key guarded).text =
      "UPDATE " ++ table ++ " SET " ++
        SqlStatement.commas (assignments.map SqlStatement.assignmentText) ++
          SqlStatement.matching key guarded := rfl
  have lead : "UPDATE ".toList = "UPDATE".toList ++ [' '] := rfl
  simp only [spelled, String.toList_append, lead, List.append_assoc, List.cons_append,
    List.nil_append]

theorem delete_writes {table : String} {values : Value} {r : Record}
    (word : Text.IsWord key) (bound : GuardBound active guarded s)
    (named : ∀ owner, active = some owner → Text.IsWord owner) :
    Store.statementWrites values r (w.expand s (SqlStatement.delete table key guarded).text) =
      (conditionsOf key active).all fun c => Store.columnIs r c.1 (values.field c.2) :=
  statementWrites_eq "DELETE" _ word bound named (by decide) (by decide) (by decide)
    (delete_toList table key guarded)

theorem update_writes {table : String} {assignments : List SqlAssignment} {values : Value}
    {r : Record} (word : Text.IsWord key) (bound : GuardBound active guarded s)
    (named : ∀ owner, active = some owner → Text.IsWord owner) :
    Store.statementWrites values r
        (w.expand s (SqlStatement.update table assignments key guarded).text) =
      (conditionsOf key active).all fun c => Store.columnIs r c.1 (values.field c.2) :=
  statementWrites_eq "UPDATE" _ word bound named (by decide) (by decide) (by decide)
    (update_toList table assignments key guarded)

theorem select_reads {table : String} {column : Option String} {extent : SqlExtent}
    {values : Value} {r : Record} :
    Store.statementWrites values r
      (w.expand s (SqlStatement.select table column guarded extent).text) = false := by
  have head : (Text.words (w.expand s
      (SqlStatement.select table column guarded extent).text)).head? = some "SELECT" := by
    have spelled : (SqlStatement.select table column guarded extent).text =
        "SELECT * FROM " ++ table ++ (match column with
          | some k => SqlStatement.matching k guarded
          | none => "") ++ SqlStatement.extentText extent := rfl
    have lead : "SELECT * FROM ".toList = "SELECT".toList ++ ' ' :: "* FROM ".toList := rfl
    exact head?_words (by simp only [spelled, String.toList_append, lead,
      List.append_assoc, List.cons_append]; rfl) (by decide) (by decide)
  rw [Store.statementWrites, head]
  simp

end Statements

end ApiLoom.Template
