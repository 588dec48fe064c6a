import ApiLoom.Proofs.Queries
import ApiLoom.Proofs.Statements

/-!
# Statements as they are sent

A run of a template puts the condition on the owner, or nothing, in the place of the guard of
a statement; nothing else of the text is replaced.  What is sent is read as the query that the
statement stands for.
-/

namespace ApiLoom

/-- The text stands for itself as a name. -/
structure Text.IsFilledName (s : String) : Prop where
  name : IsName s
  filled : s ≠ ""

theorem Text.IsFilledName.plain {s : String} (named : IsFilledName s) : '$' ∉ s.toList :=
  fun member => absurd (named.name _ member) (by decide)

theorem Text.isFilledName_of_isIdentifier {s : String} (identifier : isIdentifier s = true) :
    IsFilledName s :=
  ⟨isName_of_isIdentifier identifier, (isWord_of_isIdentifier identifier).filled⟩

namespace SqlStatement

open Store Template
open Text (IsFilledName)

def isGuarded : SqlStatement → Bool
  | select _ _ guarded _ => guarded
  | insert .. => false
  | update _ _ _ guarded => guarded
  | delete _ _ guarded => guarded

/-- The text of a statement, in which `narrowing` stands for its guard. -/
def sent (narrowing : String) : SqlStatement → String
  | select table key _ extent =>
    let rows := match key with
      | some k => " WHERE " ++ (binding k ++ narrowing)
      | none => ""
    "SELECT * FROM " ++ (table ++ (rows ++ extentText extent))
  | insert table columns =>
    "INSERT INTO " ++ (table ++ (" (" ++ (commas columns ++ (") VALUES (" ++
      (commas (columns.map placeholder) ++ ")")))))
  | update table assignments key _ =>
    "UPDATE " ++ (table ++ (" SET " ++ (commas (assignments.map assignmentText) ++
      (" WHERE " ++ (binding key ++ narrowing)))))
  | delete table key _ => "DELETE FROM " ++ (table ++ (" WHERE " ++ (binding key ++ narrowing)))

/-! ### The guard -/

theorem sent_guard (st : SqlStatement) : st.sent (guard st.isGuarded) = st.text := by
  cases st with
  | select table key guarded extent =>
    have spelled : (select table key guarded extent).text = "SELECT * FROM " ++ table ++
        (match key with | some k => matching k guarded | none => "") ++ extentText extent := rfl
    rw [spelled]
    cases key <;> simp [sent, isGuarded, matching, String.append_assoc]
  | insert table columns =>
    have spelled : (insert table columns).text = "INSERT INTO " ++ table ++ " (" ++
        commas columns ++ ") VALUES (" ++ commas (columns.map placeholder) ++ ")" := rfl
    rw [spelled]
    simp [sent, String.append_assoc]
  | update table assignments key guarded =>
    have spelled : (update table assignments key guarded).text = "UPDATE " ++ table ++ " SET " ++
        commas (assignments.map assignmentText) ++ matching key guarded := rfl
    rw [spelled]
    simp [sent, isGuarded, matching, String.append_assoc]
  | delete table key guarded =>
    have spelled : (delete table key guarded).text =
        "DELETE FROM " ++ table ++ matching key guarded := rfl
    rw [spelled]
    simp [sent, isGuarded, matching, String.append_assoc]

theorem commas_plain {parts : List String} (plain : ∀ part ∈ parts, '$' ∉ part.toList) :
    '$' ∉ (commas parts).toList := by
  induction parts with
  | nil => simp [commas]
  | cons part rest ih =>
    obtain ⟨first, later⟩ := List.forall_mem_cons.mp plain
    cases rest with
    | nil => simpa [commas] using first
    | cons other others =>
      have rest := ih later
      simp_all [commas, String.intercalate_cons_cons]

theorem binding_plain {key : String} (plain : '$' ∉ key.toList) : '$' ∉ (binding key).toList := by
  simp [binding, placeholder, plain]

/-- A statement has at most one place for its guard, at its end or before a blank, and no
reference beside. -/
theorem sent_parts {st : SqlStatement} (names : ∀ n ∈ st.table :: st.columns, '$' ∉ n.toList) :
    ∃ front behind : List Char, '$' ∉ front ∧ '$' ∉ behind ∧
      (behind = [] ∨ behind.head? = some ' ') ∧
        ((∀ narrowing, (st.sent narrowing).toList = front ++ (narrowing.toList ++ behind)) ∨
          ∀ narrowing, (st.sent narrowing).toList = front) := by
  obtain ⟨table, columns⟩ := List.forall_mem_cons.mp names
  cases st with
  | select t key guarded extent =>
    have named : '$' ∉ t.toList := table
    have extents : '$' ∉ (extentText extent).toList ∧
        ((extentText extent).toList = [] ∨ (extentText extent).toList.head? = some ' ') := by
      cases extent <;> decide
    cases key with
    | none =>
      exact ⟨("SELECT * FROM " ++ (t ++ extentText extent)).toList, [],
        by simp [named, extents.1], by simp, Or.inl rfl, Or.inr fun _ => by simp [sent]⟩
    | some k =>
      have key := binding_plain (columns k (by simp [SqlStatement.columns]))
      exact ⟨("SELECT * FROM " ++ (t ++ (" WHERE " ++ binding k))).toList,
        (extentText extent).toList, by simp [named, key], extents.1, extents.2,
        Or.inl fun _ => by simp [sent]⟩
  | insert t columns' =>
    have named : '$' ∉ t.toList := table
    have names : '$' ∉ (commas columns').toList := commas_plain columns
    have places : '$' ∉ (commas (columns'.map placeholder)).toList :=
      commas_plain fun part member => by
        obtain ⟨c, listed, rfl⟩ := List.mem_map.mp member
        simpa [placeholder] using columns c listed
    exact ⟨(sent "" (.insert t columns')).toList, [], by simp [sent, named, names, places],
      by simp, Or.inl rfl, Or.inr fun _ => rfl⟩
  | update t assignments key guarded =>
    have named : '$' ∉ t.toList := table
    have changes : '$' ∉ (commas (assignments.map assignmentText)).toList := by
      refine commas_plain fun part member => ?_
      obtain ⟨a, listed, rfl⟩ := List.mem_map.mp member
      have plain := columns a.column (List.mem_append_left _ (List.mem_map_of_mem listed))
      cases a <;> simpa [assignmentText, binding, placeholder, SqlAssignment.column] using plain
    have key' := binding_plain (columns key (by simp [SqlStatement.columns]))
    exact ⟨("UPDATE " ++ (t ++ (" SET " ++ (commas (assignments.map assignmentText) ++
        (" WHERE " ++ binding key))))).toList, [], by simp [named, changes, key'], by simp,
      Or.inl rfl, Or.inl fun _ => by simp [sent]⟩
  | delete t key guarded =>
    have named : '$' ∉ t.toList := table
    have key' := binding_plain (columns key (by simp [SqlStatement.columns]))
    exact ⟨("DELETE FROM " ++ (t ++ (" WHERE " ++ binding key))).toList, [],
      by simp [named, key'], by simp, Or.inl rfl, Or.inl fun _ => by simp [sent]⟩

section Guard

variable {w : World} {s : State} {owner : Option String}

theorem expand_guard {guarded : Bool} {behind : List Char}
    (bound : guarded = true → s.local? "ownerGuard" = .text (rowGuard owner))
    (known : '$' ∉ behind) (blank : behind = [] ∨ behind.head? = some ' ') :
    Text.expand (w.reference s) none ((guard guarded).toList ++ behind) =
      (rowGuard (if guarded then owner else none)).toList ++ behind := by
  cases guarded with
  | false => exact Text.expand_plain known
  | true =>
    have reference : w.reference s "ownerGuard".toList = (rowGuard owner).toList :=
      reference_text (by decide) rfl (bound rfl)
    have chars : (guard true).toList = '$' :: "ownerGuard".toList := rfl
    rw [chars, if_pos rfl, ← reference]
    rcases blank with rfl | spaced
    · rw [List.append_nil, List.append_nil, Text.expand_reference (by decide)]
    · obtain ⟨more, rfl⟩ := List.head?_eq_some_iff.mp spaced
      rw [Text.expand_append, Text.expand_reference (by decide),
        Text.expand_plain fun member => known (List.mem_cons_of_mem _ member)]

/-- A run of a template puts the condition on the owner in the place of the guard. -/
theorem expand_text {st : SqlStatement} (names : ∀ n ∈ st.table :: st.columns, IsFilledName n)
    (bound : st.isGuarded = true → s.local? "ownerGuard" = .text (rowGuard owner)) :
    w.expand s st.text = st.sent (rowGuard (if st.isGuarded then owner else none)) := by
  obtain ⟨front, behind, plain, known, blank, parts⟩ :=
    sent_parts fun n member => (names n member).plain
  rw [World.expand, ← String.toList_inj, String.toList_ofList, ← sent_guard]
  rcases parts with placed | fixed
  · rw [placed, placed, Text.expand_of_notMem plain, expand_guard bound known blank]
  · rw [fixed, fixed, Text.expand_plain plain]

end Guard

/-! ### The reading -/

/-- The conditions on a row of this key, which is the owner's where one is given. -/
def rowsOf (key : String) (owner : Option String) : List Condition :=
  ⟨key, key⟩ :: (owner.map fun name => ⟨name, "owner"⟩).toList

def changeOf : SqlAssignment → Change
  | .keepIfNull c => .keepIfNull c c c
  | .put c => .put c c

/-- What a statement says, with the owner for whom it is narrowed. -/
def query (owner : Option String) : SqlStatement → Query
  | select table key _ extent => .select table (key.elim [] fun k => rowsOf k owner) extent
  | insert table columns => .insert table columns columns
  | update table assignments key _ =>
    .update table (assignments.map changeOf) (rowsOf key owner)
  | delete table key _ => .delete table (rowsOf key owner)

section Reading

variable {key : String} {owner : Option String} {rest : String}

theorem tokens_bound (named : IsFilledName key) (apart : Apart rest) :
    tokens (placeholder key ++ rest) = boundTokens key ++ tokens rest := by
  rw [placeholder, String.append_assoc, tokens_closed (by decide),
    tokens_name named.name named.filled apart]
  rfl

theorem tokens_binding (named : IsFilledName key) (apart : Apart rest) :
    tokens (binding key ++ rest) = Condition.tokens ⟨key, key⟩ ++ tokens rest := by
  rw [binding, String.append_assoc, String.append_assoc,
    tokens_name named.name named.filled (.append (by decide) _), tokens_closed (by decide),
    tokens_bound named apart]
  rfl

theorem rowGuard_apart (owner : Option String) (apart : Apart rest) :
    Apart (rowGuard owner ++ rest) := by
  cases owner with
  | none => simpa [rowGuard] using apart
  | some name =>
    rw [rowGuard, String.append_assoc, String.append_assoc]
    exact .append (by decide) _

/-- The conditions on a row are read off the text behind the table or the changes. -/
theorem tokens_rows (named : IsFilledName key) (owned : ∀ name ∈ owner, IsFilledName name)
    (apart : Apart rest) :
    tokens (" WHERE " ++ (binding key ++ (rowGuard owner ++ rest))) =
      whereTokens (rowsOf key owner) ++ tokens rest := by
  rw [tokens_closed (by decide), tokens_binding named (rowGuard_apart owner apart)]
  cases owner with
  | none => simp [rowGuard, rowsOf, whereTokens, joined]; rfl
  | some name =>
    have named := owned name rfl
    have placed : " = :owner" = " = :" ++ "owner" := rfl
    rw [rowGuard, placed, String.append_assoc, String.append_assoc, String.append_assoc,
      tokens_closed (by decide), tokens_name named.name named.filled (.append (by decide) _),
      tokens_closed (by decide), tokens_name (by decide) (by decide) apart]
    rfl

theorem tokens_assignment {a : SqlAssignment} (named : IsFilledName a.column)
    (apart : Apart rest) :
    tokens (assignmentText a ++ rest) = (changeOf a).tokens ++ tokens rest := by
  cases a with
  | put c => exact tokens_binding named apart
  | keepIfNull c =>
    have named : IsFilledName c := named
    have spelled : assignmentText (.keepIfNull c) =
        c ++ (" = COALESCE(" ++ (placeholder c ++ (", " ++ (c ++ ")")))) := by
      simp [assignmentText, String.append_assoc]
    simp only [spelled, String.append_assoc]
    rw [tokens_name named.name named.filled (.append (by decide) _), tokens_closed (by decide),
      tokens_bound named (.append (by decide) _), tokens_closed (by decide),
      tokens_name named.name named.filled (.append (by decide) _), tokens_closed (by decide)]
    rfl

/-- A list of parts is read part by part. -/
theorem tokens_commas {α : Type} (text : α → String) (part : α → List Token) {xs : List α}
    (read : ∀ x ∈ xs, ∀ rest, Apart rest → tokens (text x ++ rest) = part x ++ tokens rest)
    (apart : Apart rest) :
    tokens (commas (xs.map text) ++ rest) = joined (.sign ',') part xs ++ tokens rest := by
  induction xs with
  | nil => simp [commas, joined]
  | cons x others ih =>
    obtain ⟨first, later⟩ := List.forall_mem_cons.mp read
    cases others with
    | nil => simp [commas, joined, first rest apart]
    | cons y others =>
      have behind := ih later
      rw [commas, List.map_cons, List.map_cons, String.intercalate_cons_cons, String.append_assoc,
        String.append_assoc, first _ (.append (by decide) _), tokens_closed (by decide)]
      rw [commas, List.map_cons] at behind
      rw [behind]
      simp only [joined, List.flatMap_cons, List.append_assoc, List.cons_append]
      rfl

theorem extentText_reads (extent : SqlExtent) :
    Apart (extentText extent) ∧ tokens (extentText extent) = extentTokens extent := by
  cases extent with
  | all => exact ⟨.empty, rfl⟩
  | page | first => exact ⟨by decide, by decide⟩

/-- What is sent is read as what the statement stands for. -/
theorem sent_reads {st : SqlStatement} (names : ∀ n ∈ st.table :: st.columns, IsFilledName n)
    (owned : ∀ name ∈ owner, IsFilledName name) :
    Reads (st.sent (rowGuard owner)) (st.query owner) := by
  obtain ⟨table, columns⟩ := List.forall_mem_cons.mp names
  have empty : tokens "" = [] := rfl
  have column : ∀ c ∈ st.columns, ∀ rest, Apart rest →
      tokens (c ++ rest) = [.name c] ++ tokens rest :=
    fun c member rest apart => tokens_name (columns c member).name (columns c member).filled apart
  cases st with
  | select t key guarded extent =>
    have named : IsFilledName t := table
    obtain ⟨apart, read⟩ := extentText_reads extent
    cases key with
    | none =>
      rw [Reads, sent, tokens_closed (by decide), String.empty_append,
        tokens_name named.name named.filled apart, read]
      rfl
    | some k =>
      have rows := tokens_rows (columns k (by simp [SqlStatement.columns])) owned apart
      simp only [Reads, sent, String.append_assoc]
      rw [tokens_closed (by decide), tokens_name named.name named.filled (.append (by decide) _),
        rows, read]
      rfl
  | insert t columns' =>
    have named : IsFilledName t := table
    have names : ∀ rest, Apart rest → tokens (commas columns' ++ rest) =
        joined (.sign ',') (fun c => [.name c]) columns' ++ tokens rest := by
      intro rest apart
      have read := tokens_commas id _ column apart
      rwa [List.map_id] at read
    have places : tokens (commas (columns'.map placeholder) ++ ")") =
        joined (.sign ',') boundTokens columns' ++ tokens ")" :=
      tokens_commas placeholder boundTokens
        (fun c member rest apart => tokens_bound (columns c member) apart) (by decide)
    rw [Reads, sent, tokens_closed (by decide),
      tokens_name named.name named.filled (.append (by decide) _), tokens_closed (by decide),
      names _ (.append (by decide) _), tokens_closed (by decide), places]
    rfl
  | update t assignments key guarded =>
    have named : IsFilledName t := table
    have rows := tokens_rows (columns key (by simp [SqlStatement.columns])) owned Apart.empty
    rw [String.append_empty] at rows
    have changes : ∀ rest, Apart rest → tokens (commas (assignments.map assignmentText) ++ rest) =
        joined (.sign ',') Change.tokens (assignments.map changeOf) ++ tokens rest := by
      intro rest apart
      rw [joined_map]
      refine tokens_commas assignmentText (Change.tokens ∘ changeOf) (fun a member rest apart => ?_)
        apart
      exact tokens_assignment (columns a.column
        (List.mem_append_left _ (List.mem_map_of_mem member))) apart
    rw [Reads, sent, tokens_closed (by decide),
      tokens_name named.name named.filled (.append (by decide) _), tokens_closed (by decide),
      changes _ (.append (by decide) _), rows, empty, List.append_nil]
    rfl
  | delete t key guarded =>
    have named : IsFilledName t := table
    have rows := tokens_rows (columns key (by simp [SqlStatement.columns])) owned Apart.empty
    rw [String.append_empty] at rows
    rw [Reads, sent, tokens_closed (by decide),
      tokens_name named.name named.filled (.append (by decide) _), rows, empty, List.append_nil]
    rfl

/-! ### What a query names -/

theorem query_table (st : SqlStatement) : (st.query owner).table = st.table := by
  cases st <;> rfl

theorem mem_rowsOf {c : Condition} (member : c ∈ rowsOf key owner) :
    c = ⟨key, key⟩ ∨ ∃ name ∈ owner, c = ⟨name, "owner"⟩ := by
  rcases List.mem_cons.mp member with rfl | narrowed
  · exact Or.inl rfl
  · obtain ⟨name, given, rfl⟩ := Option.map_eq_some_iff.mp (Option.mem_toList.mp narrowed)
    exact Or.inr ⟨name, given, rfl⟩

/-- A query has the columns of its statement, and the owner property where it is narrowed. -/
theorem mem_query_columns {st : SqlStatement} {column : String}
    (member : column ∈ (st.query owner).columns) : column ∈ st.columns ∨ column ∈ owner := by
  have rows {key : String} (member : column ∈ (rowsOf key owner).map (·.column)) :
      column = key ∨ column ∈ owner := by
    obtain ⟨c, listed, rfl⟩ := List.mem_map.mp member
    rcases mem_rowsOf listed with rfl | ⟨name, given, rfl⟩
    · exact Or.inl rfl
    · exact Or.inr given
  cases st with
  | select table key guarded extent =>
    cases key with
    | none => cases member
    | some k => exact (rows member).imp_left fun same => by simp [SqlStatement.columns, same]
  | insert => exact Or.inl member
  | update table assignments key guarded =>
    rcases List.mem_append.mp member with changed | among
    · obtain ⟨change, listed, within⟩ := List.mem_flatMap.mp changed
      obtain ⟨a, assigned, rfl⟩ := List.mem_map.mp listed
      have same : column = a.column := by
        cases a <;> simpa [changeOf, Change.columns, SqlAssignment.column] using within
      exact Or.inl (List.mem_append_left _ (same ▸ List.mem_map_of_mem assigned))
    · exact (rows among).imp_left fun same => by simp [SqlStatement.columns, same]
  | delete table key guarded =>
    exact (rows member).imp_left fun same => by simp [SqlStatement.columns, same]

/-- The placeholders have the names of columns, but for the one of the owner. -/
theorem mem_query_bound {st : SqlStatement} {name : String}
    (member : name ∈ (st.query owner).bound) : name ∈ st.columns ∨ name = "owner" := by
  have rows {key : String} (member : name ∈ (rowsOf key owner).map (·.bound)) :
      name = key ∨ name = "owner" := by
    obtain ⟨c, listed, rfl⟩ := List.mem_map.mp member
    rcases mem_rowsOf listed with rfl | ⟨name, _, rfl⟩
    · exact Or.inl rfl
    · exact Or.inr rfl
  cases st with
  | select table key guarded extent =>
    cases key with
    | none => cases member
    | some k => exact (rows member).imp_left fun same => by simp [SqlStatement.columns, same]
  | insert => exact Or.inl member
  | update table assignments key guarded =>
    rcases List.mem_append.mp member with changed | among
    · obtain ⟨change, listed, rfl⟩ := List.mem_map.mp changed
      obtain ⟨a, assigned, rfl⟩ := List.mem_map.mp listed
      have same : (changeOf a).bound = a.column := by cases a <;> rfl
      exact Or.inl (List.mem_append_left _ (same ▸ List.mem_map_of_mem assigned))
    · exact (rows among).imp_left fun same => by simp [SqlStatement.columns, same]
  | delete table key guarded =>
    exact (rows member).imp_left fun same => by simp [SqlStatement.columns, same]

end Reading

end SqlStatement

end ApiLoom
