import ApiLoom.Proofs.Columns
import ApiLoom.Proofs.Keys

/-!
# Placeholders

The statements of a request name placeholders, and its variable map binds them.  Columns and
keys lend them their names, which may meet each other, the bounds of a page, or the owner, to
whom a run may narrow its statements.
-/

namespace ApiLoom

namespace Store

/-! ### Placeholders of a statement -/

/-- The names that stand right behind a colon; `marked` says that there is one just before. -/
def boundNames (marked : Bool) : List Token → List String
  | [] => []
  | .name text :: rest => (if marked then [text] else []) ++ boundNames false rest
  | .sign c :: rest => boundNames (c = ':') rest

def placeholdersOf (statement : String) : List String :=
  (boundNames false (tokens statement)).map placeholder

/-- The placeholders of a page. -/
def extentBound : SqlExtent → List String
  | .page => ["limit", "offset"]
  | .all | .first => []

def Query.extentBound : Query → List String
  | select _ _ extent => Store.extentBound extent
  | insert .. | update .. | delete .. => []

section BoundNames

variable {α : Type} {part : α → List Token} {names : α → List String}

theorem boundNames_bound (name : String) (rest : List Token) :
    boundNames false (boundTokens name ++ rest) = [name] ++ boundNames false rest := by
  simp [boundTokens, boundNames]

theorem boundNames_condition (c : Condition) (rest : List Token) :
    boundNames false (c.tokens ++ rest) = [c.bound] ++ boundNames false rest := by
  simp [Condition.tokens, boundTokens, boundNames]

theorem boundNames_change (c : Change) (rest : List Token) :
    boundNames false (c.tokens ++ rest) = [c.bound] ++ boundNames false rest := by
  cases c <;> simp [Change.tokens, Change.bound, boundTokens, boundNames]

theorem boundNames_joined (separator : Token)
    (between : ∀ r, boundNames false (separator :: r) = boundNames false r)
    (each : ∀ x r, boundNames false (part x ++ r) = names x ++ boundNames false r) (xs : List α)
    (rest : List Token) :
    boundNames false (joined separator part xs ++ rest) =
      xs.flatMap names ++ boundNames false rest := by
  have later : ∀ ys : List α, boundNames false ((ys.flatMap fun y => separator :: part y) ++ rest) =
      ys.flatMap names ++ boundNames false rest := by
    intro ys
    induction ys with
    | nil => rfl
    | cons y others ih => simp [between, each, ih]
  cases xs with
  | nil => rfl
  | cons x others => rw [joined, List.append_assoc, each, later, List.flatMap_cons,
      List.append_assoc]

theorem boundNames_where (conditions : List Condition) (rest : List Token) :
    boundNames false (whereTokens conditions ++ rest) =
      conditions.map (·.bound) ++ boundNames false rest := by
  cases conditions with
  | nil => rfl
  | cons c others =>
    have read := boundNames_joined (.name "AND") (fun _ => rfl) boundNames_condition (c :: others)
      rest
    rw [← List.map_eq_flatMap] at read
    simpa [whereTokens, boundNames] using read

theorem Query.boundNames_tokens (q : Query) :
    boundNames false q.tokens = q.bound ++ q.extentBound := by
  cases q with
  | select table conditions extent =>
    have read := boundNames_where conditions (extentTokens extent)
    have extents : boundNames false (extentTokens extent) = Store.extentBound extent := by
      cases extent <;> rfl
    simpa [tokens, verb, details, boundNames, Query.bound, Query.extentBound, extents] using read
  | insert table columns bound =>
    have listed := boundNames_joined (.sign ',') (fun _ => rfl)
      (fun (column : String) r => (rfl : boundNames false ([.name column] ++ r) = [] ++ _)) columns
      ([.sign ')', .name "VALUES", .sign '('] ++
        (joined (.sign ',') boundTokens bound ++ [.sign ')']))
    have placed := boundNames_joined (.sign ',') (fun _ => rfl) boundNames_bound bound [.sign ')']
    rw [List.flatMap_singleton'] at placed
    simp only [List.cons_append, List.nil_append] at listed
    simp [tokens, verb, details, boundNames, listed, placed, Query.bound, Query.extentBound]
  | update table changes conditions =>
    have changed := boundNames_joined (.sign ',') (fun _ => rfl) boundNames_change changes
      (whereTokens conditions)
    rw [← List.map_eq_flatMap] at changed
    have rows := boundNames_where conditions []
    rw [List.append_nil] at rows
    simp [tokens, verb, details, boundNames, changed, rows, Query.bound, Query.extentBound]
  | delete table conditions =>
    have rows := boundNames_where conditions []
    rw [List.append_nil] at rows
    simp [tokens, verb, details, boundNames, rows, Query.bound, Query.extentBound]

theorem Reads.placeholdersOf {statement : String} {q : Query} (read : Reads statement q) :
    placeholdersOf statement = (q.bound ++ q.extentBound).map placeholder := by
  rw [Store.placeholdersOf, read, q.boundNames_tokens]

end BoundNames

end Store

namespace Template

open Script Store

/-! ### Names in a request -/

/-- What an object holds at a key, whatever its template runs on. -/
def Body.part? (key : String) : Body → Option Body
  | .object members => members.findSome? fun
    | .always name body => if name = key then some body else none
    | .provided .. => none
  | .value _ | .rows _ => none

/-- The keys of an object as it is sent, each as often as it stands there. -/
def Body.keys (w : World) (s : State) : Body → List String
  | .object members => (evalMembers w s members).map Prod.fst
  | .value _ | .rows _ => []

def Body.bound (w : World) (s : State) (body : Body) : List String :=
  ((body.part? "variableMap").map (Body.keys w s)).getD []

def Body.statements (w : World) (s : State) (body : Body) : List String :=
  ((body.eval w s).field "statements").items.filterMap Value.text?

/-- The names that are bound are the placeholders of the statements, each bound once, and no
column is inserted twice. -/
structure Body.NamesApart (body : Body) (w : World) (s : State) : Prop where
  bound : ∀ name, name ∈ body.bound w s ↔
    ∃ statement ∈ body.statements w s, name ∈ placeholdersOf statement
  once : (body.bound w s).Nodup
  inserted : ∀ statement ∈ body.statements w s, ∀ table columns names,
    Reads statement (.insert table columns names) → columns.Nodup

end Template

open Template Template.Script Store
open Text (IsFilledName)

/-- The template ends in sending a body, the names of which are apart in exactly those runs of
which `clear` holds, as far as the caller was let in provisionally or not. -/
def RequestPlan.NamesApartIff (plan : RequestPlan) (config : Config) (clear : Bool → Prop) : Prop :=
  ∃ front body, ofRequest config plan = front ++ acts [.send body] ∧ ∀ w s t,
    front.exec w s = .next t →
      (body.NamesApart w t ↔ clear (t.flagged needsOwnershipCheck))

/-- The placeholder of an owner to whom statements are narrowed. -/
def ownerName (owner : Option String) : List String := (owner.map fun _ => "owner").toList

/-- The owner to whom a run narrows the statements. -/
def SqlStatements.narrowedTo (q : SqlStatements) (flagged : Bool) : Option String :=
  if flagged then q.ownerGuard else none

/-- The placeholders of a statement, by the names of what they stand for. -/
def SqlStatement.binds (owner : Option String) (st : SqlStatement) : List String :=
  (st.query owner).bound ++ (st.query owner).extentBound

/-- The owner to whom a statement is narrowed. -/
def SqlStatement.narrowing (owner : Option String) (st : SqlStatement) : Option String :=
  if st.isGuarded then owner else none

namespace SqlStatement

variable {table key : String} {guarded : Bool} {owner : Option String}

theorem rowsOf_bound : (rowsOf key owner).map (·.bound) = key :: ownerName owner := by
  cases owner <;> rfl

@[simp] theorem insert_binds (columns : List String) :
    (insert table columns).binds owner = columns :=
  List.append_nil columns

@[simp] theorem select_binds (extent : SqlExtent) :
    (select table (some key) guarded extent).binds owner =
      key :: ownerName owner ++ extentBound extent :=
  congrArg (· ++ extentBound extent) rowsOf_bound

@[simp] theorem update_binds (assignments : List SqlAssignment) :
    (update table assignments key guarded).binds owner =
      assignments.map SqlAssignment.column ++ key :: ownerName owner := by
  have changed : (assignments.map changeOf).map Change.bound =
      assignments.map SqlAssignment.column := by
    rw [List.map_map]
    exact List.map_congr_left fun a _ => by cases a <;> rfl
  simp [binds, query, Query.bound, Query.extentBound, changed, rowsOf_bound]

@[simp] theorem delete_binds : (delete table key guarded).binds owner = key :: ownerName owner :=
  (List.append_nil _).trans rowsOf_bound

end SqlStatement

/-- The request has statements on a model and binds columns, which are the placeholders of the
statements whether these are narrowed to an owner or not. -/
structure SqlStatements.Binds (q : SqlStatements) (m : Model) (statements : List SqlStatement)
    (columns : List String) : Prop where
  written : q.statements = statements.map SqlStatement.text
  kept : ∀ st ∈ statements, st.KeepsTo m q.ownerGuard
  owner : ∀ owner ∈ q.ownerGuard, m.hasProperty owner = true
  placed : q.placeholders.map (·.name) = columns.map placeholder
  met : ∀ flagged name, name ∈ columns ++ ownerName (q.narrowedTo flagged) ↔
    ∃ st ∈ statements, name ∈ st.binds (st.narrowing (q.narrowedTo flagged))
  inserted : ∀ table names, .insert table names ∈ statements → names = columns

/-! ### What runs send -/

section Runs

variable {m : Model} {config : Config} {q : SqlStatements} {w : World} {s t : State}
  {statements : List SqlStatement} {columns : List String}

theorem exec_append_next {first second : Script} (run : (first ++ second).exec w s = .next t) :
    ∃ u, first.exec w s = .next u ∧ second.exec w u = .next t := by
  rw [exec_append] at run
  cases step : first.exec w s with
  | next u => exact ⟨u, rfl, by simpa [step] using run⟩
  | left | stopped | refused | failed => simp [step] at run

theorem ownerMembers_keys {guard : Option String} (filled : ∀ owner ∈ guard, owner ≠ "") :
    (evalMembers w s (ownerMembers guard)).map Prod.fst =
      (ownerName (if s.flagged needsOwnershipCheck then guard else none)).map placeholder := by
  cases guard with
  | none => simp [ownerMembers, nonEmpty, evalMembers, ownerName]
  | some owner =>
    have given : nonEmpty (some owner) = some owner :=
      nonEmpty_eq_some_iff.mpr ⟨rfl, filled owner rfl⟩
    simp only [ownerMembers, given, evalMembers, eval_flagged]
    split
    · simp [ownerName, placeholder]
    · simp [ownerName]

theorem bound_eq (filled : ∀ owner ∈ q.ownerGuard, owner ≠ "")
    (placed : q.placeholders.map (·.name) = columns.map placeholder) :
    (versioned config (sqlMembers q)).bound w s = (columns ++
      ownerName (q.narrowedTo (s.flagged needsOwnershipCheck))).map placeholder := by
  have part : (versioned config (sqlMembers q)).part? "variableMap" =
      some (.object ((q.placeholders.map fun v =>
        .always v.name (.value (Term.verbatim v.expression).asJson)) ++
          ownerMembers q.ownerGuard)) := by
    simp [versioned, sqlMembers, Body.part?]
  rw [Body.bound, part, Option.map_some, Option.getD_some, Body.keys, evalMembers_append,
    List.map_append, boundValues_eval, ownerMembers_keys filled, List.map_append, ← placed,
    boundValues, List.map_map]
  rfl

/-- The names of a body are apart where it binds no name twice. -/
theorem namesApart_iff (names : ∀ st ∈ statements, ∀ n ∈ st.table :: st.columns, IsFilledName n)
    (guarded : ∀ st ∈ statements, st.isGuarded = true → q.ownerGuard.isSome = true)
    (owned : ∀ owner ∈ q.ownerGuard, IsFilledName owner)
    (bound : GuardBound (q.narrowedTo (s.flagged needsOwnershipCheck)) q.ownerGuard.isSome s)
    (binds : q.Binds m statements columns) :
    (versioned config (sqlMembers q)).NamesApart w s ↔
      (columns ++ ownerName (q.narrowedTo (s.flagged needsOwnershipCheck))).Nodup := by
  have bindings : (versioned config (sqlMembers q)).bound w s = _ :=
    bound_eq (fun owner given => (owned owner given).filled) binds.placed
  have met := binds.met (s.flagged needsOwnershipCheck)
  generalize narrowed : q.narrowedTo (s.flagged needsOwnershipCheck) = owner at bound bindings met ⊢
  have owned : ∀ name ∈ owner, IsFilledName name := by
    intro name given
    rw [← narrowed, SqlStatements.narrowedTo] at given
    split at given
    · exact owned name given
    · cases given
  have texts : (versioned config (sqlMembers q)).statements w s =
      statements.map fun st => st.sent (rowGuard (st.narrowing owner)) := by
    rw [Body.statements, sql_statements binds.written names guarded bound, Value.texts,
      Value.items, List.filterMap_map]
    exact List.filterMap_some
  have read : ∀ st ∈ statements, Reads (st.sent (rowGuard (st.narrowing owner)))
      (st.query (st.narrowing owner)) := by
    intro st member
    refine SqlStatement.sent_reads (names st member) fun name given => ?_
    unfold SqlStatement.narrowing at given
    split at given
    · exact owned name given
    · cases given
  have injective : Function.Injective placeholder := fun a b => placeholder_inj.mp
  constructor
  · intro apart
    have once := apart.once
    rwa [bindings, List.nodup_map_iff injective] at once
  · intro once
    refine ⟨fun name => ?_, bindings ▸ (List.nodup_map_iff injective).mpr once, ?_⟩
    · rw [bindings, texts, List.mem_map]
      constructor
      · rintro ⟨column, listed, rfl⟩
        obtain ⟨st, member, binds⟩ := (met column).mp listed
        exact ⟨_, List.mem_map_of_mem member,
          (read st member).placeholdersOf ▸ List.mem_map_of_mem binds⟩
      · rintro ⟨statement, listed, placed⟩
        obtain ⟨st, member, rfl⟩ := List.mem_map.mp listed
        rw [(read st member).placeholdersOf] at placed
        obtain ⟨column, binds, rfl⟩ := List.mem_map.mp placed
        exact ⟨column, (met column).mpr ⟨st, member, binds⟩, rfl⟩
    · intro statement listed table inserted names reads
      rw [texts] at listed
      obtain ⟨st, member, rfl⟩ := List.mem_map.mp listed
      have same := reads.unique (read st member)
      cases st with
      | insert t columns' =>
        obtain ⟨_, rfl, _⟩ := Query.insert.inj same
        exact binds.inserted t _ member ▸ (List.nodup_append.mp once).1
      | select | update | delete => cases same

theorem RequestPlan.namesApartIff {plan : RequestPlan} (decoded : m.IsDecoded)
    (asks : plan.operation = .sql q) (binds : q.Binds m statements columns) :
    plan.NamesApartIff config fun flagged =>
      (columns ++ ownerName (q.narrowedTo flagged)).Nodup := by
  have identifier {name : String} (declared : m.hasProperty name = true) : IsFilledName name :=
    Text.isFilledName_of_isIdentifier (decoded.declared_identifier declared)
  have owned (owner : String) (given : q.ownerGuard = some owner) : Text.IsWord owner :=
    Text.isWord_of_isIdentifier (decoded.declared_identifier (binds.owner owner given))
  have names : ∀ st ∈ statements, ∀ n ∈ st.table :: st.columns, IsFilledName n := by
    intro st member
    have keeps := binds.kept st member
    exact List.forall_mem_cons.mpr ⟨keeps.table ▸ m.tableName_isFilledName decoded,
      fun c listed => identifier (keeps.columns c listed)⟩
  obtain ⟨lead, ofPlan⟩ : ∃ lead, ofRequest config plan = lead ++ perform config plan.operation :=
    ⟨_, rfl⟩
  refine ⟨lead ++ (beforeGuard q ++ guardScript q.ownerGuard), versioned config (sqlMembers q),
    by rw [ofPlan, asks, sql_parts, ← append_assoc], fun w s t run => ?_⟩
  obtain ⟨u, _, run⟩ := exec_append_next run
  obtain ⟨v, _, run⟩ := exec_append_next run
  obtain ⟨x, reached, same, bound⟩ := guardScript_reaches (w := w) (s := v) owned
  obtain rfl := Step.next.inj (reached.symm.trans run)
  rw [← same.flagged] at bound
  exact namesApart_iff names (fun st member => (binds.kept st member).guarded)
    (fun owner given => identifier (binds.owner owner given)) bound binds

end Runs

theorem RequestPlan.NamesApartIff.congr {plan : RequestPlan} {config : Config}
    {clear other : Bool → Prop} (apart : plan.NamesApartIff config clear)
    (same : ∀ flagged, clear flagged ↔ other flagged) : plan.NamesApartIff config other := by
  obtain ⟨front, body, ends, runs⟩ := apart
  exact ⟨front, body, ends, fun w s t run => (runs w s t run).trans (same _)⟩

/-! ### Requests of models -/

section Requests

variable {m : Model} {q : SqlStatements} {flagged : Bool}

theorem narrowedTo_of_unguarded (unguarded : q.ownerGuard = none) (flagged : Bool) :
    q.narrowedTo flagged = none := by
  simp [SqlStatements.narrowedTo, unguarded]

/-- A request of one statement without a guard binds its columns. -/
theorem binds_of_single (st : SqlStatement) {columns : List String}
    (written : q.statements = [st.text]) (unguarded : q.ownerGuard = none)
    (kept : st.KeepsTo m none) (placed : q.placeholders.map (·.name) = columns.map placeholder)
    (bound : st.binds none = columns) (reads : ∀ table names, st ≠ .insert table names) :
    q.Binds m [st] columns where
  written := written
  kept := List.forall_mem_singleton.mpr (unguarded ▸ kept)
  owner := by simp [unguarded]
  placed := placed
  met := by
    simp [narrowedTo_of_unguarded unguarded, ownerName, SqlStatement.narrowing, bound]
  inserted table names listed := absurd (List.mem_singleton.mp listed).symm (reads table names)

theorem nodup_ownerName {columns : List String} {owner : Option String} :
    (columns ++ ownerName owner).Nodup ↔
      columns.Nodup ∧ (owner.isSome = true → "owner" ∉ columns) := by
  cases owner with
  | none => simp [ownerName]
  | some name =>
    have apart : (∀ a ∈ columns, ¬ a = "owner") ↔ "owner" ∉ columns :=
      ⟨fun other member => other _ member rfl, fun absent a member same => absent (same ▸ member)⟩
    simp [ownerName, List.nodup_append, apart]

theorem narrowedTo_isSome : (q.narrowedTo flagged).isSome = (flagged && q.ownerGuard.isSome) := by
  cases flagged <;> simp [SqlStatements.narrowedTo]

/-- A guard stands in a statement where there is an owner to narrow it to. -/
theorem narrowing_of_guard (st : SqlStatement) (guard : st.isGuarded = q.ownerGuard.isSome) :
    st.narrowing (q.narrowedTo flagged) = q.narrowedTo flagged := by
  rw [SqlStatement.narrowing, guard]
  cases owner : q.ownerGuard <;> simp [SqlStatements.narrowedTo, owner]

theorem narrowing_of_unguarded (st : SqlStatement) {owner : Option String}
    (unguarded : st.isGuarded = false) : st.narrowing owner = none := by
  simp [SqlStatement.narrowing, unguarded]

end Requests

namespace Model

section Operations

variable {m : Model} {config : Config} {field : RootField} {gated : Bool} {plan : RequestPlan}

def updateColumns (m : Model) (config : Config) : List String :=
  config.identifierField :: (m.writableFields config ++ m.updateTimestamp config)

/-- When the names of the request of a root field are apart: no time goes to the column of the key
or of another time, and where the rows are narrowed to those of the owner, no column is called
like the placeholder of the owner. -/
def NamesApart (m : Model) (config : Config) (field : RootField) (narrowed : Bool) : Prop :=
  match field with
  | .get | .list => True
  | .create => (config.identifierField :: m.timestamps config).Nodup
  | .update => config.identifierField ∉ m.updateTimestamp config ∧
      (narrowed = true → "owner" ∉ m.updateColumns config)
  | .delete => narrowed = true → config.identifierField ≠ "owner"

instance (m : Model) (config : Config) (field : RootField) (narrowed : Bool) :
    Decidable (m.NamesApart config field narrowed) :=
  match field with
  | .get | .list => inferInstanceAs (Decidable True)
  | .create => inferInstanceAs (Decidable (config.identifierField :: m.timestamps config).Nodup)
  | .update => inferInstanceAs (Decidable (config.identifierField ∉ m.updateTimestamp config ∧
      (narrowed = true → "owner" ∉ m.updateColumns config)))
  | .delete => inferInstanceAs (Decidable (narrowed = true → config.identifierField ≠ "owner"))

/-- Writable fields are distinct, and none of them is managed. -/
theorem columns_nodup (read : m.IsRead) {stamps : List String}
    (managed : ∀ s ∈ stamps, s ∈ config.managedTimestamps) :
    (config.identifierField :: (m.writableFields config ++ stamps)).Nodup ↔
      (config.identifierField :: stamps).Nodup := by
  have unmanaged : ∀ c ∈ m.writableFields config, isManaged config c = false := by
    intro c member
    obtain ⟨p, listed, rfl⟩ := List.mem_map.mp member
    simpa using (List.mem_filter.mp listed).2
  have distinct : (m.writableFields config).Nodup :=
    read.propertyNames_nodup.sublist (List.filter_sublist.map _)
  have key : config.identifierField ∉ m.writableFields config := by
    intro member
    simpa [isManaged] using unmanaged _ member
  have apart : ∀ a ∈ m.writableFields config, ∀ b ∈ stamps, a ≠ b := by
    rintro a member b stamped rfl
    simpa [isManaged, managed a stamped] using unmanaged a member
  simp only [List.nodup_cons, List.nodup_append, List.mem_append]
  tauto

theorem updateTimestamp_managed : ∀ s ∈ m.updateTimestamp config, s ∈ config.managedTimestamps := by
  intro s member
  unfold updateTimestamp at member
  split at member
  · simp [List.mem_singleton.mp member, Config.managedTimestamps]
  · cases member

theorem updateTimestamp_nodup : (m.updateTimestamp config).Nodup := by
  unfold updateTimestamp
  split <;> simp

theorem inputs_placed : ((m.writableProperties config).map bindInput).map (·.name) =
    (m.writableFields config).map placeholder := by
  simp [writableFields, bindInput]

theorem stamps_placed (stamps : List String) :
    (stamps.map bindNow).map (·.name) = stamps.map placeholder := by
  simp [bindNow]

variable (identified : m.hasProperty config.identifierField = true)

include identified in
theorem selectByKey_binds (expression : String) :
    (statements [m.selectByKey config] [bindColumn config.identifierField expression]).Binds m
      [m.selectByKey config] [config.identifierField] :=
  binds_of_single _ rfl rfl (selectByKey_keepsTo identified) rfl rfl (by simp [selectByKey])

include identified in
theorem sqlInsert_binds : (m.sqlInsert config).Binds m
    [.insert (Naming.tableName m.name) (m.insertColumns config), m.selectByKey config]
    (m.insertColumns config) where
  written := rfl
  kept := List.forall_mem_cons.mpr ⟨insert_keepsTo identified,
    List.forall_mem_singleton.mpr (selectByKey_keepsTo identified)⟩
  owner := by simp [sqlInsert, statements]
  placed := insertVariables_names
  met flagged name := by
    have unguarded : (m.sqlInsert config).ownerGuard = none := rfl
    have key : config.identifierField ∈ m.insertColumns config := List.mem_cons_self
    simp only [narrowedTo_of_unguarded unguarded, List.exists_mem_cons_iff, selectByKey,
      SqlStatement.insert_binds, SqlStatement.select_binds]
    simp [ownerName, extentBound, SqlStatement.narrowing]
    exact fun same => same ▸ key
  inserted table names listed := by
    simp [selectByKey] at listed
    exact listed.2

include identified in
theorem sqlUpdate_binds (gated : Bool) : (m.sqlUpdate config gated).Binds m
    [.update (Naming.tableName m.name) (m.updateAssignments config) config.identifierField
      (m.ownerGuard gated).isSome, m.selectByKey config] (m.updateColumns config) where
  written := rfl
  kept := List.forall_mem_cons.mpr ⟨update_keepsTo identified _,
    List.forall_mem_singleton.mpr (selectByKey_keepsTo identified)⟩
  owner := ownerGuard_declared
  placed := by
    have placed : (m.sqlUpdate config gated).placeholders = m.updateVariables config := rfl
    rw [placed, updateVariables, updateColumns, List.map_cons, List.map_append, inputs_placed,
      stamps_placed, List.map_cons, List.map_append]
    rfl
  met flagged name := by
    have assigned : (m.updateAssignments config).map SqlAssignment.column =
        m.writableFields config ++ m.updateTimestamp config := by
      rw [updateAssignments, List.map_append, List.map_map, List.map_map]
      exact congrArg₂ _ (List.map_id _) (List.map_id _)
    simp only [List.exists_mem_cons_iff, selectByKey, SqlStatement.update_binds,
      SqlStatement.select_binds, assigned, narrowing_of_guard (q := m.sqlUpdate config gated)
        (.update _ _ _ (m.ownerGuard gated).isSome) rfl, narrowing_of_unguarded
        (.select _ _ false _) rfl]
    simp [updateColumns, ownerName, extentBound]
    tauto
  inserted table names listed := by simp [selectByKey] at listed

include identified in
theorem sqlDelete_binds (gated : Bool) : (m.sqlDelete config gated).Binds m
    [.select (Naming.tableName m.name) (some config.identifierField) (m.ownerGuard gated).isSome
        .all,
      .delete (Naming.tableName m.name) config.identifierField (m.ownerGuard gated).isSome]
    [config.identifierField] where
  written := rfl
  kept := by
    have key : ∀ c ∈ [config.identifierField], m.hasProperty c = true :=
      List.forall_mem_singleton.mpr identified
    exact List.forall_mem_cons.mpr ⟨⟨rfl, key, id⟩, List.forall_mem_singleton.mpr ⟨rfl, key, id⟩⟩
  owner := ownerGuard_declared
  placed := rfl
  met flagged name := by
    simp only [List.exists_mem_cons_iff, SqlStatement.select_binds, SqlStatement.delete_binds,
      narrowing_of_guard (q := m.sqlDelete config gated)
        (.delete _ _ (m.ownerGuard gated).isSome) rfl,
      narrowing_of_guard (q := m.sqlDelete config gated)
        (.select _ _ (m.ownerGuard gated).isSome _) rfl]
    simp [extentBound]
  inserted table names listed := by simp at listed

include identified in
/-- The names of the request of a root field are apart exactly where its columns are. -/
theorem mainOperation_namesApart (read : m.IsRead) (relational : m.engine = .relational)
    (asks : plan.operation = (m.mainOperation config field gated).1) :
    plan.NamesApartIff config fun flagged =>
      m.NamesApart config field (flagged && (m.ownerGuard gated).isSome) := by
  have operation : plan.operation = (m.relationalMain config field gated).1 := by
    rw [asks]
    simp [mainOperation, relational]
  have decoded := read.isDecoded
  cases field with
  | get =>
    have binds := selectByKey_binds identified (argument config.identifierField)
    exact (plan.namesApartIff decoded operation binds).congr fun flagged => by
      rw [narrowedTo_of_unguarded rfl]
      simp [NamesApart, ownerName]
  | list =>
    have binds : SqlStatements.Binds _ m _ ["limit", "offset"] :=
      binds_of_single (.select (Naming.tableName m.name) none false .page)
        (q := { statements [.select (Naming.tableName m.name) none false .page] pageVariables with
          page := some config.page }) rfl rfl
        ⟨rfl, by simp [SqlStatement.columns], by simp [SqlStatement.isGuarded]⟩ rfl rfl (by simp)
    exact (plan.namesApartIff decoded operation binds).congr fun flagged => by
      rw [narrowedTo_of_unguarded rfl]
      simp [NamesApart, ownerName]
  | create =>
    have binds := sqlInsert_binds identified
    exact (plan.namesApartIff decoded operation binds).congr fun flagged => by
      have stamps : ∀ s ∈ m.timestamps config, s ∈ config.managedTimestamps :=
        fun s member => List.mem_of_mem_filter member
      have unguarded : (m.sqlInsert config).ownerGuard = none := rfl
      rw [nodup_ownerName, narrowedTo_of_unguarded unguarded, insertColumns,
        columns_nodup read stamps]
      simp [NamesApart]
  | update =>
    have binds := sqlUpdate_binds identified gated
    exact (plan.namesApartIff decoded operation binds).congr fun flagged => by
      have guarded : (m.sqlUpdate config gated).ownerGuard = m.ownerGuard gated := rfl
      rw [nodup_ownerName, narrowedTo_isSome, guarded, NamesApart]
      refine and_congr_left' ?_
      rw [updateColumns, columns_nodup read updateTimestamp_managed, List.nodup_cons]
      exact and_iff_left updateTimestamp_nodup
  | delete =>
    have binds := sqlDelete_binds identified gated
    exact (plan.namesApartIff decoded operation binds).congr fun flagged => by
      have guarded : (m.sqlDelete config gated).ownerGuard = m.ownerGuard gated := rfl
      rw [nodup_ownerName, narrowedTo_isSome, guarded]
      simp [NamesApart, eq_comm (a := "owner")]

include identified in
theorem fetchByKey_namesApart (decoded : m.IsDecoded) {q : SqlStatements} {key : String}
    {source : RecordSource} (fetched : m.fetchByKey config key = .ok (plan.operation, source))
    (asks : plan.operation = .sql q) : plan.NamesApartIff config fun _ => True := by
  have operation : plan.operation =
      .sql (statements [m.selectByKey config] [bindColumn config.identifierField key]) := by
    rw [asks] at fetched ⊢
    cases engine : m.engine <;> simp [fetchByKey, engine] at fetched
    exact congrArg _ fetched.1.symm
  exact (plan.namesApartIff decoded operation (selectByKey_binds identified key)).congr
    fun flagged => by
      rw [narrowedTo_of_unguarded rfl]
      simp [ownerName]

/-- A page of a relationship binds its bounds beside the foreign key. -/
theorem traversalTo_namesApart {target : Model} {q : SqlStatements} {kind : RelationshipKind}
    {foreignKey : String} {shape : ResultShape} (decoded : target.IsDecoded)
    (identified : target.hasProperty config.identifierField = true)
    (keyed : kind.isIndexed = true → target.hasProperty foreignKey = true)
    (reached : traversalTo config target kind foreignKey = some (plan.operation, shape))
    (asks : plan.operation = .sql q) : plan.NamesApartIff config fun _ =>
      kind = .hasMany → foreignKey ≠ "limit" ∧ foreignKey ≠ "offset" := by
  have operation : (relationalTraversal config kind target.name foreignKey target.itemAccess).1 =
      plan.operation := by
    cases engine : target.engine with
    | relational =>
      simp only [traversalTo, engine, Option.some.injEq] at reached
      exact congrArg Prod.fst reached
    | document =>
      simp only [traversalTo, engine, Option.some.injEq] at reached
      rw [asks] at reached
      cases kind <;> cases congrArg Prod.fst reached
    | http | queued => simp [traversalTo, engine] at reached
  cases kind with
  | hasMany =>
    have binds : SqlStatements.Binds _ target _ [foreignKey, "limit", "offset"] :=
      binds_of_single _ (q := { statements [.select (Naming.tableName target.name)
          (some foreignKey) false .page] (bindColumn foreignKey
            (ApiLoom.sourceField config.identifierField) :: pageVariables) with
        page := some config.page }) rfl rfl (keyed_keepsTo (keyed rfl) .page) rfl rfl (by simp)
    exact (plan.namesApartIff decoded operation.symm binds).congr fun flagged => by
      rw [narrowedTo_of_unguarded rfl]
      simp [ownerName]
  | belongsTo =>
    have binds : SqlStatements.Binds _ target _ [config.identifierField] :=
      binds_of_single _ (q := statements [.select (Naming.tableName target.name)
        (some config.identifierField) false .all] [bindColumn config.identifierField
          (ApiLoom.sourceField foreignKey)]) rfl rfl (keyed_keepsTo identified .all) rfl rfl
        (by simp)
    exact (plan.namesApartIff decoded operation.symm binds).congr fun flagged => by
      rw [narrowedTo_of_unguarded rfl]
      simp [ownerName]
  | hasOne =>
    have binds : SqlStatements.Binds _ target _ [foreignKey] :=
      binds_of_single _ (q := statements [.select (Naming.tableName target.name)
        (some foreignKey) false .first] [bindColumn foreignKey
          (ApiLoom.sourceField config.identifierField)]) rfl rfl (keyed_keepsTo (keyed rfl) .first)
        rfl rfl (by simp)
    exact (plan.namesApartIff decoded operation.symm binds).congr fun flagged => by
      rw [narrowedTo_of_unguarded rfl]
      simp [ownerName]

end Operations

end Model

end ApiLoom
