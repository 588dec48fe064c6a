import ApiLoom.Model.Managed
import ApiLoom.Plan.Authorization
import ApiLoom.Resolver.Basic
import ApiLoom.Store.Sql

/-!
# Data operations by engine

What a root field asks of the store of its model, and where the answer is.  A
gated operation also looks at the owner of the stored record.
-/

namespace ApiLoom

def Config.page (config : Config) : PageBounds :=
  .ofArguments config.defaultPageSize config.maxPageSize

def argument (name : String) : String := "$ctx.args." ++ name

def inputArgument (name : String) : String := "$ctx.args.input." ++ name

/-- A property of the record that a relationship starts from. -/
def sourceField (name : String) : String := "$ctx.source." ++ name

namespace Model

/-- Record of a read by key, shown to whom the access rules let see it. -/
def readRecord (m : Model) (source : RecordSource) : ResultShape :=
  .single { SingleRecord.plain source with verification := m.verification .read }

/-- Page of a list, with the records that the caller may see. -/
def readPage (m : Model) (source : ListSource) : ResultShape :=
  .list ⟨source, m.collectionFilter.map .filter, []⟩

def writtenRecord (source : RecordSource) : ResultShape := .single (.plain source)

def ownerGuard (m : Model) (gated : Bool) : Option String :=
  if gated then m.ownerField else none

/-! ### Document store -/

def documentMain (m : Model) (config : Config) (field : RootField) (gated : Bool) :
    DataOperation × ResultShape :=
  let key := config.identifierField
  match field with
  | .get => (.getItem key (argument key), m.readRecord .result)
  | .list => (.scanItems config.page, m.readPage .pageItems)
  | .create =>
    (.putItem key (m.timestamps config) "$ctx.args.input", writtenRecord .result)
  | .update =>
    (.updateItem {
      keyField := key
      keyExpression := inputArgument key
      fields := m.writableFields config
      updatedAtField := config.updatedAtField
      ownerGuard := m.ownerGuard gated
      inputExpression := "$ctx.args.input" }, writtenRecord .result)
  | .delete =>
    (.deleteItem key (inputArgument key) (m.ownerGuard gated), writtenRecord .result)

/-! ### Relational store -/

def bindColumn (column expression : String) : SqlVariable :=
  ⟨placeholder column, expression, none⟩

def bindInput (p : Property) : SqlVariable :=
  ⟨placeholder p.name, "$input." ++ p.name, p.kind.sqlTypeHint⟩

def bindNow (column : String) : SqlVariable :=
  ⟨placeholder column, "$now", some "TIMESTAMP"⟩

def inputAssignment : Assignment := ⟨"input", "$ctx.args.input"⟩

def nowAssignment : Assignment := ⟨"now", "$util.time.nowISO8601()"⟩

def pageVariables : List SqlVariable :=
  [bindColumn "limit" "$limit", bindColumn "offset" "$offset"]

def statements (sql : List SqlStatement) (placeholders : List SqlVariable) : SqlStatements :=
  ⟨sql.map SqlStatement.text, placeholders, [], none, none⟩

def selectByKey (m : Model) (config : Config) : SqlStatement :=
  .select (Naming.tableName m.name) (some config.identifierField) false .all

def insertColumns (m : Model) (config : Config) : List String :=
  config.identifierField :: (m.writableFields config ++ m.timestamps config)

def insertVariables (m : Model) (config : Config) : List SqlVariable :=
  bindColumn config.identifierField "$id" ::
    ((m.writableProperties config).map bindInput ++ (m.timestamps config).map bindNow)

def sqlInsert (m : Model) (config : Config) : SqlStatements :=
  { statements [.insert (Naming.tableName m.name) (m.insertColumns config), m.selectByKey config]
      (m.insertVariables config) with
    prelude := [inputAssignment, ⟨"id", "$util.autoId()"⟩] ++
      if (m.timestamps config).isEmpty then [] else [nowAssignment] }

def updateTimestamp (m : Model) (config : Config) : List String :=
  if m.hasProperty config.updatedAtField then [config.updatedAtField] else []

def updateAssignments (m : Model) (config : Config) : List SqlAssignment :=
  (m.writableFields config).map .keepIfNull ++ (m.updateTimestamp config).map .put

def updateVariables (m : Model) (config : Config) : List SqlVariable :=
  bindColumn config.identifierField ("$input." ++ config.identifierField) ::
    ((m.writableProperties config).map bindInput ++ (m.updateTimestamp config).map bindNow)

def sqlUpdate (m : Model) (config : Config) (gated : Bool) : SqlStatements :=
  let guarded := (m.ownerGuard gated).isSome
  { statements
      [.update (Naming.tableName m.name) (m.updateAssignments config) config.identifierField
          guarded,
        m.selectByKey config]
      (m.updateVariables config) with
    prelude := inputAssignment :: (m.updateTimestamp config).map fun _ => nowAssignment
    ownerGuard := m.ownerGuard gated }

/-- Reads the row before it is deleted, under the same condition. -/
def sqlDelete (m : Model) (config : Config) (gated : Bool) : SqlStatements :=
  let table := Naming.tableName m.name
  let key := config.identifierField
  let guarded := (m.ownerGuard gated).isSome
  { statements [.select table (some key) guarded .all, .delete table key guarded]
      [bindColumn key (inputArgument key)] with
    ownerGuard := m.ownerGuard gated }

def relationalMain (m : Model) (config : Config) (field : RootField) (gated : Bool) :
    DataOperation × ResultShape :=
  let key := config.identifierField
  match field with
  | .get =>
    (.sql (statements [m.selectByKey config] [bindColumn key (argument key)]),
      m.readRecord (.sqlRow 0))
  | .list =>
    (.sql { statements [.select (Naming.tableName m.name) none false .page] pageVariables with
        page := some config.page },
      m.readPage (.sqlRows 0))
  | .create => (.sql (m.sqlInsert config), writtenRecord (.sqlRow 1))
  | .update => (.sql (m.sqlUpdate config gated), writtenRecord (.sqlRow 1))
  | .delete => (.sql (m.sqlDelete config gated), writtenRecord (.sqlRow 0))

/-! ### Third parties -/

def collectionPath (m : Model) : String := "/" ++ Naming.tableName m.name

def httpQuery (config : Config) : List (String × String) :=
  [("limit", s!"$util.defaultIfNull($ctx.args.limit, {config.defaultPageSize})"),
    ("nextToken", "$util.defaultIfNullOrBlank($ctx.args.nextToken, '')")]

def httpMain (m : Model) (config : Config) (field : RootField) : DataOperation × ResultShape :=
  let collection := m.collectionPath
  let stored := collection ++ "/" ++ inputArgument config.identifierField
  match field with
  | .get =>
    (.http ⟨"GET", collection ++ "/" ++ argument config.identifierField, none, []⟩,
      m.readRecord .httpBody)
  | .list => (.http ⟨"GET", collection, none, httpQuery config⟩, m.readPage .httpBodyItems)
  | .create => (.http ⟨"POST", collection, some "$ctx.args.input", []⟩, writtenRecord .httpBody)
  | .update => (.http ⟨"PUT", stored, some "$ctx.args.input", []⟩, writtenRecord .httpBody)
  | .delete => (.http ⟨"DELETE", stored, none, []⟩, writtenRecord .httpBody)

def queuedMain (m : Model) (config : Config) (field : RootField) : DataOperation × ResultShape :=
  (.enqueue field.word m.name config.queueUrlStashKey requestIdKey, .pendingAck requestIdKey)

/-! ### Any engine -/

/-- The operation of a root field, and the shape of its result with local times. -/
def mainOperation (m : Model) (config : Config) (field : RootField) (gated : Bool) :
    DataOperation × ResultShape :=
  let main :=
    match m.engine with
    | .document => m.documentMain config field gated
    | .relational => m.relationalMain config field gated
    | .http => m.httpMain config field
    | .queued => m.queuedMain config field
  (main.1, main.2.withLocalTimes (m.localTimeFields config))

/-- Reads one stored record; a queue has none to read. -/
def fetchByKey (m : Model) (config : Config) (keyExpression : String) :
    Except GenerationFailure (DataOperation × RecordSource) :=
  let key := config.identifierField
  match m.engine with
  | .document => .ok (.getItem key keyExpression, .result)
  | .relational =>
    .ok (.sql (statements [m.selectByKey config] [bindColumn key keyExpression]), .sqlRow 0)
  | .http => .ok (.http ⟨"GET", m.collectionPath ++ "/" ++ keyExpression, none, []⟩, .httpBody)
  | .queued => .error (.refused (.noFetchByKey m.name))

end Model

end ApiLoom
