import ApiLoom.Plan.Request
import ApiLoom.Template.Access

/-!
# Request templates

The script of a request: the decision about the caller, the gate, and the body
that asks the store for one operation.
-/

namespace ApiLoom.Template

open Script

/-! ### Pages -/

/-- Sets `$limit` to what the caller asks for, within the bounds. -/
def boundPage (page : PageBounds) : Script :=
  acts [.set "limit" (.orDefault (.verbatim page.limitExpression) (.number page.defaultLimit))] ++
  when (.compare (.var "limit") .above (.number page.maxLimit))
    (acts [.set "limit" (.number page.maxLimit)]) ++
  when (.compare (.var "limit") .below (.number 1))
    (acts [.set "limit" (.number page.defaultLimit)])

def pageToken (page : PageBounds) : Term :=
  (Term.util.call "defaultIfNullOrBlank" [.verbatim page.tokenExpression, .null]).asJson

/-- The offset to which a token stands, and both bounds kept for the response. -/
def boundOffset (page : PageBounds) : Script :=
  let token := Term.verbatim page.tokenExpression
  acts [.set "offset" (.number 0)] ++
  when (.fails token.isBlank) (acts [.set "offset" token.parsed]) ++
  acts [.run (.stashPut pageLimitKey (.var "limit")),
    .run (.stashPut pageOffsetKey (.var "offset"))]

/-! ### Conditional writes -/

/-- The condition of a write: the record exists, and is still of the caller where that counts. -/
def writeCondition (keyField : String) (ownerGuard : Option String) : Script :=
  acts [.set "conditionExpression" (.plain "attribute_exists(#key)"),
    .set "conditionNames" (.entry (.plain "#key") (.plain keyField)),
    .set "conditionValues" .emptyMap] ++
  (match nonEmpty ownerGuard with
    | some owner =>
      acts [.comment
        "Second read of the owner: the write only lands if the stored owner is still the caller"] ++
      when (.flagged needsOwnershipCheck)
        (acts [.set "conditionExpression" (.plain "$conditionExpression AND #owner = :owner"),
          .run ((Term.var "conditionNames").call "put" [.plain "#owner", .plain owner]),
          .run ((Term.var "conditionValues").call "put" [.plain ":owner", Term.caller.typed])])
    | none => done)

def conditionMember : Member :=
  .always "condition" (.object [
    .always "expression" (.plain "$conditionExpression"),
    .always "expressionNames" (.value (Term.var "conditionNames").asJson),
    .provided (.fails ((Term.var "conditionValues").call "isEmpty" [])) "expressionValues"
      (Term.var "conditionValues").asJson])

/-! ### The document store -/

def keyMember (keyField : String) (value : Term) : Member :=
  .always "key" (.object [.always keyField (.value value.typedJson)])

def namesEntry (name field : String) : Body :=
  .value (.entry (.plain name) (.plain field))

def versioned (config : Config) (members : List Member) : Body :=
  .object (.always "version" (.plain config.templateVersion) :: members)

def getItem (config : Config) (keyField keyExpression : String) : Script :=
  acts [.send (versioned config [
    .always "operation" (.plain "GetItem"), keyMember keyField (.verbatim keyExpression)])]

def scanItems (config : Config) (page : PageBounds) : Script :=
  boundPage page ++
  acts [.send (versioned config [
    .always "operation" (.plain "Scan"),
    .always "limit" (.value (.var "limit")),
    .always "nextToken" (.value (pageToken page))])]

def putItem (config : Config) (keyField : String) (timestamps : List String)
    (inputExpression : String) : Script :=
  acts [.set "input" (.verbatim inputExpression),
    .set "keyValue" (Term.util.call "autoId" [])] ++
  (if timestamps.isEmpty then done
    else acts (.set "now" .now :: timestamps.map fun name =>
      .run ((Term.var "input").call "put" [.plain name, .var "now"]))) ++
  acts [.send (versioned config [
    .always "operation" (.plain "PutItem"),
    keyMember keyField (.var "keyValue"),
    .always "attributeValues"
      (.value ((Term.util.member "dynamodb").call "toMapValuesJson" [.var "input"])),
    .always "condition" (.object [
      .always "expression" (.plain "attribute_not_exists(#key)"),
      .always "expressionNames" (namesEntry "#key" keyField)])])]

/-- Adds one field to the update, when the input has it. -/
def updateField (name : String) : Script :=
  let input := Term.var "input"
  when (.holds (input.call "containsKey" [.plain name]))
    (acts [.run ((Term.var "setExpressions").call "add" [.plain ("#" ++ name ++ " = :" ++ name)]),
      .run ((Term.var "updateNames").call "put" [.plain ("#" ++ name), .plain name]),
      .run ((Term.var "updateValues").call "put"
        [.plain (":" ++ name), (input.member name).typed])])

/-- The list of the set expressions, written out when the template runs. -/
def setClause : String :=
  "\"SET #foreach($expression in $setExpressions)$expression#if($foreach.hasNext), #end#end\""

def updateItem (config : Config) (u : UpdateItem) : Script :=
  let stamp := u.updatedAtField
  acts [.set "input" (.verbatim u.inputExpression),
    .set "setExpressions" (.list [.plain ("#" ++ stamp ++ " = :" ++ stamp)]),
    .set "updateNames" (.entry (.plain ("#" ++ stamp)) (.plain stamp)),
    .set "updateValues" (.entry (.plain (":" ++ stamp)) Term.now.typed)] ++
  concat (u.fields.map updateField) ++
  writeCondition u.keyField u.ownerGuard ++
  acts [.send (versioned config [
    .always "operation" (.plain "UpdateItem"),
    keyMember u.keyField (.verbatim u.keyExpression),
    .always "update" (.object [
      .always "expression" (.verbatim setClause),
      .always "expressionNames" (.value (Term.var "updateNames").asJson),
      .always "expressionValues" (.value (Term.var "updateValues").asJson)]),
    conditionMember])]

def deleteItem (config : Config) (keyField keyExpression : String) (ownerGuard : Option String) :
    Script :=
  writeCondition keyField ownerGuard ++
  acts [.send (versioned config [
    .always "operation" (.plain "DeleteItem"),
    keyMember keyField (.verbatim keyExpression),
    conditionMember])]

def queryIndex (config : Config) (indexName partitionKey valueExpression : String)
    (page : Option PageBounds) : Script :=
  (match page with | some p => boundPage p | none => done) ++
  acts [.send (versioned config ([
    .always "operation" (.plain "Query"),
    .always "index" (.plain indexName),
    .always "query" (.object [
      .always "expression" (.plain "#partitionKey = :partitionKey"),
      .always "expressionNames" (namesEntry "#partitionKey" partitionKey),
      .always "expressionValues" (.object [
        .always ":partitionKey" (.value (Term.verbatim valueExpression).typedJson)])])] ++
    (match page with
      | some p =>
        [.always "limit" (.value (.var "limit")), .always "nextToken" (.value (pageToken p))]
      | none => [.always "limit" (.value (.number 1))])))]

/-! ### Other stores -/

/-- Sets `$ownerGuard`, which narrows the statements to the row of the caller where that counts. -/
def guardRows (ownerField : String) : Script :=
  acts [.comment "Second read of the owner: the statement only matches the caller's own row",
    .set "ownerGuard" (.plain "")] ++
  when (.flagged needsOwnershipCheck)
    (acts [.set "ownerGuard" (.plain (" AND " ++ ownerField ++ " = :owner"))])

def typeHints (placeholders : List SqlVariable) : List Member :=
  placeholders.filterMap fun v =>
    (nonEmpty v.typeHint).map fun hint => .always v.name (.plain hint)

def sql (config : Config) (s : SqlStatements) : Script :=
  let bound : List Member := s.placeholders.map fun v =>
    .always v.name (.value (Term.verbatim v.expression).asJson)
  let owner : List Member :=
    match nonEmpty s.ownerGuard with
    | some _ => [.provided (.flagged needsOwnershipCheck) ":owner" Term.caller.asJson]
    | none => []
  let hints := typeHints s.placeholders
  acts (s.prelude.map fun a => .set a.name (.verbatim a.expression)) ++
  (match s.page with | some p => boundPage p ++ boundOffset p | none => done) ++
  (match nonEmpty s.ownerGuard with | some owner => guardRows owner | none => done) ++
  acts [.send (versioned config ([
    .always "statements" (.rows (s.statements.map .quoted)),
    .always "variableMap" (.object (bound ++ owner))] ++
    if hints.isEmpty then [] else [.always "variableTypeHints" (.object hints)]))]

def http (config : Config) (r : HttpRequest) : Script :=
  acts [.send (versioned config [
    .always "method" (.plain r.method),
    .always "resourcePath" (.plain r.resourcePath),
    .always "params" (.object ([
      .always "headers" (.object [
        .always "Content-Type" (.plain "application/json"),
        .always "Authorization"
          (.value (Term.orDefault (Term.headers.member "authorization") (.plain "")).asJson)])] ++
      (if r.query.isEmpty then []
        else [.always "query" (.object (r.query.map fun q => .always q.1 (.plain q.2)))]) ++
      (match nonEmpty r.bodyExpression with
        | some e => [.always "body" (.value (Term.verbatim e).asJson)]
        | none => [])))])]

def enqueue (config : Config) (operation modelName queueUrlStashKey requestIdStashKey : String) :
    Script :=
  let message := Term.var "message"
  let body := Term.var "body"
  acts [.set "requestId" (Term.util.call "autoId" []),
    .run (.stashPut requestIdStashKey (.var "requestId")),
    .set "message" .emptyMap,
    .run (message.call "put" [.plain "operation", .quoted operation]),
    .run (message.call "put" [.plain "model", .quoted modelName]),
    .run (message.call "put" [.plain "args", .arguments]),
    .run (message.call "put" [.plain "requestId", .var "requestId"]),
    .set "body" .emptyMap,
    .run (body.call "put" [.plain "QueueUrl", .stash queueUrlStashKey]),
    .run (body.call "put" [.plain "MessageBody", message.asJson]),
    .send (versioned config [
      .always "method" (.plain "POST"),
      .always "resourcePath" (.plain "/"),
      .always "params" (.object [
        .always "headers" (.object [
          .always "content-type" (.plain "application/x-amz-json-1.0"),
          .always "x-amz-target" (.plain "AmazonSQS.SendMessage")]),
        .always "body" (.value body.asJson)])])]

/-- What a hook is told beside the arguments: the record before an operation, its result after. -/
def hookContext : HookPhase → Member
  | .before => .always "source" (.value (Term.context.member "source").asJson)
  | .after => .always "result" (.value Term.previousResult.asJson)

def invokeHook (config : Config) (hookName functionName modelName : String) (phase : HookPhase) :
    Script :=
  acts [.send (versioned config [
    .always "operation" (.plain "Invoke"),
    .always "payload" (.object [
      .always "hook" (.quoted hookName),
      .always "function" (.quoted functionName),
      .always "model" (.quoted modelName),
      .always "arguments" (.value Term.arguments.asJson),
      .always "identity" (.value Term.identity.asJson),
      hookContext phase])])]

def noOp (config : Config) (payloadExpression : Option String) : Script :=
  let payload :=
    match nonEmpty payloadExpression with
    | some e => (Term.verbatim e).asJson
    | none => .emptyMap
  acts [.send (versioned config [.always "payload" (.value payload)])]

def perform (config : Config) : DataOperation → Script
  | .getItem keyField keyExpression => getItem config keyField keyExpression
  | .scanItems page => scanItems config page
  | .putItem keyField timestamps inputExpression =>
    putItem config keyField timestamps inputExpression
  | .updateItem update => updateItem config update
  | .deleteItem keyField keyExpression ownerGuard =>
    deleteItem config keyField keyExpression ownerGuard
  | .queryIndex indexName partitionKey valueExpression page =>
    queryIndex config indexName partitionKey valueExpression page
  | .sql statements => sql config statements
  | .http request => http config request
  | .enqueue operation modelName queueUrlStashKey requestIdStashKey =>
    enqueue config operation modelName queueUrlStashKey requestIdStashKey
  | .invokeHook hookName functionName modelName phase =>
    invokeHook config hookName functionName modelName phase
  | .noOp payloadExpression => noOp config payloadExpression

def ofRequest (config : Config) (plan : RequestPlan) : Script :=
  acts [.comment plan.description] ++
  (match plan.auth with | some check => authorize config check | none => done) ++
  (match nonEmpty plan.gate with
    | some gate => when (.fails (.stash gate)) (acts [.stop])
    | none => done) ++
  perform config plan.operation

end ApiLoom.Template
