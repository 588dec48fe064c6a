import ApiLoom.Plan.Response
import ApiLoom.Template.Access
import ApiLoom.Naming

/-!
# Response templates

The script of a response.  `$record` is the fetched record and `$visible` says
whether it is there and may be shown; `$items` is the fetched page, which goes into
`$connection` together with the token of the next page.
-/

namespace ApiLoom.Template

open Script

def errorGuard : Script :=
  let error := Term.context.member "error"
  when (.holds error) (acts [.fail (error.member "message") (error.member "type")])

def statusCode : Term := Term.result.member "statusCode"

def statusOk : Cond :=
  .both (.compare statusCode .atLeast (.number 200)) (.compare statusCode .below (.number 300))

def resultBody : Term := Term.result.member "body"

def serviceError : Action := .fail resultBody (.plain "UpstreamError")

def rowsOf (statementIndex : Int) : Term :=
  (((Term.var "utils").member "rds").call "toJsonObject" [.result]).item (.number statementIndex)

/-! ### Where records are -/

/-- Binds `$record`, and whether there is one to `$visible`. -/
def bindRecord : RecordSource → Script
  | .result =>
    acts [.set "record" .result,
      .set "visible" (.negated (Term.util.call "isNull" [.result]))]
  | .firstPageItem =>
    let items := Term.result.member "items"
    acts [.set "visible" (.truth false)] ++
    when (.both (.holds items) (.compare (items.call "size" []) .above (.number 0)))
      (acts [.set "record" (items.item (.number 0)), .set "visible" (.truth true)])
  | .sqlRow statementIndex =>
    let rows := Term.var "rows"
    acts [.set "rows" (rowsOf statementIndex), .set "visible" (.truth false)] ++
    when (.both (.holds rows) (.compare (rows.call "size" []) .above (.number 0)))
      (acts [.set "record" (rows.item (.number 0)), .set "visible" (.truth true)])
  | .httpBody =>
    acts [.set "visible" (.truth false)] ++
    chooseOr statusOk
      (when (.fails resultBody.isBlank)
        (acts [.set "record" resultBody.parsed, .set "visible" (.truth true)]))
      (.compare statusCode .different (.number 404))
      (acts [serviceError])
      done

def putConnection (key : String) (value : Term) : Action :=
  .run (Term.connection.call "put" [.plain key, value])

/-- Binds `$items`, and puts the token of the next page into `$connection`. -/
def bindPage : ListSource → Script
  | .pageItems =>
    acts [.set "items" (.orDefault (Term.result.member "items") (.list [])),
      putConnection "nextToken" (Term.result.member "nextToken")]
  | .sqlRows statementIndex =>
    let limit := Term.stash pageLimitKey
    acts [.set "items" (rowsOf statementIndex),
      .comment "A full page means there may be more rows: hand out the next offset"] ++
    when (.compare (Term.items.call "size" []) .equal limit)
      (acts [.set "nextOffset" (.sum (.stash pageOffsetKey) limit),
        putConnection "nextToken" (.plain "$nextOffset")])
  | .httpBodyItems =>
    let body := Term.var "body"
    acts [.set "items" (.list [])] ++
    either statusOk
      (acts [.set "body" resultBody.parsed] ++
        either (.holds (Term.util.call "isList" [body]))
          (acts [.set "items" body])
          (acts [.set "items" (.orDefault (body.member "items") (.list [])),
            putConnection "nextToken" (body.member "nextToken")]))
      (acts [serviceError])

/-! ### Local times -/

def localTimeFormat : String := "yyyy-MM-dd'T'HH:mm:ss.SSSXXX"

/-- Binds `$userTimezone` to the zone that the caller names. -/
def bindTimezone (header : String) : Action :=
  .set "userTimezone" (Term.headers.call "get" [.quoted header])

def zoneIsGiven : Cond := .fails (Term.isBlank (.var "userTimezone"))

/-- Adds the local time of each field that the subject has. -/
def addLocalTimes (fields : List String) (subject : Term) : Script :=
  let time := Term.util.member "time"
  concat (fields.map fun name =>
    let value := subject.member name
    when (.fails value.isBlank)
      (acts [.run (subject.call "put" [.plain (Naming.localTimeField name),
        time.call "epochMilliSecondsToFormatted"
          [time.call "parseISO8601ToEpochMilliSeconds" [value], .quoted localTimeFormat,
            .var "userTimezone"]])]))

/-- The header that names the zone, if there are fields to convert. -/
def localTimeHeader (config : Config) (fields : List String) : Option String :=
  if fields.isEmpty then none else nonEmpty config.timezoneHeader

/-! ### Shapes -/

/-- Hands out the record, or null where it is not visible. -/
def emitVisible : Script :=
  either (.holds .visible) (acts [.emit .record]) (acts [.emitNull])

def singleRecord (config : Config) (r : SingleRecord) : Script :=
  bindRecord r.source ++
  verifyIfAny r.verification ++
  (match r.access with
    | some access =>
      when (.holds .visible)
        (decideItem config access .record ++
          whenNot .canAccess (acts [.set "visible" (.truth false)]))
    | none => done) ++
  (match localTimeHeader config r.localTimeFields with
    | some header =>
      acts [bindTimezone header] ++
      when (.both (.holds .visible) zoneIsGiven) (addLocalTimes r.localTimeFields .record)
    | none => done) ++
  emitVisible

def recordList (config : Config) (r : RecordList) : Script :=
  let kept : Term := if r.access.isSome then .var "visibleItems" else .items
  acts [.set "connection" .emptyMap] ++
  bindPage r.source ++
  (match r.access with
    | some access =>
      acts [.set "visibleItems" (.list [])] ++
      forEach "item" .items
        (decideItem config access (.var "item") ++
          when (.holds .canAccess)
            (acts [.run ((Term.var "visibleItems").call "add" [.var "item"])]))
    | none => done) ++
  (match localTimeHeader config r.localTimeFields with
    | some header =>
      acts [bindTimezone header] ++
      when zoneIsGiven (forEach "entry" kept (addLocalTimes r.localTimeFields (.var "entry")))
    | none => done) ++
  acts [putConnection "items" kept, .emit .connection]

def handOut (config : Config) : ResultShape → Script
  | .single r => singleRecord config r
  | .list r => recordList config r
  | .pendingAck key =>
    when (.compare statusCode .different (.number 200))
      (acts [.fail (.plain "Request could not be queued") (.plain "QueueError")]) ++
    acts [.acknowledge key]
  | .confirmOwnership source verification confirmFlag =>
    bindRecord source ++
    verifyIfAny verification ++
    either (.holds .visible)
      (acts [.run (.stashPut confirmFlag (.truth true)), .emit .record])
      (acts [.emitNull])
  | .hookOutcome stashKey phase =>
    acts [.run (.stashPut stashKey .result),
      .emit (match phase with | .before => .result | .after => .previousResult)]
  | .passThrough => acts [.emit .result]
  | .subscriptionAck ownerField gateFlag =>
    (match nonEmpty ownerField with
      | some owner => when (.flagged gateFlag) (acts [.deliverOwn owner])
      | none => done) ++
    acts [.emit .null]

def ofResponse (config : Config) (plan : ResponsePlan) : Script :=
  acts [.comment plan.description] ++ errorGuard ++ handOut config plan.shape

end ApiLoom.Template
