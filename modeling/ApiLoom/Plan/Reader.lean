import ApiLoom.Document.Literal
import ApiLoom.Plan.Document

/-!
# Reading plans

A plan is read back from its document.  A field that is left out has the value it
usually has; a node of a kind that its place does not take is refused, and so is a
word that is none of the words of its place.
-/

namespace ApiLoom

inductive PlanFault where
  | strayNode
  | unknownWord (place word : String)
deriving DecidableEq, Repr

def PlanFault.message : PlanFault → String
  | strayNode => ""
  | unknownWord place word => s!"{Text.literal word} is not a valid {place}"

abbrev PlanReader (α : Type) := Value → Except PlanFault α

namespace PlanReader

variable {α : Type}

/-! ### Fields -/

def stray : Except PlanFault α := .error .strayNode

def kind (v : Value) : String := (v.field nodeKey).text?.getD ""

def text (v : Value) (key : String) : String := (v.field key).text?.getD ""

def textOr (v : Value) (key default : String) : String := (v.field key).text?.getD default

def intOr (v : Value) (key : String) (default : Int) : Int := (v.field key).int?.getD default

/-- The word at a key, one of the words of a place. -/
def word (place : String) (all : List α) (spelling : α → String) (v : Value) (key : String) :
    Except PlanFault α :=
  match all.find? fun a => spelling a = text v key with
  | some a => .ok a
  | none => .error (.unknownWord place (text v key))

def operation (v : Value) : Except PlanFault Operation :=
  word "Operation" Operation.all Operation.word v "operation"

def phase (v : Value) : Except PlanFault HookPhase :=
  word "HookPhase" HookPhase.all HookPhase.word v "phase"

/-- The node at a key, unless it is null or left out. -/
def optional (read : PlanReader α) (v : Value) (key : String) : Except PlanFault (Option α) :=
  match v.field key with
  | .scalar .null => .ok none
  | w => (read w).map some

def fragment (read : PlanReader α) : PlanReader (Option α) := fun v =>
  if kind v = emptyFragment then .ok none else (read v).map some

/-- The fragment at a key, which is empty if it is left out. -/
def fragmentAt (read : PlanReader α) (v : Value) (key : String) : Except PlanFault (Option α) :=
  match v.field? key with
  | none => .ok none
  | some w => fragment read w

/-! ### Decisions -/

def groupClause (v : Value) : GroupClause :=
  ⟨intOr v "rule_index" 0, (v.field "groups").textItems⟩

def ownerClause : PlanReader OwnerClause := fun v => do
  let mode ← word "OwnerMode" OwnerMode.all OwnerMode.word v "mode"
  pure ⟨text v "owner_field", mode⟩

def ruleCheck : PlanReader RuleCheck := fun v => do
  let operation ← operation v
  let owner ← optional ownerClause v "owner_clause"
  let stamp ← optional (fun w => .ok (text w "owner_field")) v "stamp"
  pure ⟨text v "model_name", operation, (v.field "group_clauses").items.map groupClause, owner,
    stamp⟩

def authCheck : PlanReader AuthCheck := fun v =>
  match kind v with
  | "AllowAll" => .ok (.allowAll (text v "reason"))
  | "DenyAll" => .ok (.denyAll (text v "reason"))
  | "RuleCheck" => (ruleCheck v).map .rules
  | _ => stray

def verification : PlanReader OwnershipVerification := fun v =>
  match kind v with
  | "OwnershipVerification" => do
    let action ← word "MismatchAction" MismatchAction.all MismatchAction.word v "on_mismatch"
    pure ⟨text v "owner_field", action⟩
  | _ => stray

def itemAccess : PlanReader ItemAccess := fun v =>
  match kind v with
  | "AllowAll" => .ok (.allowAll (text v "reason"))
  | "DenyAll" => .ok (.denyAll (text v "reason"))
  | "ItemFilter" => .ok (.filter ⟨(v.field "groups").textItems, (v.field "owner_field").text?,
      (v.field "gate_flag").text?⟩)
  | _ => stray

/-! ### Results -/

def recordSource : PlanReader RecordSource := fun v =>
  match kind v with
  | "ContextResult" => .ok .result
  | "FirstPageItem" => .ok .firstPageItem
  | "SqlRow" => .ok (.sqlRow (intOr v "statement_index" 0))
  | "HttpBody" => .ok .httpBody
  | _ => stray

def listSource : PlanReader ListSource := fun v =>
  match kind v with
  | "PageItems" => .ok .pageItems
  | "SqlRows" => .ok (.sqlRows (intOr v "statement_index" 0))
  | "HttpBodyItems" => .ok .httpBodyItems
  | _ => stray

def shape : PlanReader ResultShape := fun v =>
  match kind v with
  | "SingleRecord" => do
    let source ← recordSource (v.field "source")
    let verification ← fragmentAt verification v "verification"
    let access ← optional itemAccess v "access"
    pure (.single ⟨source, verification, access, (v.field "local_time_fields").textItems⟩)
  | "RecordList" => do
    let source ← listSource (v.field "source")
    let access ← optional itemAccess v "access"
    pure (.list ⟨source, access, (v.field "local_time_fields").textItems⟩)
  | "PendingAck" => .ok (.pendingAck (textOr v "request_id_stash_key" requestIdKey))
  | "OwnershipConfirmed" => do
    let source ← recordSource (v.field "source")
    let verification ← fragment verification (v.field "verification")
    pure (.confirmOwnership source verification (textOr v "confirm_flag" ownershipConfirmed))
  | "HookOutcome" => (phase v).map fun p => .hookOutcome (text v "stash_key") p
  | "PassThrough" => .ok .passThrough
  | "SubscriptionAck" =>
    .ok (.subscriptionAck (v.field "owner_field").text? (textOr v "gate_flag" filterByOwner))
  | _ => stray

/-! ### Operations -/

def page (v : Value) : PageBounds :=
  let usual := PageBounds.ofArguments (intOr v "default_limit" 0) (intOr v "max_limit" 0)
  { usual with
    limitExpression := textOr v "limit_expression" usual.limitExpression
    tokenExpression := textOr v "token_expression" usual.tokenExpression }

def variableOf (v : Value) : SqlVariable :=
  ⟨text v "name", text v "expression", (v.field "type_hint").text?⟩

def assignment (v : Value) : Assignment :=
  ⟨text v "name", text v "expression"⟩

def queryPart (v : Value) : String × String :=
  match v.textItems with
  | [name, expression] => (name, expression)
  | _ => ("", "")

def inputExpression : String := "$ctx.args.input"

def dataOperation : PlanReader DataOperation := fun v => do
  let page? ← optional (fun w => .ok (page w)) v "page"
  let guard? := (v.field "owner_guard").text?
  match kind v with
  | "GetItem" => pure (.getItem (text v "key_field") (text v "key_expression"))
  | "ScanItems" => pure (.scanItems (page (v.field "page")))
  | "PutItem" => pure (.putItem (text v "key_field") (v.field "timestamps").textItems
      (textOr v "input_expression" inputExpression))
  | "UpdateItem" => pure (.updateItem ⟨text v "key_field", text v "key_expression",
      (v.field "fields").textItems, text v "updated_at_field", guard?,
      textOr v "input_expression" inputExpression⟩)
  | "DeleteItem" => pure (.deleteItem (text v "key_field") (text v "key_expression") guard?)
  | "QueryIndex" => pure (.queryIndex (text v "index_name") (text v "partition_key")
      (text v "value_expression") page?)
  | "SqlStatements" => pure (.sql ⟨(v.field "statements").textItems,
      (v.field "variables").items.map variableOf, (v.field "prelude").items.map assignment,
      page?, guard?⟩)
  | "HttpRequest" => pure (.http ⟨text v "method", text v "resource_path",
      (v.field "body_expression").text?, (v.field "query").items.map queryPart⟩)
  | "Enqueue" => pure (.enqueue (text v "operation") (text v "model_name")
      (text v "queue_url_stash_key") (textOr v "request_id_stash_key" requestIdKey))
  | "InvokeHook" => do
    let p ← phase v
    pure (.invokeHook (text v "hook_name") (text v "function_name") (text v "model_name") p)
  | "NoOp" => pure (.noOp (v.field "payload_expression").text?)
  | _ => stray

/-! ### Plans -/

def request : PlanReader RequestPlan := fun v => do
  let auth ← fragmentAt authCheck v "auth"
  let operation ← dataOperation (v.field "operation")
  pure ⟨text v "description", operation, auth, (v.field "gate").text?⟩

def response : PlanReader ResponsePlan := fun v =>
  (shape (v.field "shape")).map fun shape => ⟨text v "description", shape⟩

end PlanReader

end ApiLoom
