import ApiLoom.Plan.Response

/-!
# Plans as documents

A plan can be kept as a document.  Each of its nodes is a mapping that names the
kind of the node and holds its fields; a node that may be left out is then the
empty fragment.
-/

namespace ApiLoom

/-! ### Nodes -/

def nodeKey : String := "node"

def emptyFragment : String := "EmptyFragment"

namespace Value

def node (kind : String) (fields : List (String × Value)) : Value :=
  object ((nodeKey, text kind) :: fields)

def optional {α : Type} (document : α → Value) : Option α → Value
  | some a => document a
  | none => null

def fragment {α : Type} (document : α → Value) : Option α → Value
  | some a => document a
  | none => node emptyFragment []

end Value

open Value (node optional fragment)

/-! ### Decisions -/

def GroupClause.document (c : GroupClause) : Value :=
  node "GroupClause" [("rule_index", .int c.ruleIndex), ("groups", .texts c.groups)]

def OwnerClause.document (c : OwnerClause) : Value :=
  node "OwnerClause" [("owner_field", .text c.ownerField), ("mode", .text c.mode.word)]

def stampDocument (owner : String) : Value :=
  node "OwnerStamp" [("owner_field", .text owner)]

def RuleCheck.document (c : RuleCheck) : Value :=
  node "RuleCheck" [("model_name", .text c.modelName), ("operation", .text c.operation.word),
    ("group_clauses", .list (c.groupClauses.map GroupClause.document)),
    ("owner_clause", optional OwnerClause.document c.ownerClause),
    ("stamp", optional stampDocument c.stamp)]

def AuthCheck.document : AuthCheck → Value
  | allowAll reason => node "AllowAll" [("reason", .text reason)]
  | denyAll reason => node "DenyAll" [("reason", .text reason)]
  | rules check => check.document

def OwnershipPreFetch.document (p : OwnershipPreFetch) : Value :=
  node "OwnershipPreFetch" [("model_name", .text p.modelName),
    ("operation", .text p.operation.word), ("owner_field", .text p.ownerField),
    ("key_expression", .text p.keyExpression)]

def OwnershipVerification.document (v : OwnershipVerification) : Value :=
  node "OwnershipVerification" [("owner_field", .text v.ownerField),
    ("on_mismatch", .text v.onMismatch.word)]

def ItemFilter.document (f : ItemFilter) : Value :=
  node "ItemFilter" [("groups", .texts f.groups), ("owner_field", optional .text f.ownerField),
    ("gate_flag", optional .text f.gateFlag)]

def ItemAccess.document : ItemAccess → Value
  | allowAll reason => node "AllowAll" [("reason", .text reason)]
  | denyAll reason => node "DenyAll" [("reason", .text reason)]
  | filter f => f.document

/-! ### Results -/

def RecordSource.document : RecordSource → Value
  | result => node "ContextResult" []
  | firstPageItem => node "FirstPageItem" []
  | sqlRow i => node "SqlRow" [("statement_index", .int i)]
  | httpBody => node "HttpBody" []

def ListSource.document : ListSource → Value
  | pageItems => node "PageItems" []
  | sqlRows i => node "SqlRows" [("statement_index", .int i)]
  | httpBodyItems => node "HttpBodyItems" []

def ResultShape.document : ResultShape → Value
  | single r => node "SingleRecord" [("source", r.source.document),
      ("verification", fragment OwnershipVerification.document r.verification),
      ("access", optional ItemAccess.document r.access),
      ("local_time_fields", .texts r.localTimeFields)]
  | list r => node "RecordList" [("source", r.source.document),
      ("access", optional ItemAccess.document r.access),
      ("local_time_fields", .texts r.localTimeFields)]
  | pendingAck key => node "PendingAck" [("request_id_stash_key", .text key)]
  | confirmOwnership source verification flag => node "OwnershipConfirmed"
      [("source", source.document),
        ("verification", fragment OwnershipVerification.document verification),
        ("confirm_flag", .text flag)]
  | hookOutcome key phase => node "HookOutcome"
      [("stash_key", .text key), ("phase", .text phase.word)]
  | passThrough => node "PassThrough" []
  | subscriptionAck owner flag => node "SubscriptionAck"
      [("owner_field", optional .text owner), ("gate_flag", .text flag)]

end ApiLoom
