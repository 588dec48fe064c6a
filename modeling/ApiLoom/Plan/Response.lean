import ApiLoom.Plan.Request

/-!
# Responses

A response finds the record or the page in what the store returned, drops what
the caller may not see, and shapes the rest.
-/

namespace ApiLoom

/-- Where the fetched record is. -/
inductive RecordSource where
  | result
  | firstPageItem
  | sqlRow (statementIndex : Int)
  | httpBody
deriving DecidableEq, Repr, Inhabited

/-- Where the fetched page is. -/
inductive ListSource where
  | pageItems
  | sqlRows (statementIndex : Int)
  | httpBodyItems
deriving DecidableEq, Repr, Inhabited

/-- One record or null; every local time field also comes back in the zone of the caller. -/
structure SingleRecord where
  source : RecordSource
  verification : Option OwnershipVerification
  access : Option ItemAccess
  localTimeFields : List String
deriving DecidableEq, Repr, Inhabited

/-- The records of a page that the caller may see, and the token of the next page. -/
structure RecordList where
  source : ListSource
  access : Option ItemAccess
  localTimeFields : List String
deriving DecidableEq, Repr, Inhabited

inductive ResultShape where
  | single (record : SingleRecord)
  | list (records : RecordList)
  | pendingAck (requestIdStashKey : String)
  | confirmOwnership (source : RecordSource) (verification : Option OwnershipVerification)
      (confirmFlag : String)
  | hookOutcome (stashKey : String) (phase : HookPhase)
  | passThrough
  | subscriptionAck (ownerField : Option String) (gateFlag : String)
deriving DecidableEq, Repr, Inhabited

/-- A record as the store returns it, with no decision attached. -/
def SingleRecord.plain (source : RecordSource) : SingleRecord :=
  ⟨source, none, none, []⟩

/-- The same shape with local times of the fields, if it has records and there are fields. -/
def ResultShape.withLocalTimes (shape : ResultShape) (fields : List String) : ResultShape :=
  if fields.isEmpty then shape
  else
    match shape with
    | single record => single { record with localTimeFields := fields }
    | list records => list { records with localTimeFields := fields }
    | other => other

structure ResponsePlan where
  description : String
  shape : ResultShape
deriving DecidableEq, Repr, Inhabited

/-- The request and the response of one resolver or of one stage. -/
structure Exchange where
  request : RequestPlan
  response : ResponsePlan
deriving DecidableEq, Repr, Inhabited

end ApiLoom
