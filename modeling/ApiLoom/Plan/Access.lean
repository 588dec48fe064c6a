import ApiLoom.Model.Definition

/-!
# Access decisions

What a template decides about the caller before, with and after a data
operation.  A request may authorize the caller provisionally: it then sets a flag
in the stash, and a later template makes the decision for which the flag asks.
-/

namespace ApiLoom

/-! ### Stash entries -/

def needsOwnershipCheck : String := "needsOwnershipCheck"

/-- Only the records of the caller may be handed out. -/
def filterByOwner : String := "filterByOwner"

def ownershipConfirmed : String := "ownershipConfirmed"

def requestIdKey : String := "requestId"

def pageLimitKey : String := "pageLimit"

def pageOffsetKey : String := "pageOffset"

/-! ### Decisions of a request -/

/-- What follows for a caller whom only ownership can authorize. -/
inductive OwnerMode where
  | stamp
  | deferToFetch
  | filterItems
deriving DecidableEq, Repr, Inhabited

namespace OwnerMode

def all : List OwnerMode := [stamp, deferToFetch, filterItems]

def word : OwnerMode → String
  | stamp => "stamp"
  | deferToFetch => "defer_to_fetch"
  | filterItems => "filter_items"

end OwnerMode

/-- Holds for a caller in any of the groups. -/
structure GroupClause where
  ruleIndex : Int
  groups : List String
deriving DecidableEq, Repr, Inhabited

structure OwnerClause where
  ownerField : String
  mode : OwnerMode
deriving DecidableEq, Repr, Inhabited

/-- Group clauses in order, then at most one owner clause, then the decision; a caller
who is let in becomes the owner where there is a stamp. -/
structure RuleCheck where
  modelName : String
  operation : Operation
  groupClauses : List GroupClause
  ownerClause : Option OwnerClause
  stamp : Option String
deriving DecidableEq, Repr, Inhabited

def RuleCheck.needsPreFetch (c : RuleCheck) : Bool :=
  match c.ownerClause with
  | some owner => owner.mode = .deferToFetch
  | none => false

inductive AuthCheck where
  | allowAll (reason : String)
  | denyAll (reason : String)
  | rules (check : RuleCheck)
deriving DecidableEq, Repr, Inhabited

/-! ### Decisions on stored records -/

/-- The stored record has to be fetched before the operation. -/
structure OwnershipPreFetch where
  modelName : String
  operation : Operation
  ownerField : String
  keyExpression : String
deriving DecidableEq, Repr, Inhabited

inductive MismatchAction where
  | nullResult
  | deny
deriving DecidableEq, Repr, Inhabited

namespace MismatchAction

def all : List MismatchAction := [nullResult, deny]

def word : MismatchAction → String
  | nullResult => "null_result"
  | deny => "deny"

end MismatchAction

/-- Compares the owner of the fetched record with the caller, when the stash asks for it. -/
structure OwnershipVerification where
  ownerField : String
  onMismatch : MismatchAction
deriving DecidableEq, Repr, Inhabited

/-- Lets a record through for its owner and for some groups; with a gate, every record
goes through unless the gate is set in the stash. -/
structure ItemFilter where
  groups : List String
  ownerField : Option String
  gateFlag : Option String
deriving DecidableEq, Repr, Inhabited

inductive ItemAccess where
  | allowAll (reason : String)
  | denyAll (reason : String)
  | filter (filter : ItemFilter)
deriving DecidableEq, Repr, Inhabited

end ApiLoom
