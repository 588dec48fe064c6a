import ApiLoom.Config
import ApiLoom.Plan.Access

/-!
# Authorization

The decisions that the access rules of a model ask for.  Rules only add: a caller
is let in by the first clause that holds.  Where an operation has no rule, the
default of the model decides; a model without access control lets everybody in.
-/

namespace ApiLoom

namespace AccessControl

def noAccessControl : String := "No access control defined - allow all"

def defaultAllow : String := "Default allow - no specific rules"

def defaultDeny : String := "No access rules defined for this operation"

/-- The group clauses of an operation, with the places of their rules among all rules. -/
def groupClausesFrom (operation : Operation) (index : Nat) : List AccessRule → List GroupClause
  | [] => []
  | r :: rest =>
    let later := groupClausesFrom operation (index + 1) rest
    if r.allow = operation ∧ !r.groups.isEmpty then ⟨index, r.groups⟩ :: later else later

end AccessControl

namespace Model

open AccessControl

def ownerMode (operation : Operation) (scope : AccessScope) : OwnerMode :=
  match operation, scope with
  | .create, _ => .stamp
  | _, .collection => .filterItems
  | _, .item => .deferToFetch

/-- Whether the caller may perform the operation; a create also stamps its owner. -/
def authCheck (m : Model) (operation : Operation) (scope : AccessScope) : AuthCheck :=
  match m.accessControl with
  | none => .allowAll noAccessControl
  | some access =>
    if (access.rulesFor operation).isEmpty then
      match access.default with
      | .allow => .allowAll defaultAllow
      | .deny => .denyAll defaultDeny
    else
      .rules {
        modelName := m.name
        operation := operation
        groupClauses := groupClausesFrom operation 0 access.rules
        ownerClause := m.ownerField.bind fun owner =>
          if access.hasOwnerRule operation then some ⟨owner, ownerMode operation scope⟩ else none
        stamp := if operation = .create then m.ownerField else none }

/-- The owner property that an operation on stored records has to look at. -/
def guardedOwner (m : Model) (operation : Operation) : Option String :=
  if operation = .create then none
  else
    m.accessControl.bind fun access =>
      if access.hasOwnerRule operation then m.ownerField else none

/-- The fetch of the stored record on which ownership is decided. -/
def preFetch (m : Model) (config : Config) (operation : Operation) : Option OwnershipPreFetch :=
  (m.guardedOwner operation).map fun owner =>
    let arguments := if operation = .read then "$ctx.args." else "$ctx.args.input."
    ⟨m.name, operation, owner, arguments ++ config.identifierField⟩

/-- A record of somebody else reads as null and cannot be changed. -/
def verification (m : Model) (operation : Operation) : Option OwnershipVerification :=
  (m.guardedOwner operation).map fun owner =>
    ⟨owner, if operation = .read then .nullResult else .deny⟩

def itemAccess (m : Model) : ItemAccess :=
  match m.accessControl with
  | none => .allowAll noAccessControl
  | some access =>
    let rules := access.rulesFor .read
    if rules.isEmpty then
      match access.default with
      | .allow => .allowAll defaultAllow
      | .deny => .denyAll defaultDeny
    else
      .filter {
        groups := (rules.flatMap (·.groups)).eraseDups
        ownerField := if access.hasOwnerRule .read then m.ownerField else none
        gateFlag := none }

/-- Keeps the records of the caller, when the list was authorized by ownership alone. -/
def collectionFilter (m : Model) : Option ItemFilter :=
  (m.guardedOwner .read).map fun owner => ⟨[], some owner, some filterByOwner⟩

end Model

end ApiLoom
