import ApiLoom.Config
import ApiLoom.Plan.Access
import ApiLoom.Template.Script

/-!
# Templates of access decisions

The scripts that decide about the caller.  `$isAuthorized` holds the decision of a
request, `$visible` whether the fetched record may be shown, and `$canAccess` the
decision on one record of a page.
-/

namespace ApiLoom.Template

open Script

def callerGroups (config : Config) : Term :=
  .orDefault ((Term.identity.member "claims").call "get" [.quoted config.groupsClaim]) (.list [])

/-- Sets a variable to true when the caller is in one of the groups. -/
def grantToGroups (name : String) (items : Term) (groups : List String) : Script :=
  whenNot (.var name) <|
    forEach "group" items <|
      when (.oneOf (.var "group") groups) (acts [.set name (.truth true), .leaveLoop])

/-! ### Decisions of a request -/

/-- Notes in the stash why a request failed, for callers that ask for it. -/
def debugNote (config : Config) (key message : String) : Script :=
  if config.debugInstrumentation then
    when (.holds (.orDefault (Term.headers.item (.plain "x-debug")) (.truth false)))
      (acts [.run (.stashPut key (.quoted message))])
  else done

def groupClause (clause : GroupClause) : Script :=
  let names := String.intercalate ", " clause.groups
  acts [.comment s!"Rule {clause.ruleIndex + 1}: groups {names}"] ++
    grantToGroups "isAuthorized" (.var "userGroups") clause.groups

def ownerClauseComment (owner : OwnerClause) : String :=
  match owner.mode with
  | .stamp => "Owner rule: the caller becomes the owner of the new record"
  | .deferToFetch => s!"Owner rule: decided against the stored {owner.ownerField}"
  | .filterItems => s!"Owner rule: only records whose {owner.ownerField} is the caller"

def OwnerMode.flag : OwnerMode → Option String
  | .stamp => none
  | .deferToFetch => some needsOwnershipCheck
  | .filterItems => some filterByOwner

def ownerClause (owner : OwnerClause) : Script :=
  acts [.comment (ownerClauseComment owner)] ++
    when (.both (.fails .isAuthorized) (.fails (Term.util.call "isNullOrEmpty" [.var "userId"])))
      (acts (.set "isAuthorized" (.truth true) ::
        (match OwnerMode.flag owner.mode with
          | some flag => [.run (.stashPut flag (.truth true))]
          | none => [])))

/-- Makes the caller the owner of the record that the request creates. -/
def stampOwner (ownerField : String) : Script :=
  acts [.comment s!"Stamp the caller as {ownerField} of the new record",
    .run ((Term.arguments.member "input").call "put" [.plain ownerField, .var "userId"])]

def ruleCheck (config : Config) (check : RuleCheck) : Script :=
  acts [.comment s!"Authorization check for {check.operation.word} on {check.modelName}",
    .set "isAuthorized" (.truth false), .set "userId" .caller,
    .set "userGroups" (callerGroups config)] ++
  concat (check.groupClauses.map groupClause) ++
  (match check.ownerClause with
    | some owner => ownerClause owner
    | none => done) ++
  whenNot .isAuthorized
    (debugNote config "debug-auth-failed"
        s!"User $userId not authorized for {check.operation.word} on {check.modelName}" ++
      acts [.refuse]) ++
  (match check.stamp with
    | some ownerField => stampOwner ownerField
    | none => done)

/-- Aborts unless the caller is authorized. -/
def authorize (config : Config) : AuthCheck → Script
  | .allowAll reason => acts [.comment reason]
  | .denyAll reason => acts [.comment s!"Access denied: {reason}", .refuse]
  | .rules check => ruleCheck config check

/-! ### Decisions on records -/

def MismatchAction.action : MismatchAction → Action
  | .nullResult => .set "visible" (.truth false)
  | .deny => .refuse

/-- Compares the owner of `$record` with the caller, if the request asked for it. -/
def verify (v : OwnershipVerification) : Script :=
  acts [.comment s!"Ownership verification against the fetched record's {v.ownerField}"] ++
    when (.both (.holds .visible) (.both (.flagged needsOwnershipCheck)
        (.compare (Term.record.member v.ownerField) .different .caller)))
      (acts [MismatchAction.action v.onMismatch])

def verifyIfAny : Option OwnershipVerification → Script
  | some v => verify v
  | none => done

def itemFilter (config : Config) (f : ItemFilter) (subject : Term) : Script :=
  let grant : Script := acts [.set "canAccess" (.truth true)]
  acts [.set "canAccess" (.truth false)] ++
  (match nonEmpty f.gateFlag with
    | some flag => when (.fails (.stash flag)) grant
    | none => done) ++
  (if f.groups.isEmpty then done else grantToGroups "canAccess" (callerGroups config) f.groups) ++
  (match nonEmpty f.ownerField with
    | some ownerField =>
      when (.both (.fails .canAccess) (.isCaller (subject.member ownerField))) grant
    | none => done)

/-- Sets `$canAccess` for the record that is bound to the subject. -/
def decideItem (config : Config) (access : ItemAccess) (subject : Term) : Script :=
  match access with
  | .allowAll _ => acts [.set "canAccess" (.truth true)]
  | .denyAll _ => acts [.set "canAccess" (.truth false)]
  | .filter f => itemFilter config f subject

end ApiLoom.Template
