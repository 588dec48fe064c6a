import ApiLoom.Calendar.IsoText
import ApiLoom.Review.Finding
import ApiLoom.Store.Binding

/-!
# Checks of a set of models

What can only be seen on the whole set: names that clash, owner rules that
nobody can meet, stores that are not declared, relationships that lead nowhere.
Seed records are compared with the properties they fill and lead to warnings
only.
-/

namespace ApiLoom.Review

/-! ### Models -/

def reservedTypes : List String :=
  ["Query", "Mutation", "Subscription", "JobResult", "ID", "String", "Int", "Float", "Boolean",
    "AWSDateTime", "AWSJSON", "AWSEmail", "AWSURL", "AWSPhone", "AWSIPAddress", "AWSDate",
    "AWSTime", "AWSTimestamp"]

/-- The name of one model, given the names before it. -/
def nameFindings (seen : List String) (m : Model) : List Finding :=
  (if seen.contains m.name then [.duplicateName m.name m.source] else []) ++
    (if reservedTypes.contains m.name then [.reservedName m.name m.source]
      else if Text.isPascalCase m.name then []
      else [.notPascalCase m.name m.source])

def namesFrom (seen : List String) : List Model → List Finding
  | [] => []
  | m :: rest => nameFindings seen m ++ namesFrom (m.name :: seen) rest

def modelNames (models : List Model) : List Finding :=
  namesFrom [] models ++
    models.filterMap fun m =>
      if (models.map (·.name)).contains (Naming.connectionType m.name) then
        some (.connectionName m.name m.source)
      else none

def identifiers (config : Config) (models : List Model) : List Finding :=
  models.filterMap fun m =>
    if m.hasProperty config.identifierField then none
    else some (.noIdentifier m.name config.identifierField)

def fetchedOperations : List Operation := [.read, .update, .delete]

def ruleFindings (m : Model) (access : AccessControl) : List Finding :=
  (Operation.all.filterMap fun o =>
    if access.hasOwnerRule o && m.ownerField.isNone then some (.ownerRuleWithoutOwner m.name o)
    else none) ++
  (match m.ownerField with
    | some owner =>
      if (access.rulesFor .create).isEmpty then [.ownerNotStamped m.name owner] else []
    | none => []) ++
  (if m.isRateLimited then
    fetchedOperations.filterMap fun o =>
      if access.hasOwnerRule o then some (.ownerRuleOnQueue m.name o) else none
  else [])

def accessControl (models : List Model) : List Finding :=
  models.flatMap fun m =>
    match m.accessControl with
    | none =>
      match m.ownerField with
      | some owner => [.ownerWithoutAccess m.name owner]
      | none => []
    | some access => ruleFindings m access

def longestWindow : Int := 86400

def windowFindings (m : Model) : List Finding :=
  match m.dataSource with
  | .thirdPartyApi _ (some limits) =>
    if longestWindow < limits.frequencyInSeconds then
      [.longWindow m.name limits.frequencyInSeconds]
    else []
  | _ => []

def dataSources (config : Config) (models : List Model) : List Finding :=
  models.flatMap fun m =>
    (if m.engine = .relational ∧ (sharedCluster models config).isNone then [.noCluster m.name]
      else []) ++ windowFindings m

/-- A target that is there must be one that can be reached, and must have the key. -/
def targetFindings (models : List Model) (m : Model) (field : String) (r : Relationship) :
    List Finding :=
  match modelNamed models r.target with
  | none => []
  | some target =>
    if !target.engine.isStored then [.targetNotTraversable m.name field target.name]
    else if r.kind.isIndexed && !target.hasProperty (foreignKeyOf m r) then
      [.keyNotOnTarget m.name field r.kind (foreignKeyOf m r) target.name]
    else []

def relationships (models : List Model) : List Finding :=
  (relationshipIssues models).map Finding.brokenRelationship ++
    models.flatMap fun m => m.relationships.flatMap fun r =>
      (if m.hasProperty r.1 then [.fieldConflict m.name r.1] else []) ++
        targetFindings models m r.1 r.2

def hookFindings (m : Model) (phase : HookPhase) (operation : Operation) (function : String) :
    List Finding :=
  (if Text.isFunctionReference function then []
    else [.badHookFunction m.name (hookName phase operation) function]) ++
  (if m.isRateLimited && phase = .after then [.hookAfterQueue m.name (hookName phase operation)]
    else [])

def hooks (models : List Model) : List Finding :=
  models.flatMap fun m => m.hooks.declared.flatMap fun d => hookFindings m d.1.1 d.1.2 d.2

/-- Scalars of the platform are declared in the header of the schema. -/
def isPlatformScalar (scalar : String) : Bool :=
  ['A', 'W', 'S'].isPrefixOf scalar.toList

def scalars (config : Config) (models : List Model) : List Finding :=
  models.flatMap fun m => m.properties.filterMap fun p =>
    if isPlatformScalar p.idlType && !config.scalars.contains p.idlType then
      some (.scalarNotDeclared m.name p.name p.idlType)
    else none

/-! ### Seed data -/

abbrev SeedData := List (String × List Entries)

def matchesKind (v : Value) : ScalarKind → Bool
  | .identifier | .text =>
    match v with
    | .scalar (.text _) => true
    | _ => false
  | .integer =>
    match v with
    | .scalar (.int _) => true
    | _ => false
  | .float =>
    match v with
    | .scalar (.int _) | .scalar (.float _) => true
    | _ => false
  | .boolean =>
    match v with
    | .scalar (.bool _) => true
    | _ => false
  | .timestamp =>
    match v with
    | .scalar (.moment _) => true
    | .scalar (.text s) =>
      Calendar.isIsoMoment (s.replace "Z" "+00:00")
    | _ => false
  | .json => true

def isNull : Value → Bool
  | .scalar .null => true
  | _ => false

def propertyAt (m : Model) : Scalar → Option Property
  | .text key => m.property? key
  | _ => none

def entryFindings (m : Model) (model : String) (record : Nat) (e : Scalar × Value) :
    List Finding :=
  match propertyAt m e.1 with
  | none => [.unknownSeedProperty model record e.1]
  | some p =>
    if !isNull e.2 && !matchesKind e.2 p.kind then
      [.seedMismatch model record e.1 p.kind e.2]
    else []

def isFilled (record : Entries) (key : String) : Bool :=
  match record.get? key with
  | some v => !isNull v
  | none => false

def recordFindings (config : Config) (m : Model) (model : String) (index : Nat)
    (record : Entries) : List Finding :=
  record.flatMap (entryFindings m model index) ++
    m.properties.filterMap fun p =>
      if p.required && !config.managedTimestamps.contains p.name && !isFilled record p.name then
        some (.seedMissing model index p.name)
      else none

def recordsFrom (config : Config) (m : Model) (model : String) (index : Nat) :
    List Entries → List Finding
  | [] => []
  | record :: rest =>
    recordFindings config m model index record ++ recordsFrom config m model (index + 1) rest

def seedData (config : Config) (models : List Model) (seeds : SeedData) : List Finding :=
  seeds.flatMap fun s =>
    match modelNamed models s.1 with
    | none => [.unknownSeedModel s.1]
    | some m => recordsFrom config m s.1 0 s.2

/-! ### All checks -/

def allOfModels (config : Config) (models : List Model) : List Finding :=
  modelNames models ++ identifiers config models ++ accessControl models ++
    dataSources config models ++ relationships models ++ hooks models ++ scalars config models

def all (config : Config) (models : List Model) (seeds : SeedData) : List Finding :=
  allOfModels config models ++ seedData config models seeds

/-- What the review reports. -/
def report (config : Config) (models : List Model) (seeds : SeedData) :
    Except MessageFault Report :=
  Report.written (all config models seeds)

end ApiLoom.Review
