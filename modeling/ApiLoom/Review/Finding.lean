import ApiLoom.Document.Writable
import ApiLoom.Relationship.ForeignKey
import ApiLoom.Review.Report

/-!
# Findings

Everything that can be wrong with a set of models and its seed data, and how it
is reported.
-/

namespace ApiLoom

inductive Finding where
  | duplicateName (model : String) (source : Option String)
  | reservedName (model : String) (source : Option String)
  | notPascalCase (model : String) (source : Option String)
  | connectionName (model : String) (source : Option String)
  | noIdentifier (model identifier : String)
  | ownerWithoutAccess (model owner : String)
  | ownerRuleWithoutOwner (model : String) (operation : Operation)
  | ownerNotStamped (model owner : String)
  | ownerRuleOnQueue (model : String) (operation : Operation)
  | noCluster (model : String)
  | longWindow (model : String) (seconds : Int)
  | brokenRelationship (issue : RelationshipIssue)
  | fieldConflict (model field : String)
  | targetNotTraversable (model field target : String)
  | keyNotOnTarget (model field : String) (kind : RelationshipKind) (key target : String)
  | badHookFunction (model hook function : String)
  | hookAfterQueue (model hook : String)
  | scalarNotDeclared (model property scalar : String)
  | unknownSeedModel (model : String)
  | unknownSeedProperty (model : String) (record : Nat) (key : Scalar)
  | seedMismatch (model : String) (record : Nat) (key : Scalar) (kind : ScalarKind) (value : Value)
  | seedMissing (model : String) (record : Nat) (property : String)
deriving Repr

namespace Finding

def level : Finding → Level
  | notPascalCase .. | ownerWithoutAccess .. | ownerNotStamped .. | longWindow ..
  | hookAfterQueue .. | scalarNotDeclared .. | unknownSeedModel .. | unknownSeedProperty ..
  | seedMismatch .. | seedMissing .. => .warning
  | _ => .error

def code : Finding → String
  | duplicateName .. => "DUPLICATE_MODEL_NAME"
  | reservedName .. | connectionName .. => "RESERVED_MODEL_NAME"
  | notPascalCase .. => "MODEL_NAME_NOT_PASCAL_CASE"
  | noIdentifier .. => "MISSING_IDENTIFIER"
  | ownerWithoutAccess .. | ownerNotStamped .. => "OWNER_NOT_STAMPED"
  | ownerRuleWithoutOwner .. => "OWNER_RULE_WITHOUT_OWNER"
  | ownerRuleOnQueue .. => "OWNER_RULE_ON_QUEUED_SOURCE"
  | noCluster .. => "RELATIONAL_CLUSTER_MISSING"
  | longWindow .. => "RATE_LIMIT_WINDOW_TOO_LONG"
  | brokenRelationship .. => "RELATIONSHIP_INVALID"
  | fieldConflict .. => "RELATIONSHIP_FIELD_CONFLICT"
  | targetNotTraversable .. => "RELATIONSHIP_TARGET_NOT_TRAVERSABLE"
  | keyNotOnTarget .. => "FOREIGN_KEY_NOT_ON_TARGET"
  | badHookFunction .. => "INVALID_HOOK_FUNCTION"
  | hookAfterQueue .. => "AFTER_HOOK_ON_QUEUED_SOURCE"
  | scalarNotDeclared .. => "SCALAR_NOT_DECLARED"
  | unknownSeedModel .. => "UNKNOWN_SEED_MODEL"
  | unknownSeedProperty .. => "SEED_UNKNOWN_PROPERTY"
  | seedMismatch .. => "SEED_TYPE_MISMATCH"
  | seedMissing .. => "SEED_MISSING_REQUIRED"

def message : Finding → String
  | duplicateName model _ => s!"Model name '{model}' is defined more than once."
  | reservedName model _ => s!"Model name '{model}' clashes with a generated type."
  | notPascalCase model _ =>
    s!"Model name '{model}' is not PascalCase; generated type and field names will keep its " ++
      "spelling."
  | connectionName model _ =>
    s!"Model name '{Naming.connectionType model}' clashes with the connection type of '{model}'."
  | noIdentifier model identifier => s!"Model '{model}' has no '{identifier}' property."
  | ownerWithoutAccess model owner =>
    s!"Model '{model}' marks '{owner}' as owner but has no access control, " ++
      "so the owner is never stamped on create."
  | ownerRuleWithoutOwner model operation =>
    s!"Model '{model}' has an owner rule for '{operation.word}' but no property is marked isOwner."
  | ownerNotStamped model owner =>
    s!"Model '{model}' has no create rule, so '{owner}' is never stamped with the caller identity."
  | ownerRuleOnQueue model operation =>
    s!"Model '{model}' is rate-limited; an owner rule for '{operation.word}' cannot be checked " ++
      "against a queued request."
  | noCluster model =>
    s!"Model '{model}' uses the relational engine but no relational cluster is declared by any " ++
      "model or by the configuration."
  | longWindow model seconds =>
    s!"Model '{model}' rate-limit window of {seconds}s exceeds one day."
  | brokenRelationship issue => issue.text
  | fieldConflict model field =>
    s!"Relationship '{field}' on '{model}' shadows a property of the same name."
  | targetNotTraversable model field target =>
    s!"Relationship '{model}.{field}' targets third-party model '{target}', which cannot be " ++
      "queried by key."
  | keyNotOnTarget model field kind key target =>
    s!"Relationship '{model}.{field}' ({kind.word}) needs '{key}' on target model '{target}'."
  | badHookFunction model hook function =>
    s!"Hook '{hook}' on '{model}' names an invalid function reference '{function}'."
  | hookAfterQueue model hook =>
    s!"Hook '{hook}' on rate-limited '{model}' only sees the PENDING acknowledgement, not the " ++
      "final result."
  | scalarNotDeclared model property scalar =>
    s!"Property '{model}.{property}' uses scalar '{scalar}', which is not in the configured " ++
      "scalar declarations."
  | unknownSeedModel model => s!"Seed data provided for unknown model '{model}'."
  | unknownSeedProperty model record key =>
    s!"Seed record {record} of '{model}' sets unknown property '{key.display}'."
  | seedMismatch model record key kind value =>
    s!"Seed record {record} of '{model}': '{key.display}' is not a valid {kind.word} value " ++
      s!"({value.literal})."
  | seedMissing model record property =>
    s!"Seed record {record} of '{model}' is missing required property '{property}'."

/-- The message shows no number that is too long. -/
def isWritable : Finding → Bool
  | longWindow _ seconds => (Scalar.int seconds).isWritable
  | unknownSeedProperty _ _ key => key.isWritable
  | seedMismatch _ _ key _ value => key.isWritable && value.isWritable
  | _ => true

def sourceValue (source : Option String) : Value :=
  (source.map Value.text).getD .null

def context : Finding → List (String × Value)
  | duplicateName model source | reservedName model source | notPascalCase model source =>
    [("model", .text model), ("source", sourceValue source)]
  | connectionName model source =>
    [("model", .text (Naming.connectionType model)), ("source", sourceValue source)]
  | noIdentifier model _ | ownerWithoutAccess model _ | ownerNotStamped model _ | noCluster model
  | longWindow model _ | unknownSeedModel model => [("model", .text model)]
  | ownerRuleWithoutOwner model operation | ownerRuleOnQueue model operation =>
    [("model", .text model), ("operation", .text operation.word)]
  | brokenRelationship issue => [("model", .text issue.model), ("field", .text issue.field)]
  | fieldConflict model field | targetNotTraversable model field _ =>
    [("model", .text model), ("field", .text field)]
  | keyNotOnTarget model field _ key _ =>
    [("model", .text model), ("field", .text field), ("foreign_key", .text key)]
  | badHookFunction model hook _ | hookAfterQueue model hook =>
    [("model", .text model), ("hook", .text hook)]
  | scalarNotDeclared model property _ =>
    [("model", .text model), ("property", .text property)]
  | unknownSeedProperty model record _ | seedMismatch model record _ _ _
  | seedMissing model record _ => [("model", .text model), ("record", .int record)]

def issue (f : Finding) : Issue :=
  ⟨f.level, f.code, f.message, f.context⟩

end Finding

def Report.ofFindings (findings : List Finding) : Report :=
  ⟨findings.map Finding.issue⟩

/-- There is no report if the message of a finding cannot be made. -/
def Report.written (findings : List Finding) : Except MessageFault Report :=
  if findings.all Finding.isWritable then .ok (.ofFindings findings) else .error .longNumber

theorem Report.written_eq_ok_iff {findings : List Finding} {r : Report} :
    written findings = .ok r ↔
      (∀ f ∈ findings, f.isWritable = true) ∧ r = .ofFindings findings := by
  unfold written
  split
  · next writable =>
    rw [List.all_eq_true] at writable
    exact ⟨fun told => ⟨writable, (Except.ok.inj told).symm⟩, fun told => congrArg _ told.2.symm⟩
  · next unwritable =>
    rw [List.all_eq_true] at unwritable
    exact ⟨nofun, fun told => absurd told.1 unwritable⟩

theorem Report.written_eq_error_iff {findings : List Finding} {fault : MessageFault} :
    written findings = .error fault ↔ ∃ f ∈ findings, f.isWritable = false := by
  cases fault
  unfold written
  split
  · next writable =>
    rw [List.all_eq_true] at writable
    refine ⟨nofun, fun ⟨f, found, long⟩ => ?_⟩
    rw [writable f found] at long
    cases long
  · next unwritable =>
    rw [Bool.not_eq_true, List.all_eq_false] at unwritable
    exact ⟨fun _ => by simpa using unwritable, fun _ => rfl⟩

end ApiLoom
