import ApiLoom.Model.Definition
import ApiLoom.Naming

/-!
# Foreign keys and indexes

Which property links two models, which indexes a model needs so that no
traversal has to scan, and which relationships are broken.
-/

namespace ApiLoom

/-- The key that is declared, else one named for the model it refers to. -/
def foreignKeyOf (source : Model) (r : Relationship) : String :=
  match nonEmpty r.foreignKey with
  | some key => key
  | none =>
    match r.kind with
    | .belongsTo => Text.lower r.target ++ "Id"
    | .hasMany | .hasOne => Text.lower source.name ++ "Id"

/-- The key of these relationships lies on the target, which needs an index on it. -/
def RelationshipKind.isIndexed : RelationshipKind → Bool
  | hasMany | hasOne => true
  | belongsTo => false

structure SecondaryIndex where
  indexName : String
  partitionKey : String
deriving DecidableEq, Repr, Inhabited

/-- The foreign keys that relationships of the set look for on the model, each once. -/
def indexedKeys (models : List Model) (model : String) : List String :=
  (models.flatMap fun source =>
    (source.relationships.filter fun r => r.2.kind.isIndexed && r.2.target = model).map
      fun r => foreignKeyOf source r.2).eraseDups

def planIndexes (models : List Model) (model : String) : List SecondaryIndex :=
  (indexedKeys models model).map fun key => ⟨Naming.indexName key, key⟩

def indexPlan (models : List Model) : List (String × List SecondaryIndex) :=
  (models.map (·.name)).eraseDups.map fun name => (name, planIndexes models name)

/-- What is wrong with the relationship at a field of a model. -/
structure RelationshipIssue where
  model : String
  field : String
  error : String
deriving DecidableEq, Repr

def RelationshipIssue.text (i : RelationshipIssue) : String :=
  s!"{i.model}.{i.field}: {i.error}"

/-- The target is missing, or the key of a `belongsTo` is no property. -/
def relationshipIssue (models : List Model) (model : Model) (field : String) (r : Relationship) :
    Option RelationshipIssue :=
  if (modelNamed models r.target).isNone then
    some ⟨model.name, field, s!"Target model '{r.target}' not found"⟩
  else if r.kind = .belongsTo ∧ !model.hasProperty (foreignKeyOf model r) then
    some ⟨model.name, field,
      s!"Foreign key '{foreignKeyOf model r}' not found in model properties"⟩
  else none

def relationshipIssues (models : List Model) : List RelationshipIssue :=
  models.flatMap fun m =>
    m.relationships.filterMap fun r => relationshipIssue models m r.1 r.2

end ApiLoom
