import ApiLoom.Model.Managed
import ApiLoom.Naming
import ApiLoom.Schema.Document

/-!
# The schema of a set of models

Each model has an object type, three input types and, unless its requests are
queued, a page type.  The root types list the fields of all models in the order of
their names, so the order of the models does not show.
-/

namespace ApiLoom.Schema

/-! ### Blocks of a model -/

def propertyField (p : Property) : Field :=
  .plain p.name ⟨p.idlType, false, p.required⟩

def optionalField (p : Property) : Field :=
  .plain p.name (.optional p.idlType)

def pageArguments : List Argument :=
  [⟨"limit", .optional "Int"⟩, ⟨"nextToken", .optional "String"⟩]

/-- The field of a relationship; to many, it is a page. -/
def relationshipField (name : String) (r : Relationship) : Field :=
  match r.kind with
  | .hasMany => ⟨name, pageArguments, .optional (Naming.connectionType r.target), none⟩
  | .belongsTo | .hasOne => .plain name (.optional r.target)

def relationshipFields (m : Model) : List Field :=
  m.relationships.map fun r => relationshipField r.1 r.2

def localTimeFields (config : Config) (m : Model) : List Field :=
  (m.localTimeFields config).map fun name =>
    .plain (Naming.localTimeField name) (.optional "AWSDateTime")

def typeBlock (config : Config) (m : Model) : Block :=
  ⟨.object, m.name,
    m.properties.map propertyField ++ localTimeFields config m ++ relationshipFields m⟩

/-- A page of records and the token of the next one. -/
def connectionBlock (m : Model) : Block :=
  ⟨.object, Naming.connectionType m.name,
    [.plain "items" (.listOf m.name), .plain "nextToken" (.optional "String")]⟩

/-- What a client gives for a new record; the owner is stamped by the server. -/
def createInput (config : Config) (m : Model) : Block :=
  ⟨.input, Naming.inputType m.name .create,
    ((m.writableProperties config).filter fun p => m.ownerField ≠ some p.name).map propertyField⟩

def identifierField (config : Config) : Field :=
  .plain config.identifierField (.needed "ID")

def updateInput (config : Config) (m : Model) : Block :=
  ⟨.input, Naming.inputType m.name .update,
    identifierField config :: (m.writableProperties config).map optionalField⟩

def deleteInput (config : Config) (m : Model) : Block :=
  ⟨.input, Naming.inputType m.name .delete, [identifierField config]⟩

def modelBlocks (config : Config) (m : Model) : List Block :=
  [typeBlock config m] ++ (if m.isRateLimited then [] else [connectionBlock m]) ++
    [createInput config m, updateInput config m, deleteInput config m]

/-! ### Root types -/

/-- The type of one result; a queued request is answered by a job. -/
def resultType (m : Model) : String :=
  if m.isRateLimited then Naming.jobResultType else m.name

def pageType (m : Model) : String :=
  if m.isRateLimited then Naming.jobResultType else Naming.connectionType m.name

def requestIdArgument : Argument := ⟨"requestId", .needed "ID"⟩

def jobField (name : String) (arguments : List Argument) (directive : Option Directive) : Field :=
  ⟨name, arguments, .optional Naming.jobResultType, directive⟩

def queryFields (config : Config) (m : Model) : List Field :=
  [⟨Naming.rootField m.name .get, [⟨config.identifierField, .needed "ID"⟩],
      .optional (resultType m), none⟩,
    ⟨Naming.rootField m.name .list, pageArguments, .optional (pageType m), none⟩] ++
  if m.isRateLimited then [jobField (Naming.jobResultField m.name) [requestIdArgument] none] else []

def mutationField (m : Model) (field : RootField) : Field :=
  ⟨Naming.rootField m.name field, [⟨"input", .needed (Naming.inputType m.name field)⟩],
    .optional (resultType m), none⟩

def mutationFields (m : Model) : List Field :=
  RootField.writes.map (mutationField m)

def subscriptionField (m : Model) (field : RootField) : Field :=
  ⟨Naming.subscriptionField m.name field, [], .optional (resultType m),
    some (.follows (Naming.rootField m.name field))⟩

def subscriptionFields (m : Model) : List Field :=
  if m.enableSubscriptions then RootField.writes.map (subscriptionField m) else []

def jobResultFields : List Argument :=
  [requestIdArgument, ⟨"status", .needed "String"⟩, ⟨"result", .optional "AWSJSON"⟩,
    ⟨"error", .optional "String"⟩, ⟨"completedAt", .optional "AWSDateTime"⟩]

def jobResultBlock : Block :=
  ⟨.object, Naming.jobResultType, jobResultFields.map fun a => .plain a.name a.type⟩

def publishField : Field :=
  jobField Naming.publishJobResultField jobResultFields (some .platformOnly)

def completedField : Field :=
  jobField Naming.jobCompletedField [requestIdArgument]
    (some (.follows Naming.publishJobResultField))

/-! ### The document -/

def sortedModels (models : List Model) : List Model :=
  models.mergeSort fun a b => decide (a.name ≤ b.name)

/-- A root type, unless it would have no field. -/
def rootBlock (name : String) (fields : List Field) : List Block :=
  if fields.isEmpty then [] else [⟨.object, name, fields⟩]

def documentOf (config : Config) (models : List Model) : Document :=
  let queued := models.any Model.isRateLimited
  { scalars := config.scalars
    blocks :=
      models.flatMap (modelBlocks config) ++
      rootBlock "Query" (models.flatMap (queryFields config)) ++
      rootBlock "Mutation"
        (models.flatMap mutationFields ++ if queued then [publishField] else []) ++
      rootBlock "Subscription"
        (models.flatMap subscriptionFields ++ if queued then [completedField] else []) ++
      if queued then [jobResultBlock] else [] }

def document (config : Config) (models : List Model) : Document :=
  documentOf config (sortedModels models)

end ApiLoom.Schema
