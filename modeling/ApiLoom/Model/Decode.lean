import ApiLoom.Decode.Field
import ApiLoom.Model.Definition
import ApiLoom.Text.Identifier

/-!
# Decoding models

A model file names fields in camel case; the same fields with underscores are
accepted too.  The name of a property is the key it stands at.
-/

namespace ApiLoom

def identifierOf (what : String) (decoder : Decoder String) : Decoder String := fun v =>
  (decoder v).require Text.isIdentifier fun s => s!"{what} '{s}' is not identifier-safe."

/-! ### Properties -/

/-- The kinds of the scalars that the schema language has or that are declared in its header. -/
def idlKinds : List (String × ScalarKind) :=
  [("ID", .identifier), ("String", .text), ("Int", .integer), ("Float", .float),
    ("Boolean", .boolean), ("AWSDateTime", .timestamp), ("AWSJSON", .json), ("AWSEmail", .text),
    ("AWSURL", .text), ("AWSPhone", .text), ("AWSIPAddress", .text)]

/-- Scalars that hold text and keep their own name in the schema. -/
def textLikeScalars : List String :=
  ["AWSEmail", "AWSURL", "AWSPhone", "AWSIPAddress"]

/-- Adds the member unless there is one. -/
def Entries.orElse (record : Entries) (key : String) (v : Value) : Entries :=
  if record.has key then record else record ++ [(.text key, v)]

/-- Splits the type of a property into its kind and its scalar, where these are not given. -/
def expandType (record : Entries) : Checked Entries :=
  match record.get? "type" with
  | none => .ok record
  | some (.scalar (.text type)) =>
    let rest := record.erase "type"
    match idlKinds.find? fun k => k.1 = type with
    | some (_, kind) =>
      let rest := rest.orElse "kind" (.text kind.word)
      .ok (if textLikeScalars.contains type then rest.orElse "scalar" (.text type) else rest)
    | none => .ok (rest.orElse "kind" (.text type))
  | some other =>
    .fail (.rejected s!"Property type must be a scalar name, got {other.typeWord}.")

namespace Property

def nameField : FieldName := .plain "name"
def kindField : FieldName := .plain "kind"
def scalarField : FieldName := .plain "scalar"
def requiredField : FieldName := .plain "required"
def defaultField : FieldName := ⟨"defaultValue", "default"⟩
def ownerMark : FieldName := ⟨"isOwner", "is_owner"⟩

def decodeFields (record : Entries) : Checked Property :=
  (((((Checked.map Property.mk
    (nameField.required (identifierOf "Property name" Decoder.name) record)).apply
    (kindField.required (Decoder.word ScalarKind.all ScalarKind.word) record)).apply
    (scalarField.withDefault none (Decoder.orNull Decoder.text) record)).apply
    (requiredField.withDefault false Decoder.truth record)).apply
    (defaultField.withDefault .null Decoder.value record)).apply
    (ownerMark.withDefault false Decoder.truth record)

def fields : List FieldName :=
  [nameField, kindField, scalarField, requiredField, defaultField, ownerMark]

def decode : Decoder Property
  | .map entries =>
    (expandType entries).bind fun record =>
      Decoder.record "PropertyDefinition" fields decodeFields (.map record)
  | _ => .fail (.notRecord "PropertyDefinition")

end Property

/-! ### Data sources -/

namespace Cluster

def nameField : FieldName := .plain "name"
def secretField : FieldName := ⟨"secretRef", "secret_ref"⟩
def databaseField : FieldName := .plain "database"

def decodeFields (record : Entries) : Checked Cluster :=
  ((Checked.map Cluster.mk
    (nameField.required Decoder.name record)).apply
    (secretField.required Decoder.name record)).apply
    (databaseField.required Decoder.name record)

def decode : Decoder Cluster :=
  Decoder.record "RelationalCluster" [nameField, secretField, databaseField] decodeFields

end Cluster

namespace RateLimit

def limitField : FieldName := .plain "limit"
def frequencyField : FieldName := ⟨"frequencyInSeconds", "frequency_in_seconds"⟩

def decodeFields (record : Entries) : Checked RateLimit :=
  (Checked.map RateLimit.mk
    (limitField.required (Decoder.atLeast 1 Decoder.whole) record)).apply
    (frequencyField.required (Decoder.atLeast 1 Decoder.whole) record)

def decode : Decoder RateLimit :=
  Decoder.record "RateLimitPolicy" [limitField, frequencyField] decodeFields

end RateLimit

namespace DataSource

def typeField : FieldName := .plain "type"
def engineField : FieldName := .plain "engine"
def clusterField : FieldName := .plain "cluster"
def endpointField : FieldName := .plain "endpoint"
def limitsField : FieldName := .plain "limits"

def tag (w : String) : Decoder Unit
  | .scalar (.text s) => if s = w then .ok () else .fail (.otherTag w)
  | _ => .fail (.otherTag w)

def databaseTag : String := "database"

def thirdPartyTag : String := "thirdPartyApi"

def decodeDatabaseFields (record : Entries) :
    Checked (DatabaseEngine × Option Cluster) :=
  ((Checked.map (fun _ engine cluster => (engine, cluster))
    (typeField.withDefault () (tag databaseTag) record)).apply
    (engineField.required (Decoder.word DatabaseEngine.all DatabaseEngine.word) record)).apply
    (clusterField.withDefault none (Decoder.orNull Cluster.decode) record)

def decodeDatabase : Decoder DataSource := fun v =>
  ((Decoder.record "DatabaseSource" [typeField, engineField, clusterField]
    decodeDatabaseFields v).require (fun d => d.2.isNone || d.1 = .sql)
    fun _ => "Only a relational ('sql') source may declare a cluster.").map
    fun d => .database d.1 d.2

def decodeThirdPartyFields (record : Entries) : Checked DataSource :=
  ((Checked.map (fun _ endpoint limits => DataSource.thirdPartyApi endpoint limits)
    (typeField.withDefault () (tag thirdPartyTag) record)).apply
    (endpointField.required Decoder.name record)).apply
    (limitsField.withDefault none (Decoder.orNull RateLimit.decode) record)

def decodeThirdParty : Decoder DataSource :=
  Decoder.record "ThirdPartyApiSource" [typeField, endpointField, limitsField]
    decodeThirdPartyFields

/-- The type of a source says which of its two forms it has. -/
def decode : Decoder DataSource
  | .map entries =>
    match Entries.get? entries "type" with
    | none => .fail (.noTag "type")
    | some t =>
      match t with
      | .scalar (.text s) =>
        if s = databaseTag then (decodeDatabase (.map entries)).below (.key databaseTag)
        else if s = thirdPartyTag then (decodeThirdParty (.map entries)).below (.key thirdPartyTag)
        else .fail (.unknownTag "type" s [databaseTag, thirdPartyTag])
      | other => .fail (.unknownTag "type" other.display [databaseTag, thirdPartyTag])
  | _ => .fail .notTagged

end DataSource

/-! ### Access control -/

namespace AccessRule

def allowField : FieldName := .plain "allow"
def groupsField : FieldName := .plain "groups"
def ownerMark : FieldName := .plain "owner"

def decodeFields (record : Entries) : Checked AccessRule :=
  ((Checked.map AccessRule.mk
    (allowField.required (Decoder.word Operation.all Operation.word) record)).apply
    (groupsField.withDefault [] (Decoder.list Decoder.text) record)).apply
    (ownerMark.withDefault false Decoder.truth record)

def decode : Decoder AccessRule := fun v =>
  (Decoder.record "AccessRule" [allowField, groupsField, ownerMark] decodeFields v).require
    (fun r => !r.groups.isEmpty || r.owner)
    fun r => s!"Access rule for '{r.allow.word}' names neither groups nor owner."

end AccessRule

namespace AccessControl

def defaultField : FieldName := .plain "default"
def rulesField : FieldName := .plain "rules"

def decodeFields (record : Entries) : Checked AccessControl :=
  (Checked.map AccessControl.mk
    (defaultField.withDefault .deny (Decoder.word DefaultPolicy.all DefaultPolicy.word)
      record)).apply
    (rulesField.withDefault [] (Decoder.list AccessRule.decode) record)

def decode : Decoder AccessControl :=
  Decoder.record "AccessControlDefinition" [defaultField, rulesField] decodeFields

end AccessControl

/-! ### Relationships and hooks -/

namespace Relationship

def typeField : FieldName := .plain "type"
def targetField : FieldName := .plain "target"
def foreignKeyField : FieldName := ⟨"foreignKey", "foreign_key"⟩

def decodeFields (record : Entries) : Checked Relationship :=
  ((Checked.map Relationship.mk
    (typeField.required (Decoder.word RelationshipKind.all RelationshipKind.word) record)).apply
    (targetField.required Decoder.name record)).apply
    (foreignKeyField.withDefault none (Decoder.orNull Decoder.text) record)

def decode : Decoder Relationship :=
  Decoder.record "RelationshipDefinition" [typeField, targetField, foreignKeyField] decodeFields

end Relationship

namespace Hooks

/-- `beforeCreate`, also spelled `before_create`. -/
def field (phase : HookPhase) (operation : Operation) : FieldName :=
  ⟨hookName phase operation, s!"{phase.word}_{operation.word}"⟩

def decodeSlot (phase : HookPhase) (operation : Operation) (record : Entries) :
    Checked (Option String) :=
  (field phase operation).withDefault Option.none (Decoder.orNull Decoder.text) record

def decodeFields (record : Entries) : Checked Hooks :=
  ((((((Checked.map Hooks.mk
    (decodeSlot .before .create record)).apply
    (decodeSlot .after .create record)).apply
    (decodeSlot .before .update record)).apply
    (decodeSlot .after .update record)).apply
    (decodeSlot .before .delete record)).apply
    (decodeSlot .after .delete record)).apply
    (decodeSlot .before .read record)

def decode : Decoder Hooks :=
  Decoder.record "HooksDefinition" (slots.map fun slot => field slot.1 slot.2) decodeFields

end Hooks

/-! ### Models -/

/-- Every property that is a record takes the key it stands at as its name. -/
def nameProperties (record : Entries) : Entries :=
  match record.get? "properties" with
  | some (.map properties) =>
    record.put (.text "properties") (.map (properties.map fun p =>
      match p.2 with
      | .map fields => (p.1, .map (Entries.put fields (.text "name") (.scalar p.1)))
      | _ => p))
  | _ => record

def dropNull (key : String) (record : Entries) : Entries :=
  match record.get? key with
  | some (.scalar .null) => record.erase key
  | _ => record

namespace Model

def nameField : FieldName := .plain "name"
def propertiesField : FieldName := .plain "properties"
def dataSourceField : FieldName := ⟨"dataSource", "data_source"⟩
def accessControlField : FieldName := ⟨"accessControl", "access_control"⟩
def relationshipsField : FieldName := .plain "relationships"
def hooksField : FieldName := .plain "hooks"
def subscriptionsField : FieldName := ⟨"enableSubscriptions", "enable_subscriptions"⟩
def sourceField : FieldName := .plain "source"

def decodeProperties : Decoder (List Property) := fun v =>
  (Decoder.mapping Property.decode v).bind fun properties =>
    if properties.isEmpty then .fail .emptyMapping else .ok (properties.map (·.2))

def decodeRelationships : Decoder (List (String × Relationship)) := fun v =>
  (Decoder.mapping Relationship.decode v).bind fun relationships =>
    match relationships.find? fun r => !Text.isIdentifier r.1 with
    | some r => .fail (.rejected s!"Relationship field '{r.1}' is not identifier-safe.")
    | none => .ok relationships

def decodeFields (record : Entries) : Checked Model :=
  (((((((Checked.map Model.mk
    (nameField.required (identifierOf "Model name" Decoder.name) record)).apply
    (propertiesField.required decodeProperties record)).apply
    (dataSourceField.required DataSource.decode record)).apply
    (accessControlField.withDefault none (Decoder.orNull AccessControl.decode) record)).apply
    (relationshipsField.withDefault [] decodeRelationships record)).apply
    (hooksField.withDefault Hooks.none Hooks.decode record)).apply
    (subscriptionsField.withDefault false Decoder.truth record)).apply
    (sourceField.withDefault none (Decoder.orNull Decoder.text) record)

def fields : List FieldName :=
  [nameField, propertiesField, dataSourceField, accessControlField, relationshipsField, hooksField,
    subscriptionsField, sourceField]

def owners (m : Model) : List String :=
  (m.properties.filter (·.isOwner)).map (·.name)

/-- At most one property holds the owner of a record. -/
def decode : Decoder Model
  | .map entries =>
    (Decoder.record "ModelDefinition" fields decodeFields
      (.map (dropNull "relationships" (dropNull "hooks" (nameProperties entries))))).require
      (fun m => m.owners.length ≤ 1)
      fun m => s!"Model '{m.name}' marks more than one owner property: {Text.literals m.owners}"
  | _ => .fail (.notRecord "ModelDefinition")

end Model

end ApiLoom
