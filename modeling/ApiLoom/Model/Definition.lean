import ApiLoom.Document.Literal
import ApiLoom.Model.Vocabulary

/-!
# Model definitions

A model is an entity: its properties, the store that keeps its records, who may
do what with them, its relationships to other models, and the functions that run
around its operations.
-/

namespace ApiLoom

/-- The text, unless it is empty. -/
def nonEmpty (text : Option String) : Option String :=
  text.filter fun s => !s.isEmpty

structure Property where
  name : String
  kind : ScalarKind
  scalar : Option String
  required : Bool
  default : Value
  isOwner : Bool
deriving Repr, Inhabited

def Property.idlType (p : Property) : String :=
  (nonEmpty p.scalar).getD p.kind.idlName

def Property.label (p : Property) : String :=
  let required := if p.required then "!" else ""
  let owner := if p.isOwner then " OWNER" else ""
  s!"<Property {p.name}: {p.idlType}{required}{owner}>"

/-- A relational cluster that the data API reaches. -/
structure Cluster where
  name : String
  secretRef : String
  database : String
deriving DecidableEq, Repr, Inhabited

/-- At most `limit` requests in a window of so many seconds. -/
structure RateLimit where
  limit : Int
  frequencyInSeconds : Int
deriving DecidableEq, Repr, Inhabited

inductive DataSource where
  | database (engine : DatabaseEngine) (cluster : Option Cluster)
  | thirdPartyApi (endpoint : String) (limits : Option RateLimit)
deriving DecidableEq, Repr, Inhabited

def DataSource.engine : DataSource → EngineKind
  | database .nosql _ => .document
  | database .sql _ => .relational
  | thirdPartyApi _ none => .http
  | thirdPartyApi _ (some _) => .queued

def DataSource.cluster? : DataSource → Option Cluster
  | database _ cluster => cluster
  | thirdPartyApi .. => none

/-- A grant of one operation to groups, to the owner of a record, or to both. -/
structure AccessRule where
  allow : Operation
  groups : List String
  owner : Bool
deriving DecidableEq, Repr, Inhabited

def AccessRule.label (r : AccessRule) : String :=
  s!"<AccessRule {r.allow.word} groups={Text.literals r.groups} " ++
    s!"owner={(Scalar.bool r.owner).literal}>"

structure AccessControl where
  default : DefaultPolicy
  rules : List AccessRule
deriving DecidableEq, Repr, Inhabited

namespace AccessControl

def rulesFor (access : AccessControl) (operation : Operation) : List AccessRule :=
  access.rules.filter fun r => r.allow = operation

def hasOwnerRule (access : AccessControl) (operation : Operation) : Bool :=
  (access.rulesFor operation).any (·.owner)

end AccessControl

structure Relationship where
  kind : RelationshipKind
  target : String
  foreignKey : Option String
deriving DecidableEq, Repr, Inhabited

def Relationship.label (r : Relationship) : String :=
  let via := match nonEmpty r.foreignKey with
    | some key => s!" via {key}"
    | none => ""
  s!"<Relationship {r.kind.word} → {r.target}{via}>"

/-- Names of functions that run before or after the operations of a model. -/
structure Hooks where
  beforeCreate : Option String
  afterCreate : Option String
  beforeUpdate : Option String
  afterUpdate : Option String
  beforeDelete : Option String
  afterDelete : Option String
  beforeRead : Option String
deriving DecidableEq, Repr, Inhabited

namespace Hooks

def none : Hooks := ⟨.none, .none, .none, .none, .none, .none, .none⟩

/-- The function of a phase of an operation; nothing runs after a read. -/
def hookFor (h : Hooks) : HookPhase → Operation → Option String
  | .before, .create => h.beforeCreate
  | .before, .read => h.beforeRead
  | .before, .update => h.beforeUpdate
  | .before, .delete => h.beforeDelete
  | .after, .create => h.afterCreate
  | .after, .read => .none
  | .after, .update => h.afterUpdate
  | .after, .delete => h.afterDelete

/-- The phases of operations that can have a hook, in the order of their declaration. -/
def slots : List (HookPhase × Operation) :=
  [(.before, .create), (.after, .create), (.before, .update), (.after, .update),
    (.before, .delete), (.after, .delete), (.before, .read)]

/-- The hooks that name a function, with the names they have in a model file. -/
def declared (h : Hooks) : List ((HookPhase × Operation) × String) :=
  slots.filterMap fun slot => (nonEmpty (h.hookFor slot.1 slot.2)).map fun name => (slot, name)

end Hooks

/-- `beforeCreate`, `afterUpdate` and so on. -/
def hookName (phase : HookPhase) (operation : Operation) : String :=
  phase.word ++ operation.capitalized

structure Model where
  name : String
  properties : List Property
  dataSource : DataSource
  accessControl : Option AccessControl
  relationships : List (String × Relationship)
  hooks : Hooks
  enableSubscriptions : Bool
  source : Option String
deriving Repr, Inhabited

namespace Model

def ownerField (m : Model) : Option String :=
  (m.properties.find? (·.isOwner)).map (·.name)

def engine (m : Model) : EngineKind := m.dataSource.engine

def isRateLimited (m : Model) : Bool := m.engine = .queued

/-- Names of the timestamps, in the order of their declaration. -/
def timestampFields (m : Model) : List String :=
  (m.properties.filter fun p => p.kind = .timestamp).map (·.name)

def propertyNames (m : Model) : List String :=
  m.properties.map (·.name)

def hasProperty (m : Model) (name : String) : Bool :=
  m.propertyNames.contains name

def property? (m : Model) (name : String) : Option Property :=
  m.properties.find? fun p => p.name = name

def label (m : Model) : String :=
  s!"<Model {m.name} ({m.properties.length} props, {m.relationships.length} rels, {m.engine.word})>"

end Model

/-- The model of a name; a later definition of the same name hides an earlier one. -/
def modelNamed (models : List Model) (name : String) : Option Model :=
  models.reverse.find? fun m => m.name = name

end ApiLoom
