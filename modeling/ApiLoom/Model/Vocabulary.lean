/-!
# Vocabulary

The closed sets of words that model files and generated artifacts use.
-/

namespace ApiLoom

/-- What the values of a property are. -/
inductive ScalarKind where
  | identifier
  | text
  | integer
  | float
  | boolean
  | timestamp
  | json
deriving DecidableEq, Repr, Inhabited

namespace ScalarKind

def all : List ScalarKind :=
  [identifier, text, integer, float, boolean, timestamp, json]

def word : ScalarKind → String
  | identifier => "identifier"
  | text => "text"
  | integer => "integer"
  | float => "float"
  | boolean => "boolean"
  | timestamp => "timestamp"
  | json => "opaque"

def idlName : ScalarKind → String
  | identifier => "ID"
  | text => "String"
  | integer => "Int"
  | float => "Float"
  | boolean => "Boolean"
  | timestamp => "AWSDateTime"
  | json => "AWSJSON"

/-- The hint that the data API needs to bind a value of this kind. -/
def sqlTypeHint : ScalarKind → Option String
  | timestamp => some "TIMESTAMP"
  | json => some "JSON"
  | _ => none

end ScalarKind

/-- What an access rule can grant. -/
inductive Operation where
  | create
  | read
  | update
  | delete
deriving DecidableEq, Repr, Inhabited

namespace Operation

def all : List Operation := [create, read, update, delete]

def word : Operation → String
  | create => "create"
  | read => "read"
  | update => "update"
  | delete => "delete"

def capitalized : Operation → String
  | create => "Create"
  | read => "Read"
  | update => "Update"
  | delete => "Delete"

end Operation

/-- Whether a decision is about one record or about a page of them. -/
inductive AccessScope where
  | item
  | collection
deriving DecidableEq, Repr, Inhabited

namespace AccessScope

def all : List AccessScope := [item, collection]

def word : AccessScope → String
  | item => "item"
  | collection => "collection"

end AccessScope

/-- The five fields that every model has on the root types. -/
inductive RootField where
  | get
  | list
  | create
  | update
  | delete
deriving DecidableEq, Repr, Inhabited

namespace RootField

def all : List RootField := [get, list, create, update, delete]

def writes : List RootField := [create, update, delete]

def word : RootField → String
  | get => "get"
  | list => "list"
  | create => "create"
  | update => "update"
  | delete => "delete"

def capitalized : RootField → String
  | get => "Get"
  | list => "List"
  | create => "Create"
  | update => "Update"
  | delete => "Delete"

def operation : RootField → Operation
  | get | list => .read
  | create => .create
  | update => .update
  | delete => .delete

def scope : RootField → AccessScope
  | list => .collection
  | _ => .item

def parentType : RootField → String
  | get | list => "Query"
  | _ => "Mutation"

end RootField

/-- What holds for an operation that no rule names. -/
inductive DefaultPolicy where
  | allow
  | deny
deriving DecidableEq, Repr, Inhabited

namespace DefaultPolicy

def all : List DefaultPolicy := [allow, deny]

def word : DefaultPolicy → String
  | allow => "allow"
  | deny => "deny"

end DefaultPolicy

inductive RelationshipKind where
  | hasMany
  | belongsTo
  | hasOne
deriving DecidableEq, Repr, Inhabited

namespace RelationshipKind

def all : List RelationshipKind := [hasMany, belongsTo, hasOne]

def word : RelationshipKind → String
  | hasMany => "hasMany"
  | belongsTo => "belongsTo"
  | hasOne => "hasOne"

end RelationshipKind

inductive DatabaseEngine where
  | nosql
  | sql
deriving DecidableEq, Repr, Inhabited

namespace DatabaseEngine

def all : List DatabaseEngine := [nosql, sql]

def word : DatabaseEngine → String
  | nosql => "nosql"
  | sql => "sql"

end DatabaseEngine

/-- What the data operations of a model run against. -/
inductive EngineKind where
  | document
  | relational
  | http
  | queued
deriving DecidableEq, Repr, Inhabited

def EngineKind.word : EngineKind → String
  | document => "document"
  | relational => "relational"
  | http => "http_api"
  | queued => "queued_api"

/-- Records are kept by the API itself and not by a third party. -/
def EngineKind.isStored : EngineKind → Bool
  | document | relational => true
  | http | queued => false

inductive HookPhase where
  | before
  | after
deriving DecidableEq, Repr, Inhabited

namespace HookPhase

def all : List HookPhase := [before, after]

def word : HookPhase → String
  | before => "before"
  | after => "after"

def capitalized : HookPhase → String
  | before => "Before"
  | after => "After"

end HookPhase

end ApiLoom
