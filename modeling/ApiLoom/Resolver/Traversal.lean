import ApiLoom.Resolver.Engine

/-!
# Traversals

From a record to the records that a relationship links it with.  A traversal runs
against the store of the target and keeps what the read rules of the target let
the caller see; to-many and to-one by a key on the target need its index.
-/

namespace ApiLoom

def documentTraversal (config : Config) (kind : RelationshipKind) (foreignKey : String)
    (access : ItemAccess) : DataOperation × ResultShape :=
  let key := config.identifierField
  let query := DataOperation.queryIndex (Naming.indexName foreignKey) foreignKey (sourceField key)
  let single (source : RecordSource) : ResultShape :=
    .single { SingleRecord.plain source with access := some access }
  match kind with
  | .hasMany => (query (some config.page), .list ⟨.pageItems, some access, []⟩)
  | .belongsTo => (.getItem key (sourceField foreignKey), single .result)
  | .hasOne => (query none, single .firstPageItem)

def relationalTraversal (config : Config) (kind : RelationshipKind) (target foreignKey : String)
    (access : ItemAccess) : DataOperation × ResultShape :=
  let key := config.identifierField
  let table := Naming.tableName target
  let byForeignKey := Model.bindColumn foreignKey (sourceField key)
  let single : ResultShape := .single { SingleRecord.plain (.sqlRow 0) with access := some access }
  match kind with
  | .hasMany =>
    (.sql { Model.statements [.select table (some foreignKey) false .page]
          (byForeignKey :: Model.pageVariables) with
        page := some config.page },
      .list ⟨.sqlRows 0, some access, []⟩)
  | .belongsTo =>
    (.sql (Model.statements [.select table (some key) false .all]
        [Model.bindColumn key (sourceField foreignKey)]), single)
  | .hasOne =>
    (.sql (Model.statements [.select table (some foreignKey) false .first] [byForeignKey]), single)

namespace Model

/-- The operation of a traversal to a target whose records are stored. -/
def traversalTo (config : Config) (target : Model) (kind : RelationshipKind) (foreignKey : String) :
    Option (DataOperation × ResultShape) :=
  match target.engine with
  | .document => some (documentTraversal config kind foreignKey target.itemAccess)
  | .relational =>
    some (relationalTraversal config kind target.name foreignKey target.itemAccess)
  | .http | .queued => none

/-- The resolver of the relationship `r` at a field of `m`. -/
def traversal (m : Model) (config : Config) (cluster : Option Cluster)
    (lookup : String → Option Model) (field : String) (r : Relationship) :
    Except GenerationFailure TraversalResolver :=
  match lookup r.target with
  | none => .error (.refused (.unknownTarget m.name field r.target))
  | some target =>
    let foreignKey := foreignKeyOf m r
    match traversalTo config target r.kind foreignKey with
    | none => .error (.refused (.notTraversable m.name field target.name))
    | some (operation, shape) =>
      let description := s!"{m.name}.{field}: {r.kind.word} {target.name} via {foreignKey}"
      match Binding.forModel target cluster config with
      | .error e => .error e
      | .ok binding =>
        .ok {
          typeName := m.name
          fieldName := field
          relationship := r
          target := target.name
          foreignKey := foreignKey
          binding := binding
          exchange := {
            request := ⟨description, operation, none, none⟩
            response := {
              description := s!"{description} (filtered by {target.name} read access)"
              shape := shape.withLocalTimes (target.localTimeFields config) } } }

def traversals (m : Model) (config : Config) (cluster : Option Cluster)
    (lookup : String → Option Model) : Except GenerationFailure (List TraversalResolver) :=
  m.relationships.mapM fun r => m.traversal config cluster lookup r.1 r.2

end Model

end ApiLoom
