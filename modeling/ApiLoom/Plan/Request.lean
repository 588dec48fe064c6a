import ApiLoom.Plan.Access

/-!
# Requests

A request authorizes the caller, may stop at a gate, and describes one operation
on a store.  Expressions are those of the template language.
-/

namespace ApiLoom

structure Assignment where
  name : String
  expression : String
deriving DecidableEq, Repr, Inhabited

/-- The page size that the caller asks for, kept between one and `maxLimit`. -/
structure PageBounds where
  defaultLimit : Int
  maxLimit : Int
  limitExpression : String
  tokenExpression : String
deriving DecidableEq, Repr, Inhabited

/-- Bounds on what the arguments of the field ask for. -/
def PageBounds.ofArguments (defaultLimit maxLimit : Int) : PageBounds :=
  ⟨defaultLimit, maxLimit, "$ctx.args.limit", "$ctx.args.nextToken"⟩

structure SqlVariable where
  name : String
  expression : String
  typeHint : Option String
deriving DecidableEq, Repr, Inhabited

/-- Statements with named placeholders; with an owner guard they also contain `$ownerGuard`. -/
structure SqlStatements where
  statements : List String
  placeholders : List SqlVariable
  prelude : List Assignment
  page : Option PageBounds
  ownerGuard : Option String
deriving DecidableEq, Repr, Inhabited

/-- Sets the listed fields of a record that exists and, with an owner guard, is the caller's. -/
structure UpdateItem where
  keyField : String
  keyExpression : String
  fields : List String
  updatedAtField : String
  ownerGuard : Option String
  inputExpression : String
deriving DecidableEq, Repr, Inhabited

structure HttpRequest where
  method : String
  resourcePath : String
  bodyExpression : Option String
  query : List (String × String)
deriving DecidableEq, Repr, Inhabited

inductive DataOperation where
  | getItem (keyField keyExpression : String)
  | scanItems (page : PageBounds)
  | putItem (keyField : String) (timestamps : List String) (inputExpression : String)
  | updateItem (update : UpdateItem)
  | deleteItem (keyField keyExpression : String) (ownerGuard : Option String)
  | queryIndex (indexName partitionKey valueExpression : String) (page : Option PageBounds)
  | sql (statements : SqlStatements)
  | http (request : HttpRequest)
  | enqueue (operation modelName queueUrlStashKey requestIdStashKey : String)
  | invokeHook (hookName functionName modelName : String) (phase : HookPhase)
  | noOp (payloadExpression : Option String)
deriving DecidableEq, Repr, Inhabited

structure RequestPlan where
  description : String
  operation : DataOperation
  auth : Option AuthCheck
  gate : Option String
deriving DecidableEq, Repr, Inhabited

end ApiLoom
