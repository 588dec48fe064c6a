/-!
# Statements

The relational statements that requests are made of.  Values are bound by
placeholders; a placeholder has the name of its column.
-/

namespace ApiLoom

def placeholder (column : String) : String := ":" ++ column

/-- How many of the matching rows are wanted. -/
inductive SqlExtent where
  | all
  | page
  | first
deriving DecidableEq, Repr, Inhabited

/-- How an update sets a column. -/
inductive SqlAssignment where
  /-- Sets the bound value, or keeps the stored one where that is null. -/
  | keepIfNull (column : String)
  | put (column : String)
deriving DecidableEq, Repr, Inhabited

def SqlAssignment.column : SqlAssignment → String
  | keepIfNull c => c
  | put c => c

/-- A guarded statement takes another condition when the template runs. -/
inductive SqlStatement where
  | select (table : String) (key : Option String) (guarded : Bool) (extent : SqlExtent)
  | insert (table : String) (columns : List String)
  | update (table : String) (assignments : List SqlAssignment) (key : String) (guarded : Bool)
  | delete (table key : String) (guarded : Bool)
deriving DecidableEq, Repr, Inhabited

namespace SqlStatement

def table : SqlStatement → String
  | select t .. => t
  | insert t _ => t
  | update t .. => t
  | delete t .. => t

def columns : SqlStatement → List String
  | select _ key .. => key.toList
  | insert _ columns => columns
  | update _ assignments key _ => assignments.map SqlAssignment.column ++ [key]
  | delete _ key _ => [key]

/-- `c = :c`. -/
def binding (column : String) : String := column ++ " = " ++ placeholder column

def guard (guarded : Bool) : String := if guarded then "$ownerGuard" else ""

def matching (key : String) (guarded : Bool) : String := " WHERE " ++ binding key ++ guard guarded

def extentText : SqlExtent → String
  | .all => ""
  | .page => " LIMIT :limit OFFSET :offset"
  | .first => " LIMIT 1"

def assignmentText : SqlAssignment → String
  | .keepIfNull c => c ++ " = COALESCE(" ++ placeholder c ++ ", " ++ c ++ ")"
  | .put c => binding c

def commas (parts : List String) : String := String.intercalate ", " parts

def text : SqlStatement → String
  | select table key guarded extent =>
    let condition := match key with | some k => matching k guarded | none => ""
    "SELECT * FROM " ++ table ++ condition ++ extentText extent
  | insert table columns =>
    "INSERT INTO " ++ table ++ " (" ++ commas columns ++ ") VALUES (" ++
      commas (columns.map placeholder) ++ ")"
  | update table assignments key guarded =>
    "UPDATE " ++ table ++ " SET " ++ commas (assignments.map assignmentText) ++
      matching key guarded
  | delete table key guarded => "DELETE FROM " ++ table ++ matching key guarded

end SqlStatement

end ApiLoom
