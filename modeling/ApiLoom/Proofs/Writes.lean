import ApiLoom.Proofs.Execution
import ApiLoom.Store.Sql

/-!
# Conditional writes

What the two stores make of the body of a write, and which record it changes.  The
document store looks for the item of the key and evaluates the condition with its
own names and values; a relational statement matches the rows of which its `WHERE`
holds, a null being equal to nothing.
-/

namespace ApiLoom

namespace Store

open Template (World State Body Member Action Step)

/-! ### The document store -/

def presence? (word : String) : Option String :=
  let lead := "attribute_exists(".toList
  if word.toList.take lead.length = lead then
    some (String.ofList (word.toList.drop lead.length).dropLast)
  else none

def fieldNamed (names : Value) (name : String) : String := ((names.field name).text?).getD ""

/-- Whether a condition holds of a record, given as words: one presence or equality after the
other, joined by `AND`. -/
def conditionHolds (names values : Value) (r : Record) : List String → Bool
  | [word] => (presence? word).any fun name => r.has (fieldNamed names name)
  | word :: "AND" :: rest =>
    ((presence? word).any fun name => r.has (fieldNamed names name)) &&
      conditionHolds names values r rest
  | [left, "=", right] => (r.get? (fieldNamed names left)).any fun v => v.typed = values.field right
  | left :: "=" :: right :: "AND" :: rest =>
    ((r.get? (fieldNamed names left)).any fun v => v.typed = values.field right) &&
      conditionHolds names values r rest
  | _ => false

def hasKey (key : Value) (r : Record) : Bool :=
  key.entries.all fun e => (r.find? fun a => a.1 = e.1).any fun a => a.2.typed = e.2

def documentWrites (body : Value) (r : Record) : Bool :=
  let condition := body.field "condition"
  ["UpdateItem", "DeleteItem"].contains ((body.field "operation").text?.getD "") &&
    hasKey (body.field "key") r &&
    conditionHolds (condition.field "expressionNames") (condition.field "expressionValues") r
      (Text.words ((condition.field "expression").text?.getD ""))

/-! ### The relational store -/

/-- The equalities of a `WHERE` at the end of a statement, whose words are given backwards: a
column and the placeholder that it is compared with. -/
def equalities : List String → Option (List (String × String))
  | bound :: "=" :: column :: "WHERE" :: _ => some [(column, bound)]
  | bound :: "=" :: column :: "AND" :: rest =>
    (equalities rest).map fun others => (column, bound) :: others
  | _ => none

def columnIs (r : Record) (column : String) (v : Value) : Bool :=
  v ≠ .null && r.get? column = some v

def statementWrites (values : Value) (r : Record) (statement : String) : Bool :=
  let words := Text.words statement
  ["UPDATE", "DELETE"].contains (words.head?.getD "") &&
    (equalities words.reverse).any fun conditions =>
      conditions.all fun c => columnIs r c.1 (values.field c.2)

def relationalWrites (body : Value) (r : Record) : Bool :=
  (body.field "statements").items.any fun statement =>
    statementWrites (body.field "variableMap") r (statement.text?.getD "")

/-! ### Both -/

/-- Whether a request to a store or function changes the record, if there is one. -/
def changes (request : Binding × Value) (r : Option Record) : Bool :=
  r.any fun r =>
    match request.1.kind with
    | .documentTable => documentWrites request.2 r
    | .relationalCluster => relationalWrites request.2 r
    | _ => false

end Store

/-- One of the requests changes the record, if there is one. -/
def Trace.lands (t : Trace) (r : Option Record) : Bool :=
  t.sent.any fun request => Store.changes request r

theorem Trace.lands_andThen (t : Trace) (next : Progress → Trace) (r : Option Record) :
    (t.andThen next).lands r = (t.lands r || t.progress.any fun p => (next p).lands r) := by
  obtain ⟨sent, _ | p⟩ := t <;> simp [andThen, lands]

theorem Trace.lands_none (t : Trace) : t.lands none = false := by
  simp [lands, Store.changes]

end ApiLoom
