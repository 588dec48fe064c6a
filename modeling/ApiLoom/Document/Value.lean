import ApiLoom.Number.Binary64

/-!
# Document values

What a JSON or YAML document holds.  A mapping keeps its entries in the order of
the document; its keys are scalars, of which JSON uses texts only.
-/

namespace ApiLoom

open Number (Binary64)

structure Day where
  year : Nat
  month : Nat
  day : Nat
deriving DecidableEq, Repr, Inhabited

/-- A time of a day; `zone` is the distance from universal time in minutes, if it is known. -/
structure Moment where
  day : Day
  hour : Nat
  minute : Nat
  second : Nat
  microsecond : Nat
  zone : Option Int
deriving DecidableEq, Repr, Inhabited

inductive Scalar where
  | null
  | bool (b : Bool)
  | int (i : Int)
  | float (x : Binary64)
  | text (s : String)
  | day (d : Day)
  | moment (m : Moment)
deriving DecidableEq, Repr, Inhabited

namespace Scalar

/-- What two keys must share to be the same key: numbers and truth values compare as numbers. -/
def keyForm : Scalar → Scalar
  | bool b => int (if b then 1 else 0)
  | float x =>
    match x.toInt? with
    | some i => int i
    | none => float x
  | other => other

def sameKey (a b : Scalar) : Bool :=
  a.keyForm = b.keyForm

end Scalar

inductive Value where
  | scalar (s : Scalar)
  | list (items : List Value)
  | map (entries : List (Scalar × Value))
deriving Repr, Inhabited

namespace Value

abbrev null : Value := scalar .null

abbrev bool (b : Bool) : Value := scalar (.bool b)

abbrev int (i : Int) : Value := scalar (.int i)

abbrev text (s : String) : Value := scalar (.text s)

def object (entries : List (String × Value)) : Value :=
  map (entries.map fun e => (.text e.1, e.2))

def texts (items : List String) : Value :=
  list (items.map text)

/-- The word for the type of a value in messages. -/
def typeWord : Value → String
  | scalar .null => "NoneType"
  | scalar (.bool _) => "bool"
  | scalar (.int _) => "int"
  | scalar (.float _) => "float"
  | scalar (.text _) => "str"
  | scalar (.day _) => "date"
  | scalar (.moment _) => "datetime"
  | list _ => "list"
  | map _ => "dict"

end Value

abbrev Entries := List (Scalar × Value)

namespace Entries

def get? (entries : Entries) (key : String) : Option Value :=
  (entries.find? fun e => e.1 = .text key).map (·.2)

def has (entries : Entries) (key : String) : Bool :=
  entries.any fun e => e.1 = .text key

/-- A key that is there keeps its place and takes the new value; any other goes to the end. -/
def put (entries : Entries) (key : Scalar) (value : Value) : Entries :=
  if entries.any fun e => e.1.sameKey key then
    entries.map fun e => if e.1.sameKey key then (e.1, value) else e
  else entries ++ [(key, value)]

def erase (entries : Entries) (key : String) : Entries :=
  entries.filter fun e => e.1 ≠ .text key

end Entries

/-! ### Parts of a value -/

namespace Value

def field? (v : Value) (key : String) : Option Value :=
  match v with
  | map entries => Entries.get? entries key
  | _ => none

/-- The value at a key of a mapping; an absent one is null. -/
def field (v : Value) (key : String) : Value := (v.field? key).getD null

def text? : Value → Option String
  | scalar (.text s) => some s
  | _ => none

def int? : Value → Option Int
  | scalar (.int i) => some i
  | _ => none

/-- The items of a list; any other value has none. -/
def items : Value → List Value
  | list vs => vs
  | _ => []

/-- The texts in a list; an item that is not a text counts as empty. -/
def textItems (v : Value) : List String :=
  v.items.map fun w => w.text?.getD ""

end Value

end ApiLoom
