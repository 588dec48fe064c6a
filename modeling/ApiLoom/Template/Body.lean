import ApiLoom.Template.Term

/-!
# Request bodies

The object that a request template sends to its store, one member a line.
-/

namespace ApiLoom.Template

mutual

inductive Body where
  | value (term : Term)
  /-- A list with one item a line. -/
  | rows (items : List Term)
  | object (members : List Member)

inductive Member where
  | always (key : String) (body : Body)
  /-- Present only where the condition holds; stands behind the other members. -/
  | provided (condition : Cond) (key : String) (value : Term)

end

namespace Body

def verbatim (text : String) : Body := value (.verbatim text)

def plain (text : String) : Body := value (.plain text)

def quoted (text : String) : Body := value (.quoted text)

end Body

def Member.isAlways : Member → Bool
  | always .. => true
  | provided .. => false

def margin (depth : Nat) : String :=
  String.ofList (List.replicate (2 * depth) ' ')

def separated : List String → List String
  | [] => []
  | [last] => [last]
  | text :: rest => (text ++ ",") :: separated rest

mutual

/-- The lines of a body, `lead` before the first and `trail` behind the last. -/
def Body.linesAt (depth : Nat) (lead trail : String) : Body → List String
  | .value t => [margin depth ++ lead ++ t.text ++ trail]
  | .rows items =>
    (margin depth ++ lead ++ "[") ::
      (separated (items.map fun t => margin (depth + 1) ++ t.text) ++
        [margin depth ++ "]" ++ trail])
  | .object members =>
    (margin depth ++ lead ++ "\x7b") ::
      (memberLines (depth + 1) true members ++ [margin depth ++ "\x7d" ++ trail])

/-- The lines of the members; `first` says that no member stands before them. -/
def memberLines (depth : Nat) (first : Bool) : List Member → List String
  | [] => []
  | .always key body :: rest =>
    body.linesAt depth ("\"" ++ key ++ "\": ") (if rest.any Member.isAlways then "," else "") ++
      memberLines depth false rest
  | .provided condition key value :: rest =>
    ["#if(" ++ condition.text ++ ")",
      margin depth ++ (if first then "" else ", ") ++ "\"" ++ key ++ "\": " ++ value.text,
      "#end"] ++ memberLines depth false rest

end

def Body.lines (b : Body) : List String := b.linesAt 0 "" ""

end ApiLoom.Template
