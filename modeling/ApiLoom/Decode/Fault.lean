import ApiLoom.Document.Value

/-!
# Faults of a document

`Checked` is a value or all the faults that keep the document from having one,
each with its place.  Combining two checked values keeps the faults of both, in
their order.
-/

namespace ApiLoom

/-- One step on the way to a part of a document. -/
inductive Step where
  | key (name : String)
  | index (position : Int)
deriving DecidableEq, Repr

def Step.text : Step → String
  | key name => name
  | index position => toString position

inductive Cause where
  | missing
  | unknownKey
  | keyNotText
  | notText
  | emptyText
  | notWhole
  | wholeText
  | fractional
  | wholeTooLong
  | atLeast (bound : Int)
  | atMost (bound : Int)
  | notTruth
  | truthText
  | notList
  | notMapping
  | emptyMapping
  | notRecord (className : String)
  | notOneOf (words : List String)
  | otherTag (word : String)
  | notTagged
  | noTag (key : String)
  | unknownTag (key tag : String) (words : List String)
  | rejected (text : String)
deriving DecidableEq, Repr

namespace Cause

def choices (words : List String) : String :=
  match words.reverse with
  | [] => ""
  | [w] => s!"'{w}'"
  | last :: rest =>
    String.intercalate ", " (rest.reverse.map fun w => s!"'{w}'") ++ s!" or '{last}'"

def word : Cause → String
  | missing => "missing"
  | unknownKey => "extra_forbidden"
  | keyNotText => "invalid_key"
  | notText => "string_type"
  | emptyText => "string_too_short"
  | notWhole => "int_type"
  | wholeText => "int_parsing"
  | fractional => "int_from_float"
  | wholeTooLong => "int_parsing_size"
  | atLeast _ => "greater_than_equal"
  | atMost _ => "less_than_equal"
  | notTruth => "bool_type"
  | truthText => "bool_parsing"
  | notList => "list_type"
  | notMapping => "dict_type"
  | emptyMapping => "too_short"
  | notRecord _ => "model_type"
  | notOneOf _ => "enum"
  | otherTag _ => "literal_error"
  | notTagged => "model_attributes_type"
  | noTag _ => "union_tag_not_found"
  | unknownTag .. => "union_tag_invalid"
  | rejected _ => "value_error"

def message : Cause → String
  | missing => "Field required"
  | unknownKey => "Extra inputs are not permitted"
  | keyNotText => "Keys should be strings"
  | notText => "Input should be a valid string"
  | emptyText => "String should have at least 1 character"
  | notWhole => "Input should be a valid integer"
  | wholeText => "Input should be a valid integer, unable to parse string as an integer"
  | fractional => "Input should be a valid integer, got a number with a fractional part"
  | wholeTooLong => "Unable to parse input string as an integer, exceeded maximum size"
  | atLeast bound => s!"Input should be greater than or equal to {bound}"
  | atMost bound => s!"Input should be less than or equal to {bound}"
  | notTruth => "Input should be a valid boolean"
  | truthText => "Input should be a valid boolean, unable to interpret input"
  | notList => "Input should be a valid list"
  | notMapping => "Input should be a valid dictionary"
  | emptyMapping => "Dictionary should have at least 1 item after validation, not 0"
  | notRecord className => s!"Input should be a valid dictionary or instance of {className}"
  | notOneOf words => s!"Input should be {choices words}"
  | otherTag w => s!"Input should be '{w}'"
  | notTagged => "Input should be a valid dictionary or object to extract fields from"
  | noTag key => s!"Unable to extract tag using discriminator '{key}'"
  | unknownTag key tag words =>
    s!"Input tag '{tag}' found using '{key}' does not match any of the expected tags: " ++
      String.intercalate ", " (words.map fun w => s!"'{w}'")
  | rejected text => s!"Value error, {text}"

end Cause

structure Fault where
  path : List Step
  cause : Cause
deriving DecidableEq, Repr

def Fault.below (step : Step) (f : Fault) : Fault :=
  { f with path := step :: f.path }

/-- The place, if it is not the document itself, and below it what is wrong. -/
def Fault.lines (f : Fault) : List String :=
  let what := s!"  {f.cause.message} [type={f.cause.word}]"
  if f.path.isEmpty then [what] else [String.intercalate "." (f.path.map Step.text), what]

/-- All faults of a document that should have been a `className`. -/
def faultReport (className : String) (faults : List Fault) : String :=
  let count := faults.length
  let noun := if count = 1 then "error" else "errors"
  String.intercalate "\n"
    (s!"{count} validation {noun} for {className}" :: faults.flatMap Fault.lines)

def Checked (α : Type) : Type := Except (List Fault) α

namespace Checked

variable {α β : Type}

def ok (a : α) : Checked α := Except.ok a

def faults (fs : List Fault) : Checked α := Except.error fs

def fail (cause : Cause) : Checked α := faults [⟨[], cause⟩]

def map (f : α → β) : Checked α → Checked β
  | .ok a => .ok (f a)
  | .error fs => .error fs

/-- Applies what was read first to what was read next. -/
def apply : Checked (α → β) → Checked α → Checked β
  | .ok f, .ok a => .ok (f a)
  | .ok _, .error fs => .error fs
  | .error fs, .ok _ => .error fs
  | .error fs, .error gs => .error (fs ++ gs)

/-- Keeps the first value; both must be free of faults. -/
def also (a : Checked α) (b : Checked β) : Checked α :=
  apply (map (fun x _ => x) a) b

/-- A further check of a value that has no faults so far. -/
def bind (a : Checked α) (f : α → Checked β) : Checked β :=
  match a with
  | .ok x => f x
  | .error fs => .error fs

def below (step : Step) : Checked α → Checked α
  | .ok a => .ok a
  | .error fs => .error (fs.map (Fault.below step))

/-- All the values, or the faults of all of them. -/
def all : List (Checked α) → Checked (List α)
  | [] => .ok []
  | a :: rest => apply (map List.cons a) (all rest)

/-- `test` must hold of the value; `text` says what is wrong if it does not. -/
def require (test : α → Bool) (text : α → String) (a : Checked α) : Checked α :=
  a.bind fun x => if test x then ok x else fail (.rejected (text x))

end Checked

end ApiLoom
