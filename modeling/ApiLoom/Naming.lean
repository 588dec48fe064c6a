import ApiLoom.Model.Vocabulary
import ApiLoom.Text.Identifier
import ApiLoom.Text.LetterCase

/-!
# Names of generated things

Plurals, tables, root fields, subscription fields and types, all made from the
name of a model.
-/

namespace ApiLoom.Naming

def irregularPlurals : List (String × String) :=
  [("person", "people"), ("child", "children"), ("man", "men"), ("woman", "women"),
    ("mouse", "mice"), ("datum", "data"), ("index", "indices"), ("matrix", "matrices"),
    ("analysis", "analyses"), ("status", "statuses"), ("address", "addresses")]

def capitalize (s : String) : String :=
  match s.toList with
  | [] => ""
  | c :: rest => String.ofList (c.toUpper :: rest)

def startsWithCapital (s : String) : Bool :=
  match s.toList with
  | [] => false
  | c :: _ => Text.isUpperLetter c

def sibilants : List (List Char) :=
  [['s'], ['s', 'h'], ['c', 'h'], ['x'], ['z']]

def isVowel (c : Char) : Bool :=
  ['a', 'e', 'i', 'o', 'u'].contains c

/-- The plural of an English noun, by rule of thumb. -/
def plural (name : String) : String :=
  if name.isEmpty then ""
  else
    let lower := Text.lower name
    match irregularPlurals.find? fun p => p.1 = lower with
    | some (_, irregular) => if startsWithCapital name then capitalize irregular else irregular
    | none =>
      let ending := lower.toList.reverse
      if sibilants.any fun s => s.reverse.isPrefixOf ending then name ++ "es"
      else
        match ending with
        | 'y' :: c :: _ =>
          if !isVowel c then String.ofList name.toList.dropLast ++ "ies" else name ++ "s"
        | _ => name ++ "s"

def tableName (model : String) : String :=
  Text.lower (plural model)

/-- `getPost`, `listPosts`, `createPost` and so on. -/
def rootField (model : String) (field : RootField) : String :=
  match field with
  | .list => "list" ++ plural model
  | _ => field.word ++ model

/-- `onCreatePost`, `onUpdatePost`, `onDeletePost`. -/
def subscriptionField (model : String) (field : RootField) : String :=
  "on" ++ field.capitalized ++ model

def jobResultField (model : String) : String :=
  "get" ++ model ++ "JobResult"

def connectionType (model : String) : String :=
  model ++ "Connection"

def inputType (model : String) (field : RootField) : String :=
  field.capitalized ++ model ++ "Input"

/-- The index on the records that share a foreign key. -/
def indexName (foreignKey : String) : String :=
  foreignKey ++ "Index"

/-- The copy of a timestamp in the zone of the caller. -/
def localTimeField (field : String) : String :=
  field ++ "_local"

def jobCompletedField : String := "onJobCompleted"

def publishJobResultField : String := "publishJobResult"

def jobResultType : String := "JobResult"

end ApiLoom.Naming
