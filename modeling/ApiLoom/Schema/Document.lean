/-!
# Schema documents

Scalars, object types and input types, and their text.  Blocks stand apart by an
empty line.
-/

namespace ApiLoom.Schema

structure TypeRef where
  name : String
  isList : Bool
  required : Bool
deriving DecidableEq, Repr, Inhabited

namespace TypeRef

def optional (name : String) : TypeRef := ⟨name, false, false⟩

def needed (name : String) : TypeRef := ⟨name, false, true⟩

def listOf (name : String) : TypeRef := ⟨name, true, false⟩

def text (t : TypeRef) : String :=
  (if t.isList then "[" ++ t.name ++ "]" else t.name) ++ if t.required then "!" else ""

end TypeRef

structure Argument where
  name : String
  type : TypeRef
deriving DecidableEq, Repr, Inhabited

def Argument.text (a : Argument) : String := a.name ++ ": " ++ a.type.text

inductive Directive where
  /-- Only callers with a role of the platform may use the field. -/
  | platformOnly
  /-- The subscription follows a mutation. -/
  | follows (mutation : String)
deriving DecidableEq, Repr, Inhabited

def Directive.text : Directive → String
  | platformOnly => " @aws_iam"
  | follows mutation => " @aws_subscribe(mutations: [\"" ++ mutation ++ "\"])"

structure Field where
  name : String
  arguments : List Argument
  type : TypeRef
  directive : Option Directive
deriving DecidableEq, Repr, Inhabited

namespace Field

def plain (name : String) (type : TypeRef) : Field := ⟨name, [], type, none⟩

def text (f : Field) : String :=
  let arguments :=
    if f.arguments.isEmpty then ""
    else "(" ++ String.intercalate ", " (f.arguments.map Argument.text) ++ ")"
  let directive := match f.directive with | some d => d.text | none => ""
  f.name ++ arguments ++ ": " ++ f.type.text ++ directive

end Field

inductive BlockKind where
  | object
  | input
deriving DecidableEq, Repr, Inhabited

def BlockKind.keyword : BlockKind → String
  | object => "type"
  | input => "input"

structure Block where
  kind : BlockKind
  name : String
  fields : List Field
deriving DecidableEq, Repr, Inhabited

def Block.text (b : Block) : String :=
  String.intercalate "\n"
    ((b.kind.keyword ++ " " ++ b.name ++ " \x7b") :: (b.fields.map fun f => "  " ++ f.text) ++
      ["\x7d"])

structure Document where
  scalars : List String
  blocks : List Block
deriving DecidableEq, Repr, Inhabited

namespace Document

def scalarsText (scalars : List String) : String :=
  String.intercalate "\n" (scalars.map fun name => "scalar " ++ name)

def text (d : Document) : String :=
  let scalars := if d.scalars.isEmpty then [] else [scalarsText d.scalars]
  String.intercalate "\n\n" (scalars ++ d.blocks.map Block.text) ++ "\n"

end Document

end ApiLoom.Schema
