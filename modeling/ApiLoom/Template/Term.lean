import ApiLoom.Text.Quoted

/-!
# Terms and conditions

The expressions that templates compute with, and their text.
-/

namespace ApiLoom.Template

inductive Term where
  /-- An expression of the template language, as it is written. -/
  | verbatim (text : String)
  | var (name : String)
  | member (of : Term) (name : String)
  | item (of key : Term)
  | call (of : Term) (method : String) (arguments : List Term)
  /-- A text with escapes. -/
  | quoted (text : String)
  /-- A text that is written between quotes as it is; references in it are replaced. -/
  | plain (text : String)
  | number (value : Int)
  | truth (value : Bool)
  | null
  | list (items : List Term)
  | emptyMap
  /-- A map of one entry. -/
  | entry (key value : Term)
  | sum (left right : Term)
  | negated (term : Term)
deriving Repr, Inhabited

namespace Term

mutual

def text : Term → String
  | verbatim s => s
  | var name => "$" ++ name
  | member of name => of.text ++ "." ++ name
  | item of key => of.text ++ "[" ++ key.text ++ "]"
  | call of method arguments =>
    of.text ++ "." ++ method ++ "(" ++ String.intercalate ", " (texts arguments) ++ ")"
  | quoted s => Text.quote s
  | plain s => "\"" ++ s ++ "\""
  | number n => toString n
  | truth b => if b then "true" else "false"
  | null => "null"
  | list items => "[" ++ String.intercalate ", " (texts items) ++ "]"
  | emptyMap => "\x7b\x7d"
  | entry key value => "\x7b " ++ key.text ++ ": " ++ value.text ++ " \x7d"
  | sum left right => left.text ++ " + " ++ right.text
  | negated t => "!" ++ t.text

def texts : List Term → List String
  | [] => []
  | t :: rest => t.text :: texts rest

end

/-! ### What templates refer to -/

def context : Term := var "ctx"

def util : Term := var "util"

def arguments : Term := context.member "args"

def stash (key : String) : Term := (context.member "stash").member key

def stashPut (key : String) (value : Term) : Term :=
  (context.member "stash").call "put" [plain key, value]

def result : Term := context.member "result"

def previousResult : Term := (context.member "prev").member "result"

def identity : Term := context.member "identity"

def caller : Term := identity.member "sub"

def headers : Term := (context.member "request").member "headers"

def canAccess : Term := var "canAccess"

def isAuthorized : Term := var "isAuthorized"

def record : Term := var "record"

def visible : Term := var "visible"

def items : Term := var "items"

def connection : Term := var "connection"

def orDefault (value default : Term) : Term := util.call "defaultIfNull" [value, default]

def isBlank (value : Term) : Term := util.call "isNullOrBlank" [value]

def asJson (value : Term) : Term := util.call "toJson" [value]

def parsed (value : Term) : Term := util.call "parseJson" [value]

def now : Term := (util.member "time").call "nowISO8601" []

/-- A value in the typed notation of the document store. -/
def typed (value : Term) : Term := (util.member "dynamodb").call "toDynamoDB" [value]

def typedJson (value : Term) : Term := (util.member "dynamodb").call "toDynamoDBJson" [value]

end Term

inductive Comparison where
  | equal
  | different
  | above
  | below
  | atLeast
deriving DecidableEq, Repr, Inhabited

def Comparison.sign : Comparison → String
  | equal => "=="
  | different => "!="
  | above => ">"
  | below => "<"
  | atLeast => ">="

inductive Cond where
  | holds (term : Term)
  | fails (term : Term)
  | compare (left : Term) (how : Comparison) (right : Term)
  /-- Equality with one of some texts. -/
  | oneOf (subject : Term) (texts : List String)
  | both (first second : Cond)
deriving Repr, Inhabited

namespace Cond

def text : Cond → String
  | holds t => t.text
  | fails t => "!" ++ t.text
  | compare left how right => left.text ++ " " ++ how.sign ++ " " ++ right.text
  | oneOf subject texts =>
    String.intercalate " || " (texts.map fun s => subject.text ++ " == " ++ Text.quote s)
  | both first second => first.text ++ " && " ++ second.text

def flagged (key : String) : Cond := holds (.stash key)

def isCaller (t : Term) : Cond := compare t .equal .caller

end Cond

end ApiLoom.Template
