import ApiLoom.Document.Value
import ApiLoom.Number.Shortest
import ApiLoom.Text.Quoted

/-!
# Printing JSON

A document with one item or member to a line, two blanks deeper at each level;
an empty list or mapping stays on its line.  `sorted` puts the members of every
mapping into the order of their names.
-/

namespace ApiLoom.Json

open Number (Binary64)

def numberText : Binary64 → String
  | .nan => "NaN"
  | .infinite negative => if negative then "-Infinity" else "Infinity"
  | x => x.text

/-- A scalar; one without a form in JSON is written as its text. -/
def scalarText (quoteText : String → String) : Scalar → String
  | .null => "null"
  | .bool b => if b then "true" else "false"
  | .int i => toString i
  | .float x => numberText x
  | .text s => quoteText s
  | .day _ | .moment _ => quoteText ""

def keyText : Scalar → String
  | .text s => s
  | other => scalarText (fun s => s) other

def lineStart (depth : Nat) : String :=
  String.ofList ('\n' :: List.replicate (2 * depth) ' ')

mutual

def printAt (quoteText : String → String) (depth : Nat) : Value → String
  | .scalar s => scalarText quoteText s
  | .list [] => "[]"
  | .list items =>
    "[" ++ String.intercalate "," (printItems quoteText (depth + 1) items) ++ lineStart depth ++ "]"
  | .map [] => "\x7b\x7d"
  | .map entries =>
    "\x7b" ++ String.intercalate "," (printEntries quoteText (depth + 1) entries) ++
      lineStart depth ++ "\x7d"

def printItems (quoteText : String → String) (depth : Nat) : List Value → List String
  | [] => []
  | v :: rest => (lineStart depth ++ printAt quoteText depth v) :: printItems quoteText depth rest

def printEntries (quoteText : String → String) (depth : Nat) :
    List (Scalar × Value) → List String
  | [] => []
  | (k, v) :: rest =>
    (lineStart depth ++ quoteText (keyText k) ++ ": " ++ printAt quoteText depth v) ::
      printEntries quoteText depth rest

end

mutual

/-- The same value with the members of every mapping in the order of their names. -/
def sorted : Value → Value
  | .scalar s => .scalar s
  | .list items => .list (sortedItems items)
  | .map entries =>
    .map ((sortedEntries entries).mergeSort fun a b => !(keyText b.1 < keyText a.1))

def sortedItems : List Value → List Value
  | [] => []
  | v :: rest => sorted v :: sortedItems rest

def sortedEntries : List (Scalar × Value) → List (Scalar × Value)
  | [] => []
  | (k, v) :: rest => (k, sorted v) :: sortedEntries rest

end

/-- In ASCII, with the members of mappings in the order of their names. -/
def printSorted (v : Value) : String :=
  printAt Text.quote 0 (sorted v)

/-- With letters of every script kept, members in the order given. -/
def printWide (v : Value) : String :=
  printAt Text.quoteWide 0 v

end ApiLoom.Json
