import ApiLoom.Text.Blank

/-!
# Lines

Indentation and counting of lines.
-/

namespace ApiLoom.Text

/-- `level * size` blanks. -/
def margin (level size : Int) : String :=
  String.ofList (List.replicate (level * size).toNat ' ')

/-- Puts a margin before each line; a blank line stays as it is. -/
def indent (lines : List String) (level size : Int) : List String :=
  lines.map fun line => if isBlankLine line then line else margin level size ++ line

/-- Number of lines of `content`; a last line without a line feed counts. -/
def countLines (content : String) : Nat :=
  let feeds := content.toList.count '\n'
  match content.toList.getLast? with
  | none => 0
  | some c => if c = '\n' then feeds else feeds + 1

/-- The lines, each ended by a line feed between it and the next. -/
def joinLines (lines : List String) : String :=
  String.intercalate "\n" lines

end ApiLoom.Text
