import ApiLoom.Document.Literal

/-!
# Columns

Texts and numbers as they stand in the columns of a report.
-/

namespace ApiLoom.Text

/-- Blanks after `s` up to `width` characters. -/
def padRight (width : Nat) (s : String) : String :=
  s ++ String.ofList (List.replicate (width - s.length) ' ')

/-- Blanks before `s` up to `width` characters. -/
def padLeft (width : Nat) (s : String) : String :=
  String.ofList (List.replicate (width - s.length) ' ') ++ s

def rule (width : Nat) (c : Char) : String :=
  String.ofList (List.replicate width c)

/-- Digits in threes, counted from the last; the first three come with no comma. -/
def threes : List Char → List Char
  | a :: b :: c :: d :: rest => a :: b :: c :: ',' :: threes (d :: rest)
  | cs => cs

/-- `n` with a comma before every three digits. -/
def thousands (n : Nat) : String :=
  String.ofList (threes (Nat.toDigits 10 n).reverse).reverse

def seconds (milliseconds : Nat) : String :=
  s!"{milliseconds / 1000}.{padded 3 (milliseconds % 1000)}s"

end ApiLoom.Text
