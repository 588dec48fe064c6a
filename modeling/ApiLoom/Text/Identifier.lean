/-!
# Names

The forms that names must have.  One line feed at the end of a name is
overlooked by all of them.
-/

namespace ApiLoom.Text

def withoutLastFeed (cs : List Char) : List Char :=
  match cs.getLast? with
  | some c => if c = '\n' then cs.dropLast else cs
  | none => cs

def isUpperLetter (c : Char) : Bool := 'A' ≤ c && c ≤ 'Z'

def isLetter (c : Char) : Bool := isUpperLetter c || ('a' ≤ c && c ≤ 'z')

def isLetterOrDigit (c : Char) : Bool := isLetter c || ('0' ≤ c && c ≤ '9')

def hasForm (first other : Char → Bool) (s : String) : Bool :=
  match withoutLastFeed s.toList with
  | [] => false
  | c :: rest => first c && rest.all other

def isIdentifier (s : String) : Bool :=
  hasForm (fun c => isLetter c || c = '_') (fun c => isLetterOrDigit c || c = '_') s

def isPascalCase (s : String) : Bool :=
  hasForm isUpperLetter isLetterOrDigit s

def isReferenceChar (c : Char) : Bool :=
  isLetterOrDigit c || "_-:.$/".toList.contains c

def isFunctionReference (s : String) : Bool :=
  hasForm isReferenceChar isReferenceChar s

end ApiLoom.Text
