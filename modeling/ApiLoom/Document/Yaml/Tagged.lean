import ApiLoom.Document.Yaml.Form
import ApiLoom.Text.Blank
import ApiLoom.Text.LetterCase

/-!
# Tagged scalars

A tag asks for a value of one kind, whatever form the text would have without it.
A text that has no such value is not malformed: the reading breaks off there.
-/

namespace ApiLoom.Yaml

open Number (Binary64)

/-! ### Truth values -/

def truthWords : List (String × Bool) :=
  [("yes", true), ("no", false), ("true", true), ("false", false), ("on", true), ("off", false)]

def taggedTruth (text : String) : Except ScalarFault Bool :=
  let word := Text.lower text
  match truthWords.find? fun w => w.1 = word with
  | some w => .ok w.2
  | none => .error (.badTruth word)

/-! ### Whole numbers -/

/-- The letter behind a zero that marks the digits of a base. -/
def baseMark : Nat → Option Char
  | 2 => some 'b'
  | 8 => some 'o'
  | 16 => some 'x'
  | _ => none

/-- Leaves out a zero and the mark of the base. -/
def withoutMark (base : Nat) : List Char → List Char
  | '0' :: c :: rest => if baseMark base = some c then rest else '0' :: c :: rest
  | cs => cs

def isDigitIn (base : Nat) (c : Char) : Bool :=
  (Json.hexValue c).any (· < base)

/-- A number in a base, which may have blanks around it, a sign and the mark of the base. -/
def wholeIn (base : Nat) (cs : List Char) : Except ScalarFault Int :=
  let (negative, body) := withoutSign (Text.trim Text.isBlank cs)
  let ds := withoutMark base body
  if ds.isEmpty || !ds.all (isDigitIn base) then .error (.badDigits base (String.ofList cs))
  else if base = 10 && Json.longestNumber < ds.length then .error (.longNumber ds.length)
  else .ok (signed negative (numberIn base ds))

/-- The sign of a number and what stands behind it. -/
def signedText : List Char → Except ScalarFault (Bool × List Char)
  | [] => .error .noCharacter
  | cs => .ok (withoutSign cs)

def taggedWhole (text : String) : Except ScalarFault Int := do
  let (negative, body) ← signedText (digitsOf text.toList)
  let n ← match body with
    | [] => .error .noCharacter
    | ['0'] => pure 0
    | '0' :: 'b' :: ds => wholeIn 2 ds
    | '0' :: 'x' :: ds => wholeIn 16 ds
    | '0' :: _ => wholeIn 8 body
    | _ =>
      if body.contains ':' then do
        let places ← (betweenColons body).mapM (wholeIn 10)
        pure (places.foldl (fun n place => n * 60 + place) 0)
      else wholeIn 10 body
  pure (if negative then -n else n)

/-! ### Numbers with a point -/

def looseExponent : List Char → Option Int
  | [] => some 0
  | 'e' :: rest =>
    let (negative, ds) := withoutSign rest
    if !ds.isEmpty && ds.all Json.isDigit then some (signed negative (numberIn 10 ds)) else none
  | _ => none

/-- Digits with or without a point and an exponent, or one of the words for the rest. -/
def decimalForm (cs : List Char) : Option Binary64 :=
  let (negative, body) := withoutSign (Text.trim Text.isBlank cs)
  let (whole, rest) := body.span Json.isDigit
  let (fraction, ending) := match rest with
    | '.' :: tail => tail.span Json.isDigit
    | _ => ([], rest)
  if ["inf", "infinity"].contains (String.ofList body) then some (.infinite negative)
  else if body = ['n', 'a', 'n'] then some .nan
  else if whole.isEmpty && fraction.isEmpty then none
  else (looseExponent ending).map (pointed negative whole fraction)

def floatIn (cs : List Char) : Except ScalarFault Binary64 :=
  match decimalForm cs with
  | some x => .ok x
  | none => .error (.badFloat (String.ofList cs))

def taggedFloat (text : String) : Except ScalarFault Binary64 := do
  let (negative, body) ← signedText (Text.lower (String.ofList (digitsOf text.toList))).toList
  let x ← if body = ['.', 'i', 'n', 'f'] then pure (.infinite false)
    else if body = ['.', 'n', 'a', 'n'] then pure .nan
    else if body.contains ':' then do
      let places ← (betweenColons body).mapM floatIn
      pure (sixtieths places.reverse)
    else floatIn body
  pure (if negative then x.neg else x)

/-! ### Dates -/

def taggedDate (text : String) : Except ScalarFault Scalar :=
  match dateOf false text.toList with
  | some (.scalar s) => .ok s
  | some (.broken fault) => .error fault
  | _ => .error .noDate

end ApiLoom.Yaml
