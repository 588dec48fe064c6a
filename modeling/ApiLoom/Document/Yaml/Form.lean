import ApiLoom.Document.Yaml.Cell

/-!
# Forms of plain scalars

What a scalar without quotes stands for: a null, a truth value, a number in one of
several bases, a date, a time, or else a text.  Underscores inside numbers do not
count.
-/

namespace ApiLoom.Yaml

open Number (Binary64)

/-- Two forms have a meaning as keys only: the one that merges mappings and the equals
sign. -/
inductive Form where
  | scalar (s : Scalar)
  | broken (fault : ScalarFault)
  | merge
  | equals
deriving DecidableEq, Repr

/-! ### Pieces of numbers -/

def withoutSign : List Char → Bool × List Char
  | '-' :: rest => (true, rest)
  | '+' :: rest => (false, rest)
  | rest => (false, rest)

def signed (negative : Bool) (n : Nat) : Int :=
  if negative then -(n : Int) else n

def isDigitOrLine (c : Char) : Bool := Json.isDigit c || c = '_'

def isDigitRun : List Char → Bool
  | [] => false
  | c :: rest => Json.isDigit c && rest.all isDigitOrLine

def digitsOf (cs : List Char) : List Char :=
  cs.filter (· ≠ '_')

def numberIn (base : Nat) (cs : List Char) : Nat :=
  (digitsOf cs).foldl (fun n c => n * base + (Json.hexValue c).getD 0) 0

def decimal (cs : List Char) : Except ScalarFault Nat :=
  let ds := digitsOf cs
  if Json.longestNumber < ds.length then .error (.longNumber ds.length) else .ok (numberIn 10 ds)

def betweenColons : List Char → List (List Char)
  | [] => [[]]
  | c :: rest =>
    match betweenColons rest with
    | [] => [[c]]
    | first :: others => if c = ':' then [] :: first :: others else (c :: first) :: others

def isSixtieth : List Char → Bool
  | [a] => Json.isDigit a
  | [a, b] => '0' ≤ a && a ≤ '5' && Json.isDigit b
  | _ => false

/-! ### Whole numbers -/

/-- A number without its sign: binary, octal, decimal, hexadecimal, or in base sixty with
colons. -/
def wholeForm (cs : List Char) : Option (Except ScalarFault Nat) :=
  match cs with
  | '0' :: 'b' :: ds =>
    if !ds.isEmpty && ds.all (fun c => c = '0' || c = '1' || c = '_') then
      some (if (digitsOf ds).isEmpty then .error (.badDigits 2 "") else .ok (numberIn 2 ds))
    else none
  | '0' :: 'x' :: ds =>
    if !ds.isEmpty && ds.all (fun c => (Json.hexValue c).isSome || c = '_') then
      some (if (digitsOf ds).isEmpty then .error (.badDigits 16 "") else .ok (numberIn 16 ds))
    else none
  | '0' :: ds =>
    if ds.all fun c => ('0' ≤ c && c ≤ '7') || c = '_' then some (.ok (numberIn 8 ds)) else none
  | cs =>
    match betweenColons cs with
    | [] => none
    | first :: more =>
      if isDigitRun first && more.all isSixtieth then
        some ((decimal first).map fun n => more.foldl (fun n ds => n * 60 + numberIn 10 ds) n)
      else none

def wholeOf (cs : List Char) : Option Form :=
  let (negative, body) := withoutSign cs
  (wholeForm body).map fun
    | .ok n => .scalar (.int (signed negative n))
    | .error fault => .broken fault

/-! ### Numbers with a point -/

/-- The number written by digits before and after the point. -/
def pointed (negative : Bool) (whole fraction : List Char) (exponent : Int) : Binary64 :=
  let all := digitsOf whole ++ digitsOf fraction
  Binary64.ofDecimal negative (numberIn 10 all) all.length
    (exponent - (digitsOf fraction).length)

def exponentOf : List Char → Option Int
  | [] => some 0
  | e :: mark :: ds =>
    if (e = 'e' ∨ e = 'E') ∧ (mark = '-' ∨ mark = '+') ∧ !ds.isEmpty ∧ ds.all Json.isDigit then
      some (signed (mark = '-') (numberIn 10 ds))
    else none
  | _ => none

/-- Digits with a point; they begin with a digit, or with the point if there is no sign. -/
def pointForm (hasSign negative : Bool) (cs : List Char) : Option Binary64 :=
  let (whole, rest) := cs.span isDigitOrLine
  match rest with
  | '.' :: tail =>
    let (fraction, ending) := tail.span isDigitOrLine
    let fits := if whole.isEmpty then !hasSign && isDigitRun fraction else isDigitRun whole
    if fits then (exponentOf ending).map (pointed negative whole fraction) else none
  | _ => none

/-- The sum of places in base sixty, of which the last comes first; each is added in binary. -/
def sixtieths (places : List Binary64) : Binary64 :=
  places.zipIdx.foldl (fun sum p => sum.add (p.1.scaleBy (Nat.pow 60 p.2))) (Binary64.ofInt 0)

/-- Base sixty with a point in the last place. -/
def sixtiethForm (negative : Bool) (cs : List Char) : Option Binary64 :=
  let (body, rest) := cs.span (· ≠ '.')
  match rest, (betweenColons body).reverse with
  | '.' :: fraction, last :: second :: more =>
    let first := (last :: second :: more).getLast (by simp)
    let others := (last :: second :: more).dropLast
    if isDigitRun first && others.all isSixtieth && fraction.all isDigitOrLine then
      let places := pointed false last fraction 0 ::
        (second :: more).map fun ds => pointed false ds [] 0
      some (if negative then (sixtieths places).neg else sixtieths places)
    else none
  | _, _ => none

def floatOf (cs : List Char) : Option Form :=
  let (negative, body) := withoutSign cs
  let hasSign := body.length < cs.length
  let float (x : Binary64) : Option Form := some (.scalar (.float x))
  if [".inf", ".Inf", ".INF"].contains (String.ofList body) then float (.infinite negative)
  else if !hasSign && [".nan", ".NaN", ".NAN"].contains (String.ofList body) then float .nan
  else
    match pointForm hasSign negative body with
    | some x => float x
    | none => (sixtiethForm negative body).bind float

/-! ### Dates and times -/

/-- Between `least` and `most` digits. -/
def digitRun (least most : Nat) (cs : List Char) : Option (Nat × List Char) :=
  let ds := (cs.take most).takeWhile Json.isDigit
  if ds.length < least then none else some (numberIn 10 ds, cs.drop ds.length)

def mark (c : Char) : List Char → Option (List Char)
  | [] => none
  | d :: rest => if d = c then some rest else none

/-- A distance from universal time in minutes; none where no distance is given. -/
def zoneForm (cs : List Char) : Option (Option Int) :=
  match cs.dropWhile isGap with
  | [] => if cs.isEmpty then some none else none
  | ['Z'] => some (some 0)
  | c :: rest =>
    if c = '-' ∨ c = '+' then do
      let (hours, rest) ← digitRun 1 2 rest
      let minutes ← match rest with
        | [] => some 0
        | ':' :: rest =>
          match digitRun 2 2 rest with
          | some (minutes, []) => some minutes
          | _ => none
        | _ => none
      pure (some (signed (c = '-') (hours * 60 + minutes)))
    else none

def microseconds (ds : List Char) : Nat :=
  let kept := ds.take 6
  numberIn 10 kept * Number.tenTo (6 - kept.length)

def longestZone : Nat := 1440

def checkMoment (date : Nat × Nat × Nat) (hour minute second microsecond : Nat)
    (zone : Option Int) : Except ScalarFault Moment :=
  if (zone.getD 0).natAbs ≥ longestZone then .error (.zone (zone.getD 0))
  else
    match Calendar.checkDay date.1 date.2.1 date.2.2 with
    | .error fault => .error (.day fault)
    | .ok day =>
      if 23 < hour then .error .hour
      else if 59 < minute then .error .minute
      else if 59 < second then .error .second
      else .ok ⟨day, hour, minute, second, microsecond, zone⟩

/-- A time of the day after a `T` or blanks. -/
def timeForm (date : Nat × Nat × Nat) (cs : List Char) : Option (Except ScalarFault Moment) := do
  let rest ← match cs with
    | c :: rest =>
      if c = 'T' ∨ c = 't' then some rest
      else if isGap c then some (rest.dropWhile isGap)
      else none
    | [] => none
  let (hour, rest) ← digitRun 1 2 rest
  let (minute, rest) ← digitRun 2 2 (← mark ':' rest)
  let (second, rest) ← digitRun 2 2 (← mark ':' rest)
  let (fraction, rest) := match rest with
    | '.' :: rest => rest.span Json.isDigit
    | rest => ([], rest)
  let zone ← zoneForm rest
  pure (checkMoment date hour minute second (microseconds fraction) zone)

/-- With `strict`, a date alone has two digits for month and day; else, and before a time, one
will do. -/
def dateOf (strict : Bool) (cs : List Char) : Option Form := do
  let (year, rest) ← digitRun 4 4 cs
  let (month, afterMonth) ← digitRun 1 2 (← mark '-' rest)
  let (day, tail) ← digitRun 1 2 (← mark '-' afterMonth)
  if tail.isEmpty then
    if !strict || cs.length = 10 then
      match Calendar.checkDay year month day with
      | .ok d => some (.scalar (.day d))
      | .error fault => some (.broken (.day fault))
    else none
  else
    (timeForm (year, month, day) tail).map fun
      | .ok m => .scalar (.moment m)
      | .error fault => .broken fault

/-! ### All forms -/

def nullWords : List String := ["", "~", "null", "Null", "NULL"]

def trueWords : List String := ["yes", "Yes", "YES", "true", "True", "TRUE", "on", "On", "ON"]

def falseWords : List String := ["no", "No", "NO", "false", "False", "FALSE", "off", "Off", "OFF"]

def formOf (s : String) : Form :=
  if nullWords.contains s then .scalar .null
  else if trueWords.contains s then .scalar (.bool true)
  else if falseWords.contains s then .scalar (.bool false)
  else if s = "<<" then .merge
  else if s = "=" then .equals
  else
    let cs := s.toList
    (((floatOf cs).orElse fun _ => wholeOf cs).orElse fun _ => dateOf true cs).getD
      (.scalar (.text s))

end ApiLoom.Yaml
