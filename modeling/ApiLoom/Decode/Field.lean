import ApiLoom.Decode.Fault
import ApiLoom.Document.Json.Reader
import ApiLoom.Document.Literal
import ApiLoom.Text.Blank

/-!
# Fields of a document

Decoders for the kinds of field that definitions are made of.  Whole numbers and
truth values may also be written as text, and a whole number as any number
without a fraction.
-/

namespace ApiLoom

open Number (Binary64)

abbrev Decoder (α : Type) := Value → Checked α

namespace Decoder

variable {α : Type}

/-! ### Single values -/

def value : Decoder Value := Checked.ok

def text : Decoder String
  | .scalar (.text s) => .ok s
  | _ => .fail .notText

def name : Decoder String
  | .scalar (.text s) => if s.isEmpty then .fail .emptyText else .ok s
  | _ => .fail .notText

def orNull (decoder : Decoder α) : Decoder (Option α)
  | .scalar .null => .ok none
  | v => (decoder v).map some

def word (all : List α) (spelling : α → String) : Decoder α
  | .scalar (.text s) =>
    match all.find? fun a => spelling a = s with
    | some a => .ok a
    | none => .fail (.notOneOf (all.map spelling))
  | _ => .fail (.notOneOf (all.map spelling))

def truthWords : List String := ["1", "on", "t", "true", "y", "yes"]

def falsehoodWords : List String := ["0", "off", "f", "false", "n", "no"]

def truth : Decoder Bool
  | .scalar (.bool b) => .ok b
  | .scalar (.int i) => if i = 0 then .ok false else if i = 1 then .ok true else .fail .truthText
  | .scalar (.float x) =>
    match x.toInt? with
    | some i => if i = 0 then .ok false else if i = 1 then .ok true else .fail .truthText
    | none => .fail .notTruth
  | .scalar (.text s) =>
    let w := s.toLower
    if truthWords.contains w then .ok true
    else if falsehoodWords.contains w then .ok false
    else .fail .truthText
  | _ => .fail .notTruth

def groupedDigits : List Char → Option (List Char)
  | [] => none
  | c :: rest =>
    if !Json.isDigit c then none
    else
      match rest with
      | [] => some [c]
      | '_' :: more => (groupedDigits more).map (c :: ·)
      | more => (groupedDigits more).map (c :: ·)

/-- A whole number in a text: blanks around it, a sign, digits, and a fraction of zeros. -/
def wholeOfText (s : String) : Option Int :=
  let cs := Text.trim Text.isSpace s.toList
  let (negative, body) := match cs with
    | '-' :: rest => (true, rest)
    | '+' :: rest => (false, rest)
    | rest => (false, rest)
  let whole := body.takeWhile (· ≠ '.')
  let fraction := body.drop whole.length
  let fractionOk := match fraction with
    | [] => true
    | _ :: zeros => !zeros.isEmpty && zeros.all (· = '0')
  if fractionOk then
    (groupedDigits whole).map fun ds =>
      let size : Int := Json.digitsValue ds
      if negative then -size else size
  else none

/-- The bounds of whole numbers that may be written with a point. -/
def floatBound : Int := 0x8000000000000000

def whole : Decoder Int
  | .scalar (.int i) => .ok i
  | .scalar (.bool b) => .ok (if b then 1 else 0)
  | .scalar (.float x) =>
    match x.toInt? with
    | some i => if -floatBound ≤ i ∧ i < floatBound then .ok i else .fail .wholeTooLong
    | none => .fail .fractional
  | .scalar (.text s) =>
    if Json.longestNumber < s.length then .fail .wholeTooLong
    else
      match wholeOfText s with
      | some i => .ok i
      | none => .fail .wholeText
  | _ => .fail .notWhole

def atLeast (bound : Int) (decoder : Decoder Int) : Decoder Int := fun v =>
  (decoder v).bind fun i => if bound ≤ i then .ok i else .fail (.atLeast bound)

def atMost (bound : Int) (decoder : Decoder Int) : Decoder Int := fun v =>
  (decoder v).bind fun i => if i ≤ bound then .ok i else .fail (.atMost bound)

/-! ### Lists and mappings -/

/-- The faults of an item are found below its position. -/
def itemsFrom (decoder : Decoder α) (position : Nat) : List Value → List (Checked α)
  | [] => []
  | v :: rest => (decoder v).below (.index position) :: itemsFrom decoder (position + 1) rest

def list (decoder : Decoder α) : Decoder (List α)
  | .list items => Checked.all (itemsFrom decoder 0 items)
  | _ => .fail .notList

/-- How a key stands in the place of a fault. -/
def keyStep : Scalar → Step
  | .text s => .key s
  | .int i => .index i
  | .bool b => .index (if b then 1 else 0)
  | other => .key other.display

def entry (decoder : Decoder α) (e : Scalar × Value) : Checked (String × α) :=
  let key : Checked String := match e.1 with
    | .text s => .ok s
    | _ => (Checked.fail .notText).below (.key "[key]")
  ((key.map Prod.mk).apply (decoder e.2)).below (keyStep e.1)

def mapping (decoder : Decoder α) : Decoder (List (String × α))
  | .map entries => Checked.all (entries.map (entry decoder))
  | _ => .fail .notMapping

end Decoder

/-- A field may be written under its key or under a second spelling; the key goes first. -/
structure FieldName where
  key : String
  spelling : String

namespace FieldName

def plain (key : String) : FieldName := ⟨key, key⟩

/-- The field in a record, under the spelling that was found. -/
def find (n : FieldName) (record : Entries) : Option (String × Value) :=
  match record.get? n.key with
  | some v => some (n.key, v)
  | none => (record.get? n.spelling).map fun v => (n.spelling, v)

variable {α : Type}

def required (n : FieldName) (decoder : Decoder α) (record : Entries) : Checked α :=
  match n.find record with
  | some (found, v) => (decoder v).below (.key found)
  | none => (Checked.fail .missing).below (.key n.key)

def withDefault (n : FieldName) (default : α) (decoder : Decoder α) (record : Entries) :
    Checked α :=
  match n.find record with
  | some (found, v) => (decoder v).below (.key found)
  | none => .ok default

end FieldName

/-- The keys of the record that no field has taken are faults, in their order. -/
def unknownKeys (names : List FieldName) (record : Entries) : Checked Unit :=
  let taken := names.filterMap fun n => (n.find record).map (·.1)
  let faults := record.filterMap fun e =>
    match e.1 with
    | .text s => if taken.contains s then none else some ⟨[.key s], .unknownKey⟩
    | other => some ⟨[Decoder.keyStep other], .keyNotText⟩
  if faults.isEmpty then .ok () else .faults faults

/-- Decodes a record of the named fields only. -/
def Decoder.record {α : Type} (className : String) (names : List FieldName)
    (fields : Entries → Checked α) : Decoder α
  | .map entries => (fields entries).also (unknownKeys names entries)
  | _ => .fail (.notRecord className)

end ApiLoom
