import ApiLoom.Document.Value

/-!
# Reading JSON

`read` accepts one JSON document with blanks around it, and also the three words
`NaN`, `Infinity` and `-Infinity`.  A number with a point or an exponent is a
binary64 number, any other a whole number of any size.  The first fault ends the
reading and is reported with its place.
-/

namespace ApiLoom.Json

open Number (Binary64)

inductive Reason where
  | value
  | name
  | colon
  | comma
  | openText
  | control
  | escape
  | unit
  | extra
  | byteOrderMark
deriving DecidableEq, Repr

def Reason.message : Reason → String
  | value => "Expecting value"
  | name => "Expecting property name enclosed in double quotes"
  | colon => "Expecting ':' delimiter"
  | comma => "Expecting ',' delimiter"
  | openText => "Unterminated string starting at"
  | control => "Invalid control character at"
  | escape => "Invalid \\escape"
  | unit => "Invalid \\uXXXX escape"
  | extra => "Extra data"
  | byteOrderMark => "Unexpected UTF-8 BOM (decode using utf-8-sig)"

/-- A fault with `left` characters from its place to the end; or a number too long to be read. -/
inductive Failure where
  | fault (reason : Reason) (left : Nat)
  | longNumber (count : Nat)
deriving DecidableEq, Repr

abbrev Reading (α : Type) := Except Failure (α × List Char)

def failAt {α : Type} (reason : Reason) (rest : List Char) : Reading α :=
  .error (.fault reason rest.length)

def isPadding (c : Char) : Bool :=
  c = ' ' || c = '\t' || c = '\n' || c = '\r'

def skip (cs : List Char) : List Char :=
  cs.dropWhile isPadding

/-! ### Texts -/

def hexValue (c : Char) : Option Nat :=
  if '0' ≤ c ∧ c ≤ '9' then some (c.toNat - 48)
  else if 'a' ≤ c ∧ c ≤ 'f' then some (c.toNat - 87)
  else if 'A' ≤ c ∧ c ≤ 'F' then some (c.toNat - 55)
  else none

def unitValue (a b c d : Char) : Option Nat := do
  let a ← hexValue a
  let b ← hexValue b
  let c ← hexValue c
  let d ← hexValue d
  pure (((a * 16 + b) * 16 + c) * 16 + d)

/-- The character after a backslash, for the escapes of two characters. -/
def shortUnescape (c : Char) : Option Char :=
  if c = '"' ∨ c = '\\' ∨ c = '/' then some c
  else if c = 'b' then some (Char.ofNat 8)
  else if c = 'f' then some (Char.ofNat 12)
  else if c = 'n' then some '\n'
  else if c = 'r' then some '\r'
  else if c = 't' then some '\t'
  else none

def isHighUnit (n : Nat) : Bool := 0xd800 ≤ n && n ≤ 0xdbff

def isLowUnit (n : Nat) : Bool := 0xdc00 ≤ n && n ≤ 0xdfff

def joinUnits (high low : Nat) : Nat :=
  0x10000 + (high - 0xd800) * 1024 + (low - 0xdc00)

/-- A unit on its own.  Half of a surrogate pair, which no text here can hold, becomes `U+FFFD`. -/
def unitChar (n : Nat) : Char :=
  if isHighUnit n || isLowUnit n then Char.ofNat 0xfffd else Char.ofNat n

/-- The rest of a text; `start` characters were left at its opening quote, `seen` is reversed. -/
def readText (start : Nat) (seen : List Char) : List Char → Reading String
  | [] => .error (.fault .openText start)
  | '"' :: rest => .ok (String.ofList seen.reverse, rest)
  | ['\\'] => .error (.fault .openText start)
  | '\\' :: 'u' :: a :: b :: c :: d :: rest =>
    if rest.isEmpty then failAt .unit ('u' :: a :: b :: c :: d :: rest)
    else
      match unitValue a b c d with
      | none => failAt .unit ('u' :: a :: b :: c :: d :: rest)
      | some high =>
        match rest with
        | '\\' :: 'u' :: e :: f :: g :: h :: more =>
          if isHighUnit high && !more.isEmpty then
            match unitValue e f g h with
            | none => failAt .unit ('u' :: e :: f :: g :: h :: more)
            | some low =>
              if isLowUnit low then readText start (Char.ofNat (joinUnits high low) :: seen) more
              else readText start (unitChar high :: seen) ('\\' :: 'u' :: e :: f :: g :: h :: more)
          else readText start (unitChar high :: seen) ('\\' :: 'u' :: e :: f :: g :: h :: more)
        | rest => readText start (unitChar high :: seen) rest
  | '\\' :: 'u' :: rest => failAt .unit ('u' :: rest)
  | '\\' :: c :: rest =>
    match shortUnescape c with
    | some e => readText start (e :: seen) rest
    | none => failAt .escape ('\\' :: c :: rest)
  | c :: rest =>
    if c.toNat ≤ 0x1f then failAt .control (c :: rest) else readText start (c :: seen) rest
termination_by cs => cs.length

/-! ### Numbers -/

def isDigit (c : Char) : Bool := '0' ≤ c && c ≤ '9'

def digitsValue (ds : List Char) : Nat :=
  ds.foldl (fun n c => n * 10 + (c.toNat - 48)) 0

/-- The digits before the point: one zero, or digits that do not begin with one. -/
def wholePart : List Char → Option (List Char × List Char)
  | [] => none
  | c :: rest =>
    if c = '0' then some (['0'], rest)
    else if isDigit c then some (c :: rest.takeWhile isDigit, rest.dropWhile isDigit)
    else none

/-- The digits after a point, if there are any. -/
def fractionPart (cs : List Char) : List Char × List Char :=
  match cs with
  | '.' :: rest =>
    if (rest.takeWhile isDigit).isEmpty then ([], cs)
    else (rest.takeWhile isDigit, rest.dropWhile isDigit)
  | _ => ([], cs)

/-- The exponent, if a digit ends it. -/
def exponentPart (cs : List Char) : Option Int × List Char :=
  match cs with
  | e :: rest =>
    if e = 'e' ∨ e = 'E' then
      let (negative, digits) := match rest with
        | '-' :: more => (true, more)
        | '+' :: more => (false, more)
        | more => (false, more)
      let ds := digits.takeWhile isDigit
      if ds.isEmpty then (none, cs)
      else
        let size : Int := digitsValue ds
        (some (if negative then -size else size), digits.dropWhile isDigit)
    else (none, cs)
  | [] => (none, cs)

def longestNumber : Nat := 4300

def readNumber (cs : List Char) : Reading Value :=
  let (negative, body) := match cs with
    | '-' :: rest => (true, rest)
    | _ => (false, cs)
  match wholePart body with
  | none => failAt .value cs
  | some (whole, rest) =>
    let (fraction, rest) := fractionPart rest
    let (exponent, rest) := exponentPart rest
    match fraction, exponent with
    | [], none =>
      if longestNumber < whole.length then .error (.longNumber whole.length)
      else
        let size : Int := digitsValue whole
        .ok (.int (if negative then -size else size), rest)
    | _, _ =>
      let all := whole ++ fraction
      let place := exponent.getD 0 - fraction.length
      .ok (.scalar (.float (Binary64.ofDecimal negative (digitsValue all) all.length place)), rest)

/-! ### Values -/

mutual

/-- A value at the first character.  Of `fuel` two are enough for every character, as a
list and its first item both start at one. -/
def readValue : Nat → List Char → Reading Value
  | 0, cs => failAt .value cs
  | fuel + 1, cs =>
    match cs with
    | '"' :: rest => (readText cs.length [] rest).map fun r => (.text r.1, r.2)
    | '{' :: rest =>
      match skip rest with
      | '}' :: rest => .ok (.map [], rest)
      | rest => readMembers fuel [] rest
    | '[' :: rest =>
      match skip rest with
      | ']' :: rest => .ok (.list [], rest)
      | rest => readItems fuel [] rest
    | 'n' :: 'u' :: 'l' :: 'l' :: rest => .ok (.null, rest)
    | 't' :: 'r' :: 'u' :: 'e' :: rest => .ok (.bool true, rest)
    | 'f' :: 'a' :: 'l' :: 's' :: 'e' :: rest => .ok (.bool false, rest)
    | 'N' :: 'a' :: 'N' :: rest => .ok (.scalar (.float .nan), rest)
    | 'I' :: 'n' :: 'f' :: 'i' :: 'n' :: 'i' :: 't' :: 'y' :: rest =>
      .ok (.scalar (.float (.infinite false)), rest)
    | '-' :: 'I' :: 'n' :: 'f' :: 'i' :: 'n' :: 'i' :: 't' :: 'y' :: rest =>
      .ok (.scalar (.float (.infinite true)), rest)
    | cs => readNumber cs

/-- The items of a list, at the first character of one; `seen` is reversed. -/
def readItems : Nat → List Value → List Char → Reading Value
  | 0, _, cs => failAt .value cs
  | fuel + 1, seen, cs =>
    match readValue fuel cs with
    | .error e => .error e
    | .ok (v, rest) =>
      match skip rest with
      | ']' :: rest => .ok (.list (v :: seen).reverse, rest)
      | ',' :: rest => readItems fuel (v :: seen) (skip rest)
      | rest => failAt .comma rest

/-- The members of a mapping, at the first character of one. -/
def readMembers : Nat → Entries → List Char → Reading Value
  | 0, _, cs => failAt .value cs
  | fuel + 1, seen, cs =>
    match cs with
    | '"' :: rest =>
      match readText cs.length [] rest with
      | .error e => .error e
      | .ok (key, rest) =>
        match skip rest with
        | ':' :: rest =>
          match readValue fuel (skip rest) with
          | .error e => .error e
          | .ok (v, rest) =>
            match skip rest with
            | '}' :: rest => .ok (.map (seen.put (.text key) v), rest)
            | ',' :: rest => readMembers fuel (seen.put (.text key) v) (skip rest)
            | rest => failAt .comma rest
        | rest => failAt .colon rest
    | cs => failAt .name cs

end

def readDocument (cs : List Char) : Except Failure Value :=
  match cs with
  | c :: _ =>
    if c.toNat = 0xfeff then .error (.fault .byteOrderMark cs.length)
    else do
      let (v, rest) ← readValue (2 * cs.length + 1) (skip cs)
      match skip rest with
      | [] => .ok v
      | rest => .error (.fault .extra rest.length)
  | [] => .error (.fault .value 0)

/-- Why a text is no JSON document; a fault stands at a line and column counted from one. -/
inductive Error where
  | at (reason : Reason) (line column offset : Nat)
  | longNumber (count : Nat)
deriving DecidableEq, Repr

def Error.message : Error → String
  | .at reason line column offset =>
    s!"{reason.message}: line {line} column {column} (char {offset})"
  | .longNumber count =>
    s!"Exceeds the limit ({longestNumber} digits) for integer string conversion: value has " ++
      s!"{count} digits; use sys.set_int_max_str_digits() to increase the limit"

def Failure.locate (cs : List Char) : Failure → Error
  | .fault reason left =>
    let before := cs.take (cs.length - left)
    let column := (before.reverse.takeWhile (· ≠ '\n')).length + 1
    .at reason (before.count '\n' + 1) column before.length
  | .longNumber count => .longNumber count

def read (text : String) : Except Error Value :=
  let cs := text.toList
  match readDocument cs with
  | .ok v => .ok v
  | .error f => .error (f.locate cs)

end ApiLoom.Json
