import ApiLoom.Calendar.Day
import ApiLoom.Number.Power

/-!
# Dates and times as text

`isIsoMoment` recognises a date, alone or with a time behind one separating
character of any kind.  A date is given by month and day or by week and weekday,
with dashes or without; a time has hours, minutes and seconds with colons or
without, a fraction, and a distance from universal time.
-/

namespace ApiLoom.Calendar

abbrev Bytes := List UInt8

def byteOf (c : Char) : UInt8 := UInt8.ofNat c.toNat

def isDigitByte (b : UInt8) : Bool := byteOf '0' ≤ b && b ≤ byteOf '9'

def nextByte (bytes : Bytes) : UInt8 := bytes.headD 0

/-- A number of exactly `count` digits, `value` being what was read before it. -/
def readDigits (value : Nat) : Nat → Bytes → Option (Nat × Bytes)
  | 0, bytes => some (value, bytes)
  | _ + 1, [] => none
  | count + 1, b :: rest =>
    if isDigitByte b then readDigits (value * 10 + (b.toNat - 48)) count rest else none

/-- How many bytes the date takes, from the shape of its first eight or so. -/
def datePlaces (bytes : Bytes) : Option Nat :=
  let size := bytes.length
  let byte (i : Nat) : UInt8 := bytes.getD i 0
  if size = 7 then some 7
  else if byte 4 = byteOf '-' then
    if byte 5 = byteOf 'W' then
      if size < 8 then none
      else if 8 < size ∧ byte 8 = byteOf '-' then
        if size = 9 then none
        else if 10 < size ∧ isDigitByte (byte 10) then some 8
        else some 10
      else some 8
    else some 10
  else if byte 4 = byteOf 'W' then
    let stop := 7 + ((bytes.drop 7).takeWhile isDigitByte).length
    if stop < 9 then some stop
    else if stop % 2 = 0 then some 7
    else some 8
  else some 8

/-- Whether the first `places` bytes are a day of the calendar. -/
def isDate (places : Nat) (bytes : Bytes) : Bool :=
  match readDigits 0 4 bytes with
  | none => false
  | some (year, rest) =>
    let dashed := nextByte rest = byteOf '-'
    let rest := if dashed then rest.drop 1 else rest
    let skipDash (r : Bytes) : Option Bytes :=
      if dashed then (if nextByte r = byteOf '-' then some (r.drop 1) else none) else some r
    if nextByte rest = byteOf 'W' then
      match readDigits 0 2 (rest.drop 1) with
      | none => false
      | some (week, rest) =>
        if bytes.length - rest.length < places then
          match (skipDash rest).bind (readDigits 0 1) with
          | none => false
          | some (day, _) => isWeekDay year week day
        else isWeekDay year week 1
    else
      match readDigits 0 2 rest with
      | none => false
      | some (month, rest) =>
        match (skipDash rest).bind (readDigits 0 2) with
        | none => false
        | some (day, rest) =>
          bytes.length - rest.length = places && (checkDay year month day).toBool

/-- Hours, minutes, seconds and microseconds; `more` says that something follows. -/
structure Clock where
  values : List Nat
  microsecond : Nat
  more : Bool
deriving Repr

def Clock.value (c : Clock) (i : Nat) : Nat := c.values.getD i 0

/-- The fraction of a second, of which `left` bytes belong to the time. -/
def readFraction (values : List Nat) (left : Nat) (bytes : Bytes) : Option Clock :=
  let places := min 6 left
  match readDigits 0 places bytes with
  | none => none
  | some (n, rest) =>
    some ⟨values, n * Number.tenTo (6 - places), nextByte (rest.dropWhile isDigitByte) ≠ 0⟩

/-- Reads up to `fuel` pairs of digits; the byte after the hours tells whether colons are used. -/
def readClock (values : List Nat) (colons : Bool) (left : Nat) (bytes : Bytes) :
    Nat → Option Clock
  | 0 => readFraction values left bytes
  | fuel + 1 =>
    match readDigits 0 2 bytes with
    | none => none
    | some (v, rest) =>
      let values := values ++ [v]
      let c := nextByte rest
      let colons := if values.length = 1 then c = byteOf ':' else colons
      if left ≤ 3 then some ⟨values, 0, c ≠ 0⟩
      else if colons ∧ c = byteOf ':' then readClock values colons (left - 3) (rest.drop 1) fuel
      else if c = byteOf '.' ∨ c = byteOf ',' then readFraction values (left - 3) (rest.drop 1)
      else if !colons then readClock values colons (left - 2) rest fuel
      else none

def isZoneMark (b : UInt8) : Bool :=
  b = byteOf '+' || b = byteOf '-' || b = byteOf 'Z'

def isClockTime (c : Clock) : Bool :=
  c.value 0 ≤ 23 && c.value 1 ≤ 59 && c.value 2 ≤ 59

/-- A distance from universal time is less than a day. -/
def isZone (c : Clock) : Bool :=
  !c.more && (c.value 0 * 3600 + c.value 1 * 60 + c.value 2) * 1000000 + c.microsecond <
    86400 * 1000000

def isTime (bytes : Bytes) : Bool :=
  let main := bytes.takeWhile fun b => !isZoneMark b
  match readClock [] false main.length bytes 3 with
  | none => false
  | some clock =>
    isClockTime clock &&
      match bytes.drop main.length with
      | [] => !clock.more
      | mark :: zone =>
        if mark = byteOf 'Z' then zone.isEmpty
        else
          match readClock [] false zone.length zone 3 with
          | none => false
          | some z => isZone z

/-- The number of bytes of the character that begins with `b`. -/
def charBytes (b : UInt8) : Nat :=
  if b < 0x80 then 1
  else if b &&& 0xf0 = 0xe0 then 3
  else if b &&& 0xf0 = 0xf0 then 4
  else 2

def isIsoMoment (s : String) : Bool :=
  let bytes := s.toUTF8.data.toList
  match datePlaces bytes with
  | none => false
  | some places =>
    isDate places bytes &&
      (bytes.length ≤ places ||
        isTime (bytes.drop (places + charBytes (bytes.getD places 0))))

end ApiLoom.Calendar
