import ApiLoom.Document.Value
import ApiLoom.Number.Shortest
import ApiLoom.Text.Printable
import ApiLoom.Text.Quoted

/-!
# Values in messages

`literal` writes a value so that its type can be seen: texts stand in quotes.
`display` writes a text as it is.
-/

namespace ApiLoom

namespace Text

/-- `count` hexadecimal digits of `n`. -/
def hexDigits (n : Nat) : Nat → List Char
  | 0 => []
  | count + 1 => hexDigits (n / 16) count ++ [Quoted.hexDigit (n % 16)]

/-- One character between the marks `mark`. -/
def literalChar (mark c : Char) : List Char :=
  if c = mark ∨ c = '\\' then ['\\', c]
  else if c = '\n' then ['\\', 'n']
  else if c = '\r' then ['\\', 'r']
  else if c = '\t' then ['\\', 't']
  else if isPrintable c then [c]
  else if c.toNat < 0x100 then '\\' :: 'x' :: hexDigits c.toNat 2
  else if c.toNat < 0x10000 then '\\' :: 'u' :: hexDigits c.toNat 4
  else '\\' :: 'U' :: hexDigits c.toNat 8

/-- `s` between apostrophes, or between double quotes if it has apostrophes and no double quotes. -/
def literal (s : String) : String :=
  let cs := s.toList
  let mark := if cs.contains '\'' && !cs.contains '"' then '"' else '\''
  String.ofList (mark :: cs.flatMap (literalChar mark) ++ [mark])

def literals (items : List String) : String :=
  "[" ++ String.intercalate ", " (items.map literal) ++ "]"

/-- `n` with zeros before it up to `width` digits. -/
def padded (width n : Nat) : String :=
  let ds := Nat.toDigits 10 n
  String.ofList (List.replicate (width - ds.length) '0' ++ ds)

end Text

def Day.display (d : Day) : String :=
  Text.padded 4 d.year ++ "-" ++ Text.padded 2 d.month ++ "-" ++ Text.padded 2 d.day

def Day.literal (d : Day) : String :=
  s!"datetime.date({d.year}, {d.month}, {d.day})"

/-- A distance in minutes as whole days, rounded down, and the seconds left. -/
def spanLiteral (minutes : Int) : String :=
  let days := minutes.fdiv 1440
  let seconds := minutes.fmod 1440 * 60
  let parts := (if days = 0 then [] else [s!"days={days}"]) ++
    (if seconds = 0 then [] else [s!"seconds={seconds}"])
  "datetime.timedelta(" ++ (if parts.isEmpty then "0" else String.intercalate ", " parts) ++ ")"

def zoneLiteral (minutes : Int) : String :=
  if minutes = 0 then "datetime.timezone.utc"
  else "datetime.timezone(" ++ spanLiteral minutes ++ ")"

/-- Seconds and microseconds are left out when they and all after them are zero. -/
def Moment.literal (m : Moment) : String :=
  let tail :=
    if m.microsecond ≠ 0 then [m.second, m.microsecond]
    else if m.second ≠ 0 then [m.second]
    else []
  let parts := ([m.day.year, m.day.month, m.day.day, m.hour, m.minute] ++ tail).map toString
  let zone := match m.zone with
    | some z => [s!"tzinfo={zoneLiteral z}"]
    | none => []
  "datetime.datetime(" ++ String.intercalate ", " (parts ++ zone) ++ ")"

def Moment.display (m : Moment) : String :=
  let fraction := if m.microsecond = 0 then "" else "." ++ Text.padded 6 m.microsecond
  let zone := match m.zone with
    | some z =>
      (if z < 0 then "-" else "+") ++ Text.padded 2 (z.natAbs / 60) ++ ":" ++
        Text.padded 2 (z.natAbs % 60)
    | none => ""
  m.day.display ++ " " ++ Text.padded 2 m.hour ++ ":" ++ Text.padded 2 m.minute ++ ":" ++
    Text.padded 2 m.second ++ fraction ++ zone

namespace Scalar

def literal : Scalar → String
  | null => "None"
  | bool b => if b then "True" else "False"
  | int i => toString i
  | float x => x.text
  | text s => Text.literal s
  | day d => d.literal
  | moment m => m.literal

def display : Scalar → String
  | text s => s
  | day d => d.display
  | moment m => m.display
  | other => other.literal

end Scalar

namespace Value

mutual

def literal : Value → String
  | scalar s => s.literal
  | list items => "[" ++ String.intercalate ", " (literalItems items) ++ "]"
  | map entries => "\x7b" ++ String.intercalate ", " (literalEntries entries) ++ "\x7d"

def literalItems : List Value → List String
  | [] => []
  | v :: rest => v.literal :: literalItems rest

def literalEntries : List (Scalar × Value) → List String
  | [] => []
  | (k, v) :: rest => (k.literal ++ ": " ++ v.literal) :: literalEntries rest

end

def display : Value → String
  | scalar s => s.display
  | other => other.literal

end Value

end ApiLoom
