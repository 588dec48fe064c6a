import ApiLoom.Calendar.Day
import ApiLoom.Document.Json.Reader
import ApiLoom.Document.Literal

/-!
# Scalars without a value

A document can be well formed and still hold a scalar that has no value: a number
with too many digits, a date that is not in the calendar, a text under the tag of
another kind.
-/

namespace ApiLoom

inductive ScalarFault where
  | longNumber (count : Nat)
  | badDigits (base : Nat) (text : String)
  | badFloat (text : String)
  | badTruth (text : String)
  | noDate
  | noCharacter
  | day (fault : Calendar.DayFault)
  | hour
  | minute
  | second
  | zone (minutes : Int)
  | character
deriving DecidableEq, Repr

def ScalarFault.message : ScalarFault → String
  | longNumber count => (Json.Error.longNumber count).message
  | badDigits base text => s!"invalid literal for int() with base {base}: {Text.literal text}"
  | badFloat text => s!"could not convert string to float: {Text.literal text}"
  | badTruth text => Text.literal text
  | noDate => "'NoneType' object has no attribute 'groupdict'"
  | noCharacter => "string index out of range"
  | day fault => fault.message
  | hour => "hour must be in 0..23"
  | minute => "minute must be in 0..59"
  | second => "second must be in 0..59"
  | zone minutes =>
    "offset must be a timedelta strictly between -timedelta(hours=24) and " ++
      s!"timedelta(hours=24), not {spanLiteral minutes}."
  | character => "chr() arg not in range(0x110000)"

/-- The class of the exception that tells of the fault. -/
def ScalarFault.className : ScalarFault → String
  | badTruth _ => "KeyError"
  | noDate => "AttributeError"
  | noCharacter => "IndexError"
  | _ => "ValueError"

end ApiLoom
