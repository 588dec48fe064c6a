import ApiLoom.Document.Json.Reader
import ApiLoom.Document.Literal
import ApiLoom.Number.Power

/-!
# Values that cannot be written

A whole number may be read that is longer than any number may be written: its digits can
stand for more than ten each.  A text that should show it cannot be made.
-/

namespace ApiLoom

/-- Why a text cannot be made. -/
inductive MessageFault where
  | longNumber
deriving DecidableEq, Repr

def MessageFault.message : MessageFault → String
  | longNumber =>
    s!"Exceeds the limit ({Json.longestNumber} digits) for integer string conversion; " ++
      "use sys.set_int_max_str_digits() to increase the limit"

/-- A whole number has at most so many digits. -/
def Scalar.isWritable : Scalar → Bool
  | int i => decide (i.natAbs < Number.tenTo Json.longestNumber)
  | _ => true

namespace Value

mutual

/-- All whole numbers in the value can be written. -/
def isWritable : Value → Bool
  | scalar s => s.isWritable
  | list items => areWritable items
  | map entries => entriesWritable entries

def areWritable : List Value → Bool
  | [] => true
  | v :: rest => v.isWritable && areWritable rest

def entriesWritable : List (Scalar × Value) → Bool
  | [] => true
  | (k, v) :: rest => k.isWritable && v.isWritable && entriesWritable rest

end

end Value

end ApiLoom
