import ApiLoom.Number.Power

/-!
# Binary64 numbers

Numbers of the format binary64 of IEEE 754, as data: a finite number is
`mantissa * 2 ^ exponent` with at most 53 bits of mantissa and an exponent of at
least `-1074`.  Rounding is to nearest, a tie goes to the even mantissa.
-/

namespace ApiLoom.Number

inductive Binary64 where
  | finite (negative : Bool) (mantissa : Nat) (exponent : Int)
  | infinite (negative : Bool)
  | nan
deriving DecidableEq, Repr, Inhabited

namespace Binary64

def leastExponent : Int := -1074

def greatestExponent : Int := 971

/-- `num / den` over `2 ^ exponent`, as a fraction. -/
def scale (num den : Nat) (exponent : Int) : Nat × Nat :=
  if exponent < 0 then (num * twoTo exponent.natAbs, den) else (num, den * twoTo exponent.natAbs)

/-- `num / den` to the nearest whole number, a tie to the even one. -/
def roundHalfEven (num den : Nat) : Nat :=
  let q := num / den
  let twice := 2 * (num % den)
  if twice < den then q
  else if den < twice then q + 1
  else if q % 2 = 0 then q else q + 1

/-- The exponent at which `num / den` has 53 bits, or the least one. -/
def exponentOf (num den : Nat) : Int :=
  let guess : Int := (Nat.log2 num : Int) - (Nat.log2 den : Int) - 52
  let (n, d) := scale num den guess
  let exact := if n / d < twoTo 52 then guess - 1 else guess
  max exact leastExponent

/-- The number nearest to `num / den`. -/
def ofRatio (negative : Bool) (num den : Nat) : Binary64 :=
  if num = 0 then finite negative 0 leastExponent
  else
    let exponent := exponentOf num den
    let (n, d) := scale num den exponent
    let mantissa := roundHalfEven n d
    let (mantissa, exponent) :=
      if mantissa = twoTo 53 then (twoTo 52, exponent + 1) else (mantissa, exponent)
    if greatestExponent < exponent then infinite negative
    else finite negative mantissa exponent

/-- The number nearest to `digits * 10 ^ exponent`; `places` is the number of digits written. -/
def ofDecimal (negative : Bool) (digits places : Nat) (exponent : Int) : Binary64 :=
  if digits = 0 then finite negative 0 leastExponent
  else if 400 < exponent + places then infinite negative
  else if exponent + places < -400 then finite negative 0 leastExponent
  else if exponent < 0 then ofRatio negative digits (tenTo exponent.natAbs)
  else ofRatio negative (digits * tenTo exponent.natAbs) 1

def ofInt (i : Int) : Binary64 :=
  ofRatio (i < 0) i.natAbs 1

/-- The whole number that `x` is, if it is one. -/
def toInt? : Binary64 → Option Int
  | finite negative mantissa exponent =>
    let size : Option Nat :=
      if exponent < 0 then
        if mantissa % twoTo exponent.natAbs = 0 then some (mantissa / twoTo exponent.natAbs)
        else none
      else some (mantissa * twoTo exponent.natAbs)
    size.map fun n => if negative then -(n : Int) else (n : Int)
  | infinite _ | nan => none

def neg : Binary64 → Binary64
  | finite negative mantissa exponent => finite (!negative) mantissa exponent
  | infinite negative => infinite (!negative)
  | nan => nan

/-- The sum, rounded once; a sum of exactly zero is positive. -/
def add : Binary64 → Binary64 → Binary64
  | finite s m e, finite t n f =>
    let low := min e f
    let a : Int := (m * twoTo (e - low).natAbs : Nat)
    let b : Int := (n * twoTo (f - low).natAbs : Nat)
    let sum := (if s then -a else a) + (if t then -b else b)
    if low < 0 then ofRatio (sum < 0) sum.natAbs (twoTo low.natAbs)
    else ofRatio (sum < 0) (sum.natAbs * twoTo low.natAbs) 1
  | infinite s, infinite t => if s = t then infinite s else nan
  | infinite s, finite .. | finite .., infinite s => infinite s
  | nan, _ | _, nan => nan

/-- `x` times a positive whole number, rounded once. -/
def scaleBy (x : Binary64) (k : Nat) : Binary64 :=
  match x with
  | finite s m e =>
    if e < 0 then ofRatio s (m * k) (twoTo e.natAbs) else ofRatio s (m * k * twoTo e.natAbs) 1
  | other => other

end Binary64

end ApiLoom.Number
