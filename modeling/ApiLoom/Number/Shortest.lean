import ApiLoom.Number.Binary64

/-!
# Shortest decimal text

`digits` finds the shortest decimal that reads back as a given binary64 number,
and of those the nearest.  `Binary64.text` writes it: positional from `1e-4` up
to `1e16`, with a point in every case, and with an exponent of at least two
digits elsewhere.
-/

namespace ApiLoom.Number

/-- The fractions between which everything reads back as `mantissa * 2 ^ exponent`,
over a common denominator; the ends belong to it when `closed` holds. -/
structure Neighbourhood where
  low : Nat
  value : Nat
  high : Nat
  denominator : Nat
  closed : Bool

/-- Below a power of two the next number is only half as far away. -/
def Neighbourhood.of (mantissa : Nat) (exponent : Int) : Neighbourhood :=
  let below := if mantissa = twoTo 52 ∧ Binary64.leastExponent < exponent then 1 else 2
  let (num, den) := if exponent < 0 then (1, twoTo exponent.natAbs) else (twoTo exponent.natAbs, 1)
  { low := (4 * mantissa - below) * num
    value := 4 * mantissa * num
    high := (4 * mantissa + 2) * num
    denominator := 4 * den
    closed := mantissa % 2 == 0 }

/-- Whether `n * up / down` lies in the neighbourhood. -/
def Neighbourhood.holds (r : Neighbourhood) (n up down : Nat) : Bool :=
  let here := n * up * r.denominator
  if r.closed then r.low * down ≤ here && here ≤ r.high * down
  else r.low * down < here && here < r.high * down

/-- The point of the grid `10 ^ place` that is nearest to the value, among those that read back. -/
def Neighbourhood.onGrid (r : Neighbourhood) (place : Int) : Option Nat :=
  let up := if place < 0 then 1 else tenTo place.natAbs
  let down := if place < 0 then tenTo place.natAbs else 1
  let num := r.value * down
  let den := up * r.denominator
  let floor := num / den
  let nearer := Binary64.roundHalfEven num den
  let other := if nearer = floor then floor + 1 else floor
  if r.holds nearer up down then some nearer
  else if r.holds other up down then some other
  else none

/-- The number of digits before the point of `value / denominator`, zero or less for a fraction. -/
def Neighbourhood.magnitude (r : Neighbourhood) : Int :=
  let digitsOf (n : Nat) : Int := (Nat.toDigits 10 n).length
  if r.denominator ≤ r.value then digitsOf (r.value / r.denominator)
  else
    let inverse := digitsOf (r.denominator / r.value)
    let exact := r.value * tenTo inverse.natAbs
    if r.denominator ≤ exact then 1 - inverse
    else -inverse

/-- The first of the grids of `count` digits, `count + 1` digits and so on that has a point. -/
def Neighbourhood.search (r : Neighbourhood) (magnitude : Int) (count : Nat) : Nat → Nat × Int
  | 0 => (r.value / r.denominator, 0)
  | fuel + 1 =>
    match r.onGrid (magnitude - count) with
    | some n => (n, magnitude - count)
    | none => r.search magnitude (count + 1) fuel

/-- Digits and place of the last of them; seventeen digits always suffice. -/
def digits (mantissa : Nat) (exponent : Int) : Nat × Int :=
  let r := Neighbourhood.of mantissa exponent
  r.search r.magnitude 1 17

def dropZeros : List Char → List Char
  | [] => []
  | c :: rest =>
    match dropZeros rest with
    | [] => if c = '0' then [] else [c]
    | kept => c :: kept

/-- Writes the digits with the point after the first `point` of them. -/
def writeDigits (ds : List Char) (point : Int) : List Char :=
  if point ≤ 0 ∧ -4 < point then '0' :: '.' :: List.replicate point.natAbs '0' ++ ds
  else if 0 < point ∧ point ≤ 16 then
    let n := point.natAbs
    if ds.length ≤ n then ds ++ List.replicate (n - ds.length) '0' ++ ['.', '0']
    else ds.take n ++ '.' :: ds.drop n
  else
    let exponent := point - 1
    let size := Nat.toDigits 10 exponent.natAbs
    let padded := if size.length < 2 then '0' :: size else size
    let head := match ds with
      | [] => []
      | [d] => [d]
      | d :: more => d :: '.' :: more
    head ++ 'e' :: (if exponent < 0 then '-' else '+') :: padded

/-- The text of a number; what is not finite is `inf` or `nan`. -/
def Binary64.text : Binary64 → String
  | nan => "nan"
  | infinite negative => if negative then "-inf" else "inf"
  | finite negative mantissa exponent =>
    let body :=
      if mantissa = 0 then ['0', '.', '0']
      else
        let (n, place) := digits mantissa exponent
        let all := Nat.toDigits 10 n
        writeDigits (dropZeros all) (all.length + place)
    String.ofList (if negative then '-' :: body else body)

end ApiLoom.Number
