import ApiLoom.Text.Quoted

/-!
# Reading UTF-8

`decode` turns bytes into text, or names the first bytes that no text has and
says what is wrong with them.  `unifyFeeds` makes a line feed of every line end.
-/

namespace ApiLoom.Text

inductive ByteFaultKind where
  | invalidStart
  | invalidContinuation
  | unexpectedEnd
deriving DecidableEq, Repr

/-- `count` bytes from `position` on, the first of them `byte`, cannot be decoded. -/
structure ByteFault where
  position : Nat
  count : Nat
  byte : UInt8
  kind : ByteFaultKind
deriving DecidableEq, Repr

def ByteFaultKind.message : ByteFaultKind → String
  | invalidStart => "invalid start byte"
  | invalidContinuation => "invalid continuation byte"
  | unexpectedEnd => "unexpected end of data"

def ByteFault.message (f : ByteFault) : String :=
  let place :=
    if f.count = 1 then
      let byte := String.ofList
        ['0', 'x', Quoted.hexDigit (f.byte.toNat / 16), Quoted.hexDigit (f.byte.toNat % 16)]
      s!"byte {byte} in position {f.position}"
    else s!"bytes in position {f.position}-{f.position + f.count - 1}"
  s!"'utf-8' codec can't decode {place}: {f.kind.message}"

/-- How many bytes follow a first byte, and between which bounds the next of them must lie. -/
def followers (b : UInt8) : Option (Nat × Nat × Nat) :=
  let n := b.toNat
  if n < 0x80 then some (0, 0, 0)
  else if n < 0xc2 then none
  else if n < 0xe0 then some (1, 0x80, 0xbf)
  else if n = 0xe0 then some (2, 0xa0, 0xbf)
  else if n = 0xed then some (2, 0x80, 0x9f)
  else if n < 0xf0 then some (2, 0x80, 0xbf)
  else if n = 0xf0 then some (3, 0x90, 0xbf)
  else if n < 0xf4 then some (3, 0x80, 0xbf)
  else if n = 0xf4 then some (3, 0x80, 0x8f)
  else none

/-- Number of leading bytes that continue a character, up to `wanted`. -/
def continuing (wanted low high : Nat) : List UInt8 → Nat
  | [] => 0
  | b :: rest =>
    match wanted with
    | 0 => 0
    | wanted + 1 =>
      if low ≤ b.toNat ∧ b.toNat ≤ high then 1 + continuing wanted 0x80 0xbf rest else 0

/-- The first fault in the bytes, the first of which stands at `position`. -/
def firstFault (position : Nat) : List UInt8 → Option ByteFault
  | [] => none
  | b :: rest =>
    match followers b with
    | none => some ⟨position, 1, b, .invalidStart⟩
    | some (wanted, low, high) =>
      let found := continuing wanted low high rest
      if found = wanted then firstFault (position + 1 + wanted) (rest.drop wanted)
      else if rest.length = found then some ⟨position, 1 + found, b, .unexpectedEnd⟩
      else some ⟨position, 1 + found, b, .invalidContinuation⟩
termination_by bytes => bytes.length
decreasing_by simp only [List.length_drop, List.length_cons]; omega

def decode (bytes : ByteArray) : Except ByteFault String :=
  match String.fromUTF8? bytes with
  | some s => .ok s
  | none => .error ((firstFault 0 bytes.data.toList).getD ⟨0, 1, 0, .invalidStart⟩)

def unifyFeedsIn : List Char → List Char
  | [] => []
  | '\r' :: '\n' :: rest => '\n' :: unifyFeedsIn rest
  | '\r' :: rest => '\n' :: unifyFeedsIn rest
  | c :: rest => c :: unifyFeedsIn rest

/-- Every carriage return, alone or before a line feed, becomes a line feed. -/
def unifyFeeds (s : String) : String :=
  String.ofList (unifyFeedsIn s.toList)

end ApiLoom.Text
