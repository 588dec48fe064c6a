/-!
# Quoted text

A text between double quotes, safe inside JSON and inside template strings.
`encode` writes printable ASCII as it is and everything else as an escape;
`encodeWide` escapes only what a JSON string must escape.
-/

namespace ApiLoom.Text.Quoted

/-- The digit of `n`, for `n < 16`. -/
def hexDigit (n : Nat) : Char :=
  if n < 10 then Char.ofNat (48 + n) else Char.ofNat (87 + n)

/-- `\uXXXX` for one unit of sixteen bits. -/
def unitEscape (n : Nat) : List Char :=
  ['\\', 'u', hexDigit (n / 4096 % 16), hexDigit (n / 256 % 16), hexDigit (n / 16 % 16),
    hexDigit (n % 16)]

/-- The escapes of two characters, for the characters that have one. -/
def shortEscape (c : Char) : Option Char :=
  if c = '"' then some '"'
  else if c = '\\' then some '\\'
  else if c = '\n' then some 'n'
  else if c = '\r' then some 'r'
  else if c = '\t' then some 't'
  else if c.toNat = 8 then some 'b'
  else if c.toNat = 12 then some 'f'
  else none

/-- A code point above `0xFFFF` is written as a surrogate pair. -/
def encodeChar (c : Char) : List Char :=
  match shortEscape c with
  | some e => ['\\', e]
  | none =>
    let n := c.toNat
    if 0x20 ≤ n ∧ n ≤ 0x7e then [c]
    else if n < 0x10000 then unitEscape n
    else unitEscape (0xd800 + (n - 0x10000) / 1024) ++ unitEscape (0xdc00 + (n - 0x10000) % 1024)

def encodeWideChar (c : Char) : List Char :=
  match shortEscape c with
  | some e => ['\\', e]
  | none => if c.toNat < 0x20 then unitEscape c.toNat else [c]

def encode (cs : List Char) : List Char :=
  '"' :: cs.flatMap encodeChar ++ ['"']

def encodeWide (cs : List Char) : List Char :=
  '"' :: cs.flatMap encodeWideChar ++ ['"']

end Quoted

/-- `s` as an ASCII literal between double quotes. -/
def quote (s : String) : String :=
  String.ofList (Quoted.encode s.toList)

/-- `s` between double quotes, with its letters kept. -/
def quoteWide (s : String) : String :=
  String.ofList (Quoted.encodeWide s.toList)

end ApiLoom.Text
