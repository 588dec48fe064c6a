import ApiLoom.Document.Yaml.Cell

/-!
# Quoted scalars

Between apostrophes a doubled apostrophe is the only escape; between double quotes
a backslash begins one.  A single line break inside counts as a blank, of several
the first is dropped, and blanks around line breaks do not count.
-/

namespace ApiLoom.Yaml

/-- The character after a backslash, for the escapes of two characters. -/
def shortUnescape (c : Char) : Option Char :=
  if c = '0' then some (Char.ofNat 0)
  else if c = 'a' then some (Char.ofNat 7)
  else if c = 'b' then some (Char.ofNat 8)
  else if c = 't' ∨ c = '\t' then some '\t'
  else if c = 'n' then some '\n'
  else if c = 'v' then some (Char.ofNat 11)
  else if c = 'f' then some (Char.ofNat 12)
  else if c = 'r' then some '\r'
  else if c = 'e' then some (Char.ofNat 27)
  else if c = ' ' ∨ c = '"' ∨ c = '\\' ∨ c = '/' then some c
  else if c = 'N' then some (Char.ofNat 0x85)
  else if c = '_' then some (Char.ofNat 0xa0)
  else if c = 'L' then some (Char.ofNat 0x2028)
  else if c = 'P' then some (Char.ofNat 0x2029)
  else none

def escapeDigits (c : Char) : Option Nat :=
  if c = 'x' then some 2
  else if c = 'u' then some 4
  else if c = 'U' then some 8
  else none

def hexNumber (value : Nat) : List Char → Option Nat
  | [] => some value
  | c :: rest => (Json.hexValue c).bind fun d => hexNumber (value * 16 + d) rest

def codePoint (digits : List Char) : Result Char :=
  match hexNumber 0 digits with
  | none => malformed
  | some n =>
    if 0x10ffff < n then .error (.scalar .character)
    else if n < 0x10000 then .ok (Json.unitChar n)
    else .ok (Char.ofNat n)

/-- The line breaks from here on, blanks around them left out. -/
def foldBreaks (atStart : Bool) : List Cell → Result (List Char × List Cell)
  | [] => malformed
  | c :: rest =>
    if atStart && isSeparator (c :: rest) then malformed
    else if isGap c.char then foldBreaks false rest
    else if isBreak c.char then
      (foldBreaks true rest).map fun r => (breakChar c.char :: r.1, r.2)
    else .ok ([], c :: rest)

/-- What a line break and those after it count for. -/
def joint (first : Char) (more : List Char) : List Char :=
  if breakChar first ≠ '\n' then breakChar first :: more
  else if more.isEmpty then [' ']
  else more

def quoted (double : Bool) : Nat → List Cell → Result (List Char × List Cell)
  | 0, _ => malformed
  | fuel + 1, cells =>
    let after (text : List Char) (rest : List Cell) : Result (List Char × List Cell) :=
      (quoted double fuel rest).map fun r => (text ++ r.1, r.2)
    match cells with
    | [] => malformed
    | c :: rest =>
      if isEnd c.char then malformed
      else if isGap c.char then
        let (gap, tail) := cells.span fun d => isGap d.char
        if isBreak (peek tail 0) then quoted double fuel tail else after (chars gap) tail
      else if isBreak c.char then do
        let (more, tail) ← foldBreaks true rest
        after (joint c.char more) tail
      else if double then
        if c.char = '"' then .ok ([], rest)
        else if c.char = '\\' then
          let e := peek rest 0
          if isBreak e then do
            let (more, tail) ← foldBreaks true (rest.drop 1)
            after more tail
          else
            match shortUnescape e, escapeDigits e with
            | some d, _ => after [d] (rest.drop 1)
            | none, some count => do
              let d ← codePoint (chars ((rest.drop 1).take count))
              after [d] (rest.drop (count + 1))
            | none, none => malformed
        else after [c.char] rest
      else if c.char = '\'' then
        if peek rest 0 = '\'' then after ['\''] (rest.drop 1) else .ok ([], rest)
      else after [c.char] rest

def quotedScalar (cells : List Cell) : Result (List Char × List Cell) :=
  quoted (peek cells 0 = '"') cells.length (cells.drop 1)

end ApiLoom.Yaml
