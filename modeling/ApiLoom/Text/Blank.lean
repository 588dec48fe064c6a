/-!
# Blank characters

`isBlank` holds of every Unicode separator and of the control characters that
separate lines, fields or records.  `isSpace` leaves out the four control
characters that separate files, groups, records and units.
-/

namespace ApiLoom.Text

/-- White space in the sense of the Unicode property of that name. -/
def isSpace (c : Char) : Bool :=
  let n := c.toNat
  (0x09 ≤ n && n ≤ 0x0d) || n == 0x20 || n == 0x85 || n == 0xa0 || n == 0x1680 ||
    (0x2000 ≤ n && n ≤ 0x200a) || n == 0x2028 || n == 0x2029 || n == 0x202f || n == 0x205f ||
    n == 0x3000

/-- White space and the information separators `0x1c` to `0x1f`. -/
def isBlank (c : Char) : Bool :=
  isSpace c || (0x1c ≤ c.toNat && c.toNat ≤ 0x1f)

/-- `cs` without the characters of `p` at either end. -/
def trim (p : Char → Bool) (cs : List Char) : List Char :=
  ((cs.dropWhile p).reverse.dropWhile p).reverse

def isBlankLine (line : String) : Bool :=
  line.toList.all isBlank

end ApiLoom.Text
