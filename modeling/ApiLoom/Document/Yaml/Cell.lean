import ApiLoom.Document.ScalarFault
import ApiLoom.Text.Utf8

/-!
# Characters of a YAML document

A document is read as cells, each a character with its line and column.  The last
cell is a mark that no document contains.
-/

namespace ApiLoom.Yaml

inductive Fault where
  | malformed
  | scalar (fault : ScalarFault)
deriving DecidableEq, Repr

abbrev Result (α : Type) := Except Fault α

def malformed {α : Type} : Result α := .error .malformed

structure Cell where
  char : Char
  line : Nat
  column : Nat
  index : Nat
deriving Repr, Inhabited

/-! ### Classes of characters -/

def endMark : Char := Char.ofNat 0

def isEnd (c : Char) : Bool := c = endMark

def isBreak (c : Char) : Bool :=
  c = '\n' || c.toNat = 0x85 || c.toNat = 0x2028 || c.toNat = 0x2029

def isBreakOrEnd (c : Char) : Bool := isBreak c || isEnd c

def isGap (c : Char) : Bool := c = ' ' || c = '\t'

def isGapOrEnd (c : Char) : Bool := isGap c || isBreakOrEnd c

/-- How a line break counts in a text: the next line is an ordinary line feed. -/
def breakChar (c : Char) : Char :=
  if c.toNat = 0x85 then '\n' else c

def isByteOrderMark (c : Char) : Bool := c.toNat = 0xfeff

def isAllowed (c : Char) : Bool :=
  let n := c.toNat
  c = '\t' || c = '\n' || (0x20 ≤ n && n ≤ 0x7e) || n = 0x85 || (0xa0 ≤ n && n ≤ 0xd7ff) ||
    (0xe000 ≤ n && n ≤ 0xfffd) || 0x10000 ≤ n

/-! ### Cells -/

def cellsFrom (line column index : Nat) : List Char → List Cell
  | [] => [⟨endMark, line, column, index⟩]
  | c :: rest =>
    ⟨c, line, column, index⟩ ::
      if isBreak c then cellsFrom (line + 1) 0 (index + 1) rest
      else cellsFrom line (if isByteOrderMark c then column else column + 1) (index + 1) rest

/-- The character `n` cells ahead. -/
def peek (cells : List Cell) (n : Nat) : Char :=
  ((cells.drop n).head?.map (·.char)).getD endMark

def column (cells : List Cell) : Nat :=
  (cells.head?.map (·.column)).getD 0

def chars (cells : List Cell) : List Char :=
  cells.map (·.char)

/-- The cells up to the end of the line, and the rest. -/
def restOfLine (cells : List Cell) : List Cell × List Cell :=
  cells.span fun c => !isBreakOrEnd c.char

/-- Three equal marks alone, which separate documents at the start of a line. -/
def isSeparatorOf (mark : Char) (cells : List Cell) : Bool :=
  peek cells 0 = mark && peek cells 1 = mark && peek cells 2 = mark && isGapOrEnd (peek cells 3)

def isSeparator (cells : List Cell) : Bool :=
  isSeparatorOf '-' cells || isSeparatorOf '.' cells

/-- A document as cells; line ends are unified, and other control characters refused. -/
def cellsOf (document : String) : Result (List Cell) :=
  let cs := Text.unifyFeedsIn document.toList
  if cs.all isAllowed then
    match cs with
    | c :: rest => .ok (if isByteOrderMark c then cellsFrom 0 0 1 rest else cellsFrom 0 0 0 cs)
    | [] => .ok (cellsFrom 0 0 0 [])
  else malformed

end ApiLoom.Yaml
