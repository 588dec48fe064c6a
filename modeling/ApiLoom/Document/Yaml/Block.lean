import ApiLoom.Document.Yaml.Cell

/-!
# Block scalars

The lines below a mark, as far as they are indented.  A literal block keeps its
line breaks; a folded one turns a single break between two lines of text into a
blank.  The mark says what becomes of the breaks at the end.
-/

namespace ApiLoom.Yaml

/-- What becomes of the line breaks at the end of a block. -/
inductive Chomping where
  | strip
  | clip
  | keep
deriving DecidableEq, Repr

def chompingOf (c : Char) : Option Chomping :=
  if c = '+' then some .keep else if c = '-' then some .strip else none

def indentOf (c : Char) : Option Nat :=
  if '0' ≤ c ∧ c ≤ '9' then some (c.toNat - 48) else none

def blockHeader (cells : List Cell) : Result (Chomping × Option Nat × List Cell) := do
  let first := peek cells 0
  let second := peek cells 1
  let (chomping, indent, rest) :=
    match chompingOf first with
    | some chomping =>
      match indentOf second with
      | some n => (chomping, some n, cells.drop 2)
      | none => (chomping, none, cells.drop 1)
    | none =>
      match indentOf first with
      | some n =>
        match chompingOf second with
        | some chomping => (chomping, some n, cells.drop 2)
        | none => (.clip, some n, cells.drop 1)
      | none => (.clip, none, cells)
  if indent = some 0 then malformed
  else if peek rest 0 = ' ' ∨ isBreakOrEnd (peek rest 0) then pure (chomping, indent, rest)
  else malformed

/-- The rest of the header's line, which may hold a comment. -/
def headerEnd (cells : List Cell) : Result (List Cell) :=
  let rest := cells.dropWhile fun c => c.char = ' '
  let rest := if peek rest 0 = '#' then (restOfLine rest).2 else rest
  if isBreak (peek rest 0) then .ok (rest.drop 1)
  else if isEnd (peek rest 0) then .ok rest
  else malformed

/-- The blank lines from here on and the widest indentation met on the way. -/
def measureIndent (widest : Nat) : List Cell → List Char × Nat × List Cell
  | [] => ([], widest, [])
  | c :: rest =>
    if c.char = ' ' then measureIndent (max widest (c.column + 1)) rest
    else if isBreak c.char then
      let (breaks, width, tail) := measureIndent widest rest
      (breakChar c.char :: breaks, width, tail)
    else ([], widest, c :: rest)

/-- The blank lines from here on, of which up to `indent` blanks are dropped. -/
def blankLines (indent : Nat) : List Cell → List Char × List Cell
  | [] => ([], [])
  | c :: rest =>
    if c.char = ' ' ∧ c.column < indent then blankLines indent rest
    else if isBreak c.char then
      let (breaks, tail) := blankLines indent rest
      (breakChar c.char :: breaks, tail)
    else ([], c :: rest)

def isBlockLine (indent : Nat) (cells : List Cell) : Bool :=
  column cells = indent && !isEnd (peek cells 0)

/-- The text of the lines without the last break, that break, and the blank lines below. -/
def blockLines (folded : Bool) (indent : Nat) :
    Nat → List Char → List Cell → List Char × List Char × List Char × List Cell
  | 0, breaks, cells => ([], [], breaks, cells)
  | fuel + 1, breaks, cells =>
    if isBlockLine indent cells then
      let (line, rest) := restOfLine cells
      let ending := if isBreak (peek rest 0) then [breakChar (peek rest 0)] else []
      let (blanks, tail) := blankLines indent (rest.drop ending.length)
      if isBlockLine indent tail then
        let plain := folded && ending = ['\n'] && !isGap (peek cells 0) && !isGap (peek tail 0)
        let between := if !plain then ending else if blanks.isEmpty then [' '] else []
        let (more, last, left, final) := blockLines folded indent fuel blanks tail
        (breaks ++ chars line ++ between ++ more, last, left, final)
      else (breaks ++ chars line, ending, blanks, tail)
    else ([], [], breaks, cells)

/-- A block scalar at its mark, inside a collection indented by `parent`. -/
def blockScalar (parent : Int) (cells : List Cell) : Result (List Char × List Cell) := do
  let folded := peek cells 0 = '>'
  let (chomping, given, rest) ← blockHeader (cells.drop 1)
  let body ← headerEnd rest
  let least := (max 1 (parent + 1)).toNat
  let (indent, breaks, start) := match given with
    | some n =>
      let (breaks, start) := blankLines (least + n - 1) body
      (least + n - 1, breaks, start)
    | none =>
      let (breaks, width, start) := measureIndent 0 body
      (max least width, breaks, start)
  let (text, last, blanks, tail) := blockLines folded indent cells.length breaks start
  let ending := match chomping with
    | .strip => []
    | .clip => last
    | .keep => last ++ blanks
  pure (text ++ ending, tail)

end ApiLoom.Yaml
