import ApiLoom.Document.Yaml.Cell

/-!
# Plain scalars

A scalar without quotes ends at a mark that has a meaning of its own: a colon
before a gap, a comment, inside brackets also a comma or a bracket.  It goes on over
line breaks as long as the lines are indented.
-/

namespace ApiLoom.Yaml

/-- Whether a plain scalar ends before `c`, which `next` follows. -/
def endsPlain (inFlow : Bool) (c next : Char) : Bool :=
  isGapOrEnd c ||
    (c = ':' && (isGapOrEnd next || (inFlow && [',', '[', ']', '\x7b', '\x7d'].contains next))) ||
    (inFlow && [',', '?', '[', ']', '\x7b', '\x7d'].contains c)

def plainRun (inFlow : Bool) : List Cell → List Char × List Cell
  | [] => ([], [])
  | c :: rest =>
    if endsPlain inFlow c.char (peek rest 0) then ([], c :: rest)
    else
      let (more, tail) := plainRun inFlow rest
      (c.char :: more, tail)

/-- The line breaks from here on; none if documents are separated there. -/
def plainBreaks : List Cell → Option (List Char) × List Cell
  | [] => (some [], [])
  | c :: rest =>
    if c.char = ' ' then plainBreaks rest
    else if isBreak c.char then
      if isSeparator rest then (none, rest)
      else
        let (more, tail) := plainBreaks rest
        (more.map (breakChar c.char :: ·), tail)
    else (some [], c :: rest)

/-- What stands between two runs: its text, whether a line ended, and the rest. -/
structure PlainGap where
  text : List Char
  broken : Bool
  rest : List Cell

def plainGap (cells : List Cell) : PlainGap :=
  let (blanks, rest) := cells.span fun c => c.char = ' '
  let first := peek rest 0
  if isBreak first then
    if isSeparator (rest.drop 1) then ⟨[], true, rest.drop 1⟩
    else
      match plainBreaks (rest.drop 1) with
      | (none, tail) => ⟨[], true, tail⟩
      | (some more, tail) =>
        let text :=
          if breakChar first ≠ '\n' then breakChar first :: more
          else if more.isEmpty then [' ']
          else more
        ⟨text, true, tail⟩
  else ⟨chars blanks, false, rest⟩

/-- The text of a scalar, whether a line ended after it, and the rest; `gap` goes before
the next run. -/
def plainFrom (inFlow : Bool) (indent : Int) :
    Nat → List Char → Bool → List Cell → List Char × Bool × List Cell
  | 0, _, broken, cells => ([], broken, cells)
  | fuel + 1, gap, broken, cells =>
    match plainRun inFlow cells with
    | ([], _) => ([], broken, cells)
    | (run, rest) =>
      let next := plainGap rest
      if next.text.isEmpty || peek next.rest 0 = '#' ||
          (!inFlow && decide ((column next.rest : Int) < indent)) then
        (gap ++ run, next.broken, next.rest)
      else
        let (more, after, tail) := plainFrom inFlow indent fuel next.text next.broken next.rest
        (gap ++ run ++ more, after, tail)

/-- A plain scalar inside a collection indented by `parent`. -/
def plainScalar (inFlow : Bool) (parent : Int) (cells : List Cell) :
    List Char × Bool × List Cell :=
  plainFrom inFlow (parent + 1) cells.length [] false cells

end ApiLoom.Yaml
