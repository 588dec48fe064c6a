import ApiLoom.Document.Yaml.Block
import ApiLoom.Document.Yaml.Plain
import ApiLoom.Document.Yaml.Quoted

/-!
# Tokens of a YAML document

Indentation becomes tokens that open and close collections.  What stands before a
colon is a key, but that is known only at the colon: the place of a possible key is
remembered, and its token is put in there later.
-/

namespace ApiLoom.Yaml

inductive Token where
  | documentStart
  | documentEnd
  | streamEnd
  | blockSequence
  | blockMapping
  | blockEnd
  | flowSequence
  | flowSequenceEnd
  | flowMapping
  | flowMappingEnd
  | blockEntry
  | flowEntry
  | key
  | value
  | alias (name : String)
  | anchor (name : String)
  | tag (name : String)
  | scalar (text : String) (plain : Bool)
deriving DecidableEq, Repr, Inhabited

/-- Where a key may have begun; a required one must turn out to be one. -/
structure PossibleKey where
  position : Nat
  required : Bool
  index : Nat
  line : Nat
  column : Nat
deriving Repr

/-- What was read so far, last token first.  `keys` has one place for each open bracket
and one for the block around them; `indents` are those of the open block collections. -/
structure Scan where
  cells : List Cell
  tokens : List Token
  count : Nat
  indents : List Nat
  keyAllowed : Bool
  keys : List (Option PossibleKey)

namespace Scan

def start (cells : List Cell) : Scan :=
  ⟨cells, [], 0, [], true, [none]⟩

def inFlow (s : Scan) : Bool := 1 < s.keys.length

/-- The indentation of the innermost block collection, `-1` outside of all. -/
def indent (s : Scan) : Int :=
  match s.indents with
  | [] => -1
  | n :: _ => n

def add (s : Scan) (t : Token) : Scan :=
  { s with tokens := t :: s.tokens, count := s.count + 1 }

def insert (s : Scan) (position : Nat) (t : Token) : Scan :=
  let later := s.count - position
  { s with
    tokens := s.tokens.take later ++ t :: s.tokens.drop later
    count := s.count + 1 }

def skip (s : Scan) (n : Nat) : Scan :=
  { s with cells := s.cells.drop n }

/-! ### Possible keys -/

def reach : Nat := 1024

def isStale (line index : Nat) (k : PossibleKey) : Bool :=
  k.line ≠ line || decide (reach < index - k.index)

def fresh (line index : Nat) : Option PossibleKey → Result (Option PossibleKey)
  | none => .ok none
  | some k =>
    if !isStale line index k then .ok (some k)
    else if k.required then malformed
    else .ok none

def dropStale (s : Scan) : Result Scan :=
  match s.cells with
  | [] => malformed
  | c :: _ => (s.keys.mapM (fresh c.line c.index)).map fun keys => { s with keys := keys }

def dropKey (s : Scan) : Result Scan :=
  match s.keys with
  | some k :: rest => if k.required then malformed else .ok { s with keys := none :: rest }
  | _ => .ok s

def saveKey (s : Scan) : Result Scan :=
  match s.cells with
  | [] => malformed
  | c :: _ =>
    if s.keyAllowed then do
      let s ← s.dropKey
      let required := !s.inFlow && decide (s.indent = c.column)
      pure { s with keys := some ⟨s.count, required, c.index, c.line, c.column⟩ :: s.keys.tail }
    else .ok s

/-! ### Indentation -/

def unwindFrom (limit : Int) : List Nat → Scan → Scan
  | [], s => { s with indents := [] }
  | n :: rest, s =>
    if limit < n then unwindFrom limit rest (s.add .blockEnd) else { s with indents := n :: rest }

/-- Closes the block collections that are indented further than `limit`. -/
def unwind (s : Scan) (limit : Int) : Scan :=
  if s.inFlow then s else unwindFrom limit s.indents s

/-- Opens a block collection at a column, unless it is open already. -/
def openBlock (s : Scan) (column position : Nat) (t : Token) : Scan :=
  if s.indent < column then { s.insert position t with indents := column :: s.indents } else s

/-! ### Marks -/

/-- Blanks and comments up to the next token; a line break outside brackets allows a key. -/
def skipGap (inFlow : Bool) (allowed inComment : Bool) : List Cell → Bool × List Cell
  | [] => (allowed, [])
  | c :: rest =>
    if isBreak c.char then skipGap inFlow (allowed || !inFlow) false rest
    else if isEnd c.char then (allowed, c :: rest)
    else if inComment then skipGap inFlow allowed true rest
    else if c.char = ' ' then skipGap inFlow allowed false rest
    else if c.char = '#' then skipGap inFlow allowed true rest
    else (allowed, c :: rest)

def documentMark (s : Scan) (t : Token) : Result Scan := do
  let s ← (s.unwind (-1)).dropKey
  pure (({ s with keyAllowed := false }.skip 3).add t)

def openFlow (s : Scan) (t : Token) : Result Scan := do
  let s ← s.saveKey
  pure (({ s with keyAllowed := true, keys := none :: s.keys }.skip 1).add t)

def closeFlow (s : Scan) (t : Token) : Result Scan := do
  if s.inFlow then
    let s ← s.dropKey
    pure (({ s with keyAllowed := false, keys := s.keys.tail }.skip 1).add t)
  else malformed

def flowEntry (s : Scan) : Result Scan := do
  let s ← { s with keyAllowed := true }.dropKey
  pure ((s.skip 1).add .flowEntry)

def blockEntry (s : Scan) : Result Scan := do
  let s ←
    if s.inFlow then pure s
    else if s.keyAllowed then pure (s.openBlock (column s.cells) s.count .blockSequence)
    else malformed
  let s ← { s with keyAllowed := true }.dropKey
  pure ((s.skip 1).add .blockEntry)

def keyMark (s : Scan) : Result Scan := do
  let s ←
    if s.inFlow then pure s
    else if s.keyAllowed then pure (s.openBlock (column s.cells) s.count .blockMapping)
    else malformed
  let s ← { s with keyAllowed := !s.inFlow }.dropKey
  pure ((s.skip 1).add .key)

def valueMark (s : Scan) : Result Scan := do
  match s.keys with
  | some k :: rest =>
    let s := { s with keys := none :: rest, keyAllowed := false }.insert k.position .key
    let s := if s.inFlow then s else s.openBlock k.column k.position .blockMapping
    pure ((s.skip 1).add .value)
  | _ =>
    let s ←
      if s.inFlow then pure s
      else if s.keyAllowed then pure (s.openBlock (column s.cells) s.count .blockMapping)
      else malformed
    let s ← { s with keyAllowed := !s.inFlow }.dropKey
    pure ((s.skip 1).add .value)

/-! ### Names and scalars -/

def isNameChar (c : Char) : Bool :=
  ('0' ≤ c && c ≤ '9') || ('A' ≤ c && c ≤ 'Z') || ('a' ≤ c && c ≤ 'z') || c = '-' || c = '_'

def named (s : Scan) (token : String → Token) : Result Scan := do
  let s ← s.saveKey
  let (name, rest) := (s.cells.drop 1).span fun c => isNameChar c.char
  let next := peek rest 0
  if name.isEmpty then malformed
  else if isGapOrEnd next ||
      ['?', ':', ',', ']', '\x7d', '%', '@', Char.ofNat 0x60].contains next then
    pure ({ s with cells := rest, keyAllowed := false }.add (token (String.ofList (chars name))))
  else malformed

def isTagChar (c : Char) : Bool :=
  isNameChar c || "!;/?:@&=+$,.~*'()[]%".toList.contains c

def tagged (s : Scan) : Result Scan := do
  let s ← s.saveKey
  let (name, rest) := (s.cells.drop 1).span fun c => isTagChar c.char
  if peek rest 0 = ' ' ∨ isBreakOrEnd (peek rest 0) then
    pure ({ s with cells := rest, keyAllowed := false }.add (.tag (String.ofList (chars name))))
  else malformed

def blockText (s : Scan) : Result Scan := do
  let s ← { s with keyAllowed := true }.dropKey
  let (text, rest) ← blockScalar s.indent s.cells
  pure ({ s with cells := rest }.add (.scalar (String.ofList text) false))

def quotedText (s : Scan) : Result Scan := do
  let s ← s.saveKey
  let (text, rest) ← quotedScalar s.cells
  pure ({ s with cells := rest, keyAllowed := false }.add (.scalar (String.ofList text) false))

def plainText (s : Scan) : Result Scan := do
  let s ← s.saveKey
  let (text, broken, rest) := plainScalar s.inFlow s.indent s.cells
  pure ({ s with cells := rest, keyAllowed := broken }.add (.scalar (String.ofList text) true))

/-! ### One token after the other -/

def startsPlain (inFlow : Bool) (c next : Char) : Bool :=
  !(isGapOrEnd c || "-?:,[]\x7b\x7d#&*!|>'\"%@\x60".toList.contains c) ||
    (!isGapOrEnd next && (c = '-' || (!inFlow && (c = '?' || c = ':'))))

/-- The next token, with those that its indentation closes before it. -/
def next (s : Scan) : Result Scan :=
  let c := peek s.cells 0
  let after := peek s.cells 1
  if column s.cells = 0 ∧ c = '%' then malformed
  else if column s.cells = 0 ∧ isSeparatorOf '-' s.cells then s.documentMark .documentStart
  else if column s.cells = 0 ∧ isSeparatorOf '.' s.cells then s.documentMark .documentEnd
  else if c = '[' then s.openFlow .flowSequence
  else if c = '\x7b' then s.openFlow .flowMapping
  else if c = ']' then s.closeFlow .flowSequenceEnd
  else if c = '\x7d' then s.closeFlow .flowMappingEnd
  else if c = ',' then s.flowEntry
  else if c = '-' ∧ isGapOrEnd after then s.blockEntry
  else if c = '?' ∧ (s.inFlow ∨ isGapOrEnd after) then s.keyMark
  else if c = ':' ∧ (s.inFlow ∨ isGapOrEnd after) then s.valueMark
  else if c = '*' then s.named .alias
  else if c = '&' then s.named .anchor
  else if c = '!' then s.tagged
  else if (c = '|' ∨ c = '>') ∧ !s.inFlow then s.blockText
  else if c = '\'' ∨ c = '"' then s.quotedText
  else if startsPlain s.inFlow c after then s.plainText
  else malformed

def finish (s : Scan) : Result (List Token) := do
  let s ← (s.unwind (-1)).dropKey
  pure (s.add .streamEnd).tokens.reverse

def run : Nat → Scan → Result (List Token)
  | 0, _ => malformed
  | fuel + 1, s => do
    let (allowed, cells) := skipGap s.inFlow s.keyAllowed false s.cells
    let s ← { s with cells := cells, keyAllowed := allowed }.dropStale
    let s := s.unwind (column s.cells)
    if isEnd (peek s.cells 0) then s.finish
    else do
      let s ← s.next
      run fuel s

end Scan

/-- The tokens of a document.  Every step reads at least one cell. -/
def tokens (document : String) : Result (List Token) := do
  let cells ← cellsOf document
  Scan.run (cells.length + 1) (Scan.start cells)

end ApiLoom.Yaml
