import ApiLoom.CommandLine.Flag
import ApiLoom.Document.Literal
import ApiLoom.Text.Digit

/-!
# Words of the command line

Each word is first read by itself.  A word that starts with a dash is a flag if it
spells one, if it spells one up to an equals sign, if it is the beginning of one
long spelling only, or if it is a short spelling with more letters behind it.
Negative numbers and words with a blank in them are plain words all the same.
-/

namespace ApiLoom

inductive UsageFault where
  | ambiguous (word : String) (spellings : List String)
  | noValue (flag : Flag)
  | unusedValue (flag : Flag) (value : String)
  | notNumber (flag : Flag) (value : String)
  | missing (flags : List Flag)
  | unrecognized (words : List String)
deriving DecidableEq, Repr

def UsageFault.message : UsageFault → String
  | ambiguous word spellings =>
    s!"ambiguous option: {word} could match " ++ String.intercalate ", " spellings
  | noValue flag => s!"argument {flag.title}: expected one argument"
  | unusedValue flag value =>
    s!"argument {flag.title}: ignored explicit argument {Text.literal value}"
  | notNumber flag value => s!"argument {flag.title}: invalid int value: {Text.literal value}"
  | missing flags =>
    "the following arguments are required: " ++ String.intercalate ", " (flags.map Flag.title)
  | unrecognized words => "unrecognized arguments: " ++ String.intercalate " " words

/-- What stands in a word behind its flag. -/
inductive Attachment where
  | nothing
  | value (text : String)
  | letters (text : List Char)
deriving DecidableEq, Repr

/-- A stray word is neither a flag nor the value of one. -/
inductive Word where
  | plain (text : String)
  | flag (flag : Flag) (spelling : String) (attachment : Attachment)
  | stray (text : String)
deriving DecidableEq, Repr

namespace Word

/-- The parts of a word before and after its first equals sign. -/
def splitValue (word : String) : String × Attachment :=
  let cs := word.toList
  let name := cs.takeWhile (· ≠ '=')
  match cs.drop name.length with
  | [] => (word, .nothing)
  | _ :: value => (String.ofList name, .value (String.ofList value))

/-- A dash and digits, perhaps with a point; a line feed may end it. -/
def isNegativeNumber (cs : List Char) : Bool :=
  match cs with
  | '-' :: rest =>
    let body := if rest.getLast? = some '\n' then rest.dropLast else rest
    let whole := body.takeWhile Text.isDecimal
    match body.drop whole.length with
    | [] => !whole.isEmpty
    | '.' :: fraction => !fraction.isEmpty && fraction.all Text.isDecimal
    | _ => false
  | _ => false

/-- The flags that a word without a flag's full spelling may mean. -/
def candidates (word : String) : List Word :=
  match word.toList with
  | '-' :: '-' :: _ =>
    let (name, attachment) := splitValue word
    (Flag.table.filter fun entry => entry.1.startsWith name).map fun entry =>
      flag entry.2 entry.1 attachment
  | '-' :: c :: rest =>
    (Flag.ofLetter? c).toList.map fun f => flag f (String.ofList ['-', c]) (.letters rest)
  | _ => []

/-- A word that starts with a dash and goes on after it. -/
def readDashed (word : String) : Except UsageFault Word :=
  let (name, attachment) := splitValue word
  match Flag.ofSpelling? word, Flag.ofSpelling? name with
  | some f, _ => .ok (flag f word .nothing)
  | none, some f => .ok (flag f name attachment)
  | none, none =>
    match candidates word with
    | [one] => .ok one
    | [] =>
      if isNegativeNumber word.toList ∨ word.toList.contains ' ' then .ok (plain word)
      else .ok (stray word)
    | many => .error (.ambiguous word (many.filterMap fun w =>
        match w with
        | flag _ spelling _ => some spelling
        | _ => none))

def read (word : String) : Except UsageFault Word :=
  match word.toList with
  | '-' :: _ :: _ => readDashed word
  | _ => .ok (plain word)

def separator : String := "--"

def readAll : List String → Except UsageFault (List Word)
  | [] => .ok []
  | word :: rest =>
    if word = separator then .ok (stray word :: rest.map plain)
    else do
      let first ← read word
      let more ← readAll rest
      pure (first :: more)

end Word

end ApiLoom
