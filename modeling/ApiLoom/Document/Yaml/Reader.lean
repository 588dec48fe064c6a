import ApiLoom.Document.Yaml.Node
import ApiLoom.Document.Yaml.Tagged

/-!
# Reading YAML

`read` is a reader for the core of YAML: one document without directives, and of tags
only those of the kinds of `Value`.  Of several faults among the nodes the one that lies
least deep is reported, and of those the first.
-/

namespace ApiLoom.Yaml

/-! ### Merging -/

namespace Node

def isMerge : Node → Bool
  | scalar none true text => formOf text = .merge
  | _ => false

def entries? : Node → Option (List (Node × Node))
  | mapping _ entries => some entries
  | _ => none

/-- The entries that a merging key brings in: those of a mapping, or of a list of
mappings, of which the last goes first. -/
def merging : Node → Result (List (Node × Node))
  | mapping _ entries => .ok entries
  | sequence _ items =>
    match items.mapM entries? with
    | some all => .ok all.reverse.flatten
    | none => malformed
  | _ => malformed

mutual

/-- The same tree with all merges carried out; merged entries go before the others. -/
def merged : Node → Result Node
  | scalar tag plain text => .ok (scalar tag plain text)
  | sequence tag items => (mergedItems items).map (sequence tag)
  | mapping tag entries => do
    let (brought, own) ← mergedEntries entries
    pure (mapping tag (brought ++ own))

def mergedItems : List Node → Result (List Node)
  | [] => .ok []
  | n :: rest => do
    let n ← n.merged
    pure (n :: (← mergedItems rest))

def mergedEntries : List (Node × Node) → Result (List (Node × Node) × List (Node × Node))
  | [] => .ok ([], [])
  | (k, v) :: rest => do
    let key ← k.merged
    let value ← v.merged
    let (brought, own) ← mergedEntries rest
    if key.isMerge then pure ((← merging value) ++ brought, own)
    else pure (brought, (key, value) :: own)

end

end Node

/-! ### Values -/

/-- A value, or a fault and how deep it lies. -/
abbrev Built (α : Type) := Except (Nat × Fault) α

/-- Both values; of two faults the less deep one, and the first if they lie equally deep. -/
def Built.both {α β : Type} (a : Built α) (b : Built β) : Built (α × β) :=
  match a, b with
  | .ok x, .ok y => .ok (x, y)
  | .error e, .ok _ => .error e
  | .ok _, .error e => .error e
  | .error e, .error f => .error (if f.1 < e.1 then f else e)

/-- The tag that stands for no tag at all, though it makes quoted scalars plain. -/
def openTag : String := ""

def formValue : Form → Result Scalar
  | .scalar s => .ok s
  | .broken fault => .error (.scalar fault)
  | .merge | .equals => malformed

/-- What a scalar holds, of the kind that its tag asks for. -/
def scalarValue (tag : Option String) (plain : Bool) (text : String) : Result Scalar :=
  match tag with
  | none => if plain then formValue (formOf text) else .ok (.text text)
  | some t =>
    if t = openTag then formValue (formOf text)
    else if t = "!str" then .ok (.text text)
    else if t = "!null" then .ok .null
    else if t = "!bool" then ((taggedTruth text).map Scalar.bool).mapError .scalar
    else if t = "!int" then ((taggedWhole text).map Scalar.int).mapError .scalar
    else if t = "!float" then ((taggedFloat text).map Scalar.float).mapError .scalar
    else if t = "!timestamp" then (taggedDate text).mapError .scalar
    else malformed

def isCollectionTag (word : String) (tag : Option String) : Bool :=
  tag = none || tag = some openTag || tag = some word

/-- A key must be a scalar; the equals sign is a text here. -/
def keyOf (depth : Nat) : Node → Built Scalar
  | .scalar tag plain text =>
    if tag.isNone && plain && formOf text = .equals then .ok (.text text)
    else (scalarValue tag plain text).mapError fun f => (depth, f)
  | _ => .error (depth, .malformed)

mutual

def build (depth : Nat) : Node → Built Value
  | .scalar tag plain text =>
    match scalarValue tag plain text with
    | .ok s => .ok (.scalar s)
    | .error f => .error (depth, f)
  | .sequence tag items =>
    if isCollectionTag "!seq" tag then (buildItems (depth + 1) items).map .list
    else .error (depth, .malformed)
  | .mapping tag entries =>
    if isCollectionTag "!map" tag then
      (buildEntries (depth + 1) entries).map fun es =>
        .map (es.foldl (fun all e => Entries.put all e.1 e.2) [])
    else .error (depth, .malformed)

def buildItems (depth : Nat) : List Node → Built (List Value)
  | [] => .ok []
  | n :: rest => ((build depth n).both (buildItems depth rest)).map fun r => r.1 :: r.2

def buildEntries (depth : Nat) : List (Node × Node) → Built (List (Scalar × Value))
  | [] => .ok []
  | (k, v) :: rest =>
    (((keyOf depth k).both (build depth v)).both (buildEntries depth rest)).map
      fun r => r.1 :: r.2

end

/-- The value of the one document; an empty text holds null. -/
def read (document : String) : Result Value := do
  match ← Node.ofTokens (← tokens document) with
  | none => pure .null
  | some n =>
    let n ← n.merged
    (build 0 n).mapError (·.2)

end ApiLoom.Yaml
