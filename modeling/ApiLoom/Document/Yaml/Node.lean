import ApiLoom.Document.Yaml.Token

/-!
# Nodes of a YAML document

`Node.ofTokens` builds the tree that the tokens describe.  An alias stands for the
node of its anchor, which must be complete; a collection that lacks a key, a value
or an entry has an empty plain scalar there.
-/

namespace ApiLoom.Yaml

inductive Node where
  | scalar (tag : Option String) (plain : Bool) (text : String)
  | sequence (tag : Option String) (items : List Node)
  | mapping (tag : Option String) (entries : List (Node × Node))
deriving Repr, Inhabited

namespace Node

def empty : Node := scalar none true ""

/-- The tokens left and the nodes that have names. -/
structure Composing where
  tokens : List Token
  anchors : List (String × Node)

abbrev Composer (α : Type) := StateT Composing (Except Fault) α

def refuse {α : Type} : Composer α := fun _ => malformed

def peekToken : Composer Token := do
  pure ((← get).tokens.headD .streamEnd)

def advance : Composer Unit :=
  modify fun c => { c with tokens := c.tokens.drop 1 }

/-- What stands before a node. -/
structure Properties where
  tag : Option String
  anchor : Option String

def properties : Composer Properties := do
  match ← peekToken with
  | .anchor a => do
    advance
    match ← peekToken with
    | .tag t => do
      advance
      pure ⟨some t, some a⟩
    | _ => pure ⟨none, some a⟩
  | .tag t => do
    advance
    match ← peekToken with
    | .anchor a => do
      advance
      pure ⟨some t, some a⟩
    | _ => pure ⟨some t, none⟩
  | _ => pure ⟨none, none⟩

/-- Gives a node its name; a name is given once. -/
def register (p : Properties) (n : Node) : Composer Node := do
  match p.anchor with
  | none => pure n
  | some name =>
    if (← get).anchors.any fun a => a.1 = name then refuse
    else do
      modify fun c => { c with anchors := (name, n) :: c.anchors }
      pure n

def aliased (name : String) : Composer Node := do
  match (← get).anchors.find? fun a => a.1 = name with
  | some a => pure a.2
  | none => refuse

def missing (p : Properties) : Composer Node :=
  if p.anchor.isSome || p.tag.isSome then pure (.scalar p.tag true "") else refuse

mutual

/-- A node; `block` and `indentless` say which collections may stand here. -/
def node (block indentless : Bool) : Nat → Composer Node
  | 0 => refuse
  | fuel + 1 => do
    match ← peekToken with
    | .alias name => do
      advance
      aliased name
    | _ => do
      let p ← properties
      let n ← content block indentless p fuel
      register p n

def content (block indentless : Bool) (p : Properties) : Nat → Composer Node
  | 0 => refuse
  | fuel + 1 => do
    match ← peekToken with
    | .scalar text plain => do
      advance
      pure (.scalar p.tag plain text)
    | .flowSequence => do
      advance
      let items ← flowItems true fuel
      pure (.sequence p.tag items)
    | .flowMapping => do
      advance
      let entries ← flowEntries true fuel
      pure (.mapping p.tag entries)
    | .blockEntry => do
      if indentless then
        let items ← indentlessItems fuel
        pure (.sequence p.tag items)
      else missing p
    | .blockSequence => do
      if block then
        advance
        let items ← blockItems fuel
        pure (.sequence p.tag items)
      else missing p
    | .blockMapping => do
      if block then
        advance
        let entries ← blockEntries fuel
        pure (.mapping p.tag entries)
      else missing p
    | _ => missing p

def blockItems : Nat → Composer (List Node)
  | 0 => refuse
  | fuel + 1 => do
    match ← peekToken with
    | .blockEntry => do
      advance
      let item ← match ← peekToken with
        | .blockEntry | .blockEnd => pure empty
        | _ => node true false fuel
      let rest ← blockItems fuel
      pure (item :: rest)
    | .blockEnd => do
      advance
      pure []
    | _ => refuse

def indentlessItems : Nat → Composer (List Node)
  | 0 => refuse
  | fuel + 1 => do
    match ← peekToken with
    | .blockEntry => do
      advance
      let item ← match ← peekToken with
        | .blockEntry | .key | .value | .blockEnd => pure empty
        | _ => node true false fuel
      let rest ← indentlessItems fuel
      pure (item :: rest)
    | _ => pure []

def blockEntries : Nat → Composer (List (Node × Node))
  | 0 => refuse
  | fuel + 1 => do
    match ← peekToken with
    | .blockEnd => do
      advance
      pure []
    | .key => do
      advance
      let key ← match ← peekToken with
        | .key | .value | .blockEnd => pure empty
        | _ => node true true fuel
      let value ← blockValue fuel
      let rest ← blockEntries fuel
      pure ((key, value) :: rest)
    | _ => refuse

def blockValue : Nat → Composer Node
  | 0 => refuse
  | fuel + 1 => do
    match ← peekToken with
    | .value => do
      advance
      match ← peekToken with
      | .key | .value | .blockEnd => pure empty
      | _ => node true true fuel
    | _ => pure empty

/-- The items up to the closing bracket; all but the first follow a comma. -/
def flowItems (first : Bool) : Nat → Composer (List Node)
  | 0 => refuse
  | fuel + 1 => do
    match ← peekToken with
    | .flowSequenceEnd => do
      advance
      pure []
    | t => do
      if !first then
        if t = .flowEntry then advance else refuse
      match ← peekToken with
      | .flowSequenceEnd => do
        advance
        pure []
      | .key => do
        advance
        let key ← match ← peekToken with
          | .value | .flowEntry | .flowSequenceEnd => pure empty
          | _ => node false false fuel
        let value ← flowValue .flowSequenceEnd fuel
        let rest ← flowItems false fuel
        pure (.mapping none [(key, value)] :: rest)
      | _ => do
        let item ← node false false fuel
        let rest ← flowItems false fuel
        pure (item :: rest)

def flowValue (closing : Token) : Nat → Composer Node
  | 0 => refuse
  | fuel + 1 => do
    match ← peekToken with
    | .value => do
      advance
      let t ← peekToken
      if t = .flowEntry ∨ t = closing then pure empty else node false false fuel
    | _ => pure empty

def flowEntries (first : Bool) : Nat → Composer (List (Node × Node))
  | 0 => refuse
  | fuel + 1 => do
    match ← peekToken with
    | .flowMappingEnd => do
      advance
      pure []
    | t => do
      if !first then
        if t = .flowEntry then advance else refuse
      match ← peekToken with
      | .flowMappingEnd => do
        advance
        pure []
      | .key => do
        advance
        let key ← match ← peekToken with
          | .value | .flowEntry | .flowMappingEnd => pure empty
          | _ => node false false fuel
        let value ← flowValue .flowMappingEnd fuel
        let rest ← flowEntries false fuel
        pure ((key, value) :: rest)
      | _ => do
        let key ← node false false fuel
        let rest ← flowEntries false fuel
        pure ((key, empty) :: rest)

end

/-- Marks of the end of a document, any number of them. -/
def closeDocument (ts : List Token) : Result Unit :=
  if ts.dropWhile (· = .documentEnd) = [.streamEnd] then .ok () else malformed

/-- The one document that the tokens hold, if they hold any. -/
def ofTokens (ts : List Token) : Result (Option Node) := do
  let fuel := 4 * ts.length + 4
  let compose (rest : List Token) : Result (Option Node) := do
    let (n, state) ← (node true false fuel).run ⟨rest, []⟩
    closeDocument state.tokens
    pure (some n)
  match ts with
  | [.streamEnd] => pure none
  | .documentStart :: rest =>
    match rest.headD .streamEnd with
    | .documentStart | .documentEnd | .streamEnd => do
      closeDocument rest
      pure (some empty)
    | _ => compose rest
  | rest => compose rest

end Node

end ApiLoom.Yaml
