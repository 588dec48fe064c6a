import ApiLoom.CommandLine.Word

/-!
# Arguments

The flags are taken in their order.  A value stands in the word of its flag or is
the plain word after it.  Short flags may share one word, of which only the last
can have a value.
-/

namespace ApiLoom

structure Arguments where
  models : Option String
  output : Option String
  config : Option String
  validateOnly : Bool
  stage : Option String
  pageSize : Option Int
  debugTemplates : Bool
  strict : Bool
  failOnWarnings : Bool
  clean : Bool
  verbosity : Nat
  quiet : Bool
  unused : List String
deriving DecidableEq, Repr, Inhabited

/-- Why the words do not lead to a run. -/
inductive ArgumentStop where
  | help
  | version
  | fault (fault : UsageFault)
deriving DecidableEq, Repr

namespace Arguments

def none : Arguments :=
  ⟨.none, .none, .none, false, .none, .none, false, false, false, false, 0, false, []⟩

def raise (a : Arguments) : Flag → Except ArgumentStop Arguments
  | .help => .error .help
  | .version => .error .version
  | .validateOnly => .ok { a with validateOnly := true }
  | .debugTemplates => .ok { a with debugTemplates := true }
  | .strict => .ok { a with strict := true }
  | .failOnWarnings => .ok { a with failOnWarnings := true }
  | .clean => .ok { a with clean := true }
  | .verbose => .ok { a with verbosity := a.verbosity + 1 }
  | .quiet => .ok { a with quiet := true }
  | .models | .output | .config | .stage | .pageSize => .ok a

/-- Takes a flag with its value, which replaces an earlier one. -/
def give (a : Arguments) (flag : Flag) (value : String) : Except ArgumentStop Arguments :=
  match flag with
  | .models => .ok { a with models := some value }
  | .output => .ok { a with output := some value }
  | .config => .ok { a with config := some value }
  | .stage => .ok { a with stage := some value }
  | .pageSize =>
    match Text.wholeNumber? value with
    | some n => .ok { a with pageSize := some n }
    | .none => .error (.fault (.notNumber flag value))
  | other => a.raise other

def raiseAll (a : Arguments) : List Flag → Except ArgumentStop Arguments
  | [] => .ok a
  | flag :: rest => do
    let next ← a.raise flag
    next.raiseAll rest

/-! ### Words with flags -/

/-- What the flags of one word end with: a flag that may have a value, or letters that
are not flags. -/
inductive ChainEnd where
  | flag (flag : Flag) (value : Option String)
  | loose (text : String)
deriving DecidableEq, Repr

structure Chain where
  before : List Flag
  ending : ChainEnd
deriving DecidableEq, Repr

def chainValue (flag : Flag) (value : String) : Except UsageFault Chain :=
  if flag.takesValue then .ok ⟨[], .flag flag (some value)⟩
  else .error (.unusedValue flag value)

/-- Letters behind a short flag are its value or more short flags. -/
def chainLetters (flag : Flag) : List Char → Except UsageFault Chain
  | [] => .ok ⟨[], .flag flag .none⟩
  | '=' :: value => chainValue flag (String.ofList value)
  | c :: rest =>
    let text := String.ofList (c :: rest)
    if flag.takesValue then .ok ⟨[], .flag flag (some text)⟩
    else if c = '-' then .error (.unusedValue flag text)
    else
      match Flag.ofLetter? c with
      | some next =>
        (chainLetters next rest).map fun chain => { chain with before := flag :: chain.before }
      | .none => .ok ⟨[flag], .loose ("-" ++ text)⟩

def chain (flag : Flag) : Attachment → Except UsageFault Chain
  | .nothing => .ok ⟨[], .flag flag .none⟩
  | .value text => chainValue flag text
  | .letters text => chainLetters flag text

/-! ### All words -/

def leave (a : Arguments) (word : String) : Arguments :=
  { a with unused := a.unused ++ [word] }

def take (a : Arguments) : List Word → Except ArgumentStop Arguments
  | [] => .ok a
  | .plain text :: rest | .stray text :: rest => take (a.leave text) rest
  | .flag flag _ attachment :: rest =>
    match chain flag attachment with
    | .error fault => .error (.fault fault)
    | .ok ⟨before, .loose text⟩ => do
      let raised ← a.raiseAll before
      take (raised.leave text) rest
    | .ok ⟨before, .flag last (some value)⟩ => do
      let raised ← a.raiseAll before
      let given ← raised.give last value
      take given rest
    | .ok ⟨before, .flag last .none⟩ =>
      if last.takesValue then
        match rest with
        | .plain value :: rest => do
          let raised ← a.raiseAll before
          let given ← raised.give last value
          take given rest
        | _ => .error (.fault (.noValue last))
      else do
        let raised ← a.raiseAll (before ++ [last])
        take raised rest

/-- Refuses arguments that lack a required flag or have words that nothing took. -/
def check (a : Arguments) : Except ArgumentStop Arguments :=
  if a.models.isNone then .error (.fault (.missing (Flag.all.filter Flag.required)))
  else if !a.unused.isEmpty then .error (.fault (.unrecognized a.unused))
  else .ok a

def read (words : List String) : Except ArgumentStop Arguments :=
  match Word.readAll words with
  | .error fault => .error (.fault fault)
  | .ok words => do
    let taken ← none.take words
    taken.check

end Arguments

end ApiLoom
