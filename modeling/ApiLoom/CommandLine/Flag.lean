/-!
# Flags

The flags of the command line.  Each has a long spelling, some have a short one,
and some take a value.
-/

namespace ApiLoom

inductive Flag where
  | help
  | version
  | models
  | output
  | config
  | validateOnly
  | stage
  | pageSize
  | debugTemplates
  | strict
  | failOnWarnings
  | clean
  | verbose
  | quiet
deriving DecidableEq, Repr, Inhabited

namespace Flag

def all : List Flag :=
  [help, version, models, output, config, validateOnly, stage, pageSize, debugTemplates, strict,
    failOnWarnings, clean, verbose, quiet]

def short? : Flag → Option String
  | help => some "-h"
  | models => some "-m"
  | output => some "-o"
  | config => some "-c"
  | verbose => some "-v"
  | quiet => some "-q"
  | _ => none

def long : Flag → String
  | help => "--help"
  | version => "--version"
  | models => "--models"
  | output => "--output"
  | config => "--config"
  | validateOnly => "--validate-only"
  | stage => "--stage"
  | pageSize => "--page-size"
  | debugTemplates => "--debug-templates"
  | strict => "--strict"
  | failOnWarnings => "--fail-on-warnings"
  | clean => "--clean"
  | verbose => "--verbose"
  | quiet => "--quiet"

def takesValue : Flag → Bool
  | models | output | config | stage | pageSize => true
  | _ => false

def required : Flag → Bool
  | models => true
  | _ => false

def spellings (f : Flag) : List String := f.short?.toList ++ [f.long]

def title (f : Flag) : String := String.intercalate "/" f.spellings

def table : List (String × Flag) :=
  all.flatMap fun f => f.spellings.map fun spelling => (spelling, f)

def ofSpelling? (spelling : String) : Option Flag :=
  (table.find? fun entry => entry.1 = spelling).map (·.2)

/-- The flag whose short spelling is a dash and `c`. -/
def ofLetter? (c : Char) : Option Flag :=
  ofSpelling? (String.ofList ['-', c])

end Flag

end ApiLoom
