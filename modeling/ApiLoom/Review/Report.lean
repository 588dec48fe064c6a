import ApiLoom.Document.Literal

/-!
# Reports

Issues in the order in which they were found.  A report without errors is valid,
whatever warnings it has.
-/

namespace ApiLoom

inductive Level where
  | error
  | warning
deriving DecidableEq, Repr, Inhabited

namespace Level

def word : Level → String
  | error => "error"
  | warning => "warning"

def capitals : Level → String
  | error => "ERROR"
  | warning => "WARNING"

def sign : Level → String
  | error => "✗"
  | warning => "⚠"

end Level

structure Issue where
  level : Level
  code : String
  message : String
  context : List (String × Value)
deriving Repr, Inhabited

def Issue.text (i : Issue) : String :=
  s!"[{i.level.capitals}] {i.code}: {i.message}"

def Issue.lines (i : Issue) : List String :=
  s!"  {i.level.sign} [{i.code}] {i.message}" ::
    i.context.map fun c => s!"       {c.1}: {c.2.display}"

structure Report where
  issues : List Issue
deriving Repr, Inhabited

namespace Report

def empty : Report := ⟨[]⟩

def add (r : Report) (i : Issue) : Report := ⟨r.issues ++ [i]⟩

def merge (r s : Report) : Report := ⟨r.issues ++ s.issues⟩

def ofLevel (r : Report) (level : Level) : List Issue :=
  r.issues.filter fun i => i.level = level

def errors (r : Report) : List Issue := r.ofLevel .error

def warnings (r : Report) : List Issue := r.ofLevel .warning

def isValid (r : Report) : Bool := r.errors.isEmpty

def codes (r : Report) : List String := r.issues.map (·.code)

def summary (r : Report) : String :=
  s!"Validation: {r.errors.length} error(s), {r.warnings.length} warning(s)."

def label (r : Report) : String :=
  s!"<ValidationResult {r.summary}>"

def text (r : Report) : String :=
  String.intercalate "\n" (r.summary :: "" :: r.issues.flatMap Issue.lines)

/-! ### Merged reports -/

theorem ofLevel_merge (r s : Report) (level : Level) :
    (r.merge s).ofLevel level = r.ofLevel level ++ s.ofLevel level := by
  simp [merge, ofLevel]

end Report

end ApiLoom
