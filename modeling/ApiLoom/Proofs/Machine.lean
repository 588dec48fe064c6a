import ApiLoom.Proofs.References
import ApiLoom.Proofs.Values
import ApiLoom.Template.Request
import ApiLoom.Template.Response

/-!
# Running scripts

What a script does: which variables and stash entries it sets, what it hands out,
and where it ends.  Functions whose results no decision rests on are a parameter.
-/

namespace ApiLoom.Template

/-! ### What a script works on -/

/-- What a template finds in its context and cannot change. -/
structure Context where
  identity : Value
  headers : Value
  source : Value
  result : Value
  previous : Value
  error : Value
deriving Repr, Inhabited

/-- The functions of the template language that are not given below, the expressions that are
written out in it, and the text of a value within a text. -/
structure Library where
  call : String → String → List Value → Value
  written : String → Value
  print : Value → String

structure State where
  locals : Entries
  stash : Entries
  args : Value
  output : Value
  filter : Option String
deriving Repr, Inhabited

namespace State

def bind (s : State) (name : String) (v : Value) : State :=
  { s with locals := s.locals.put (.text name) v }

def flag (s : State) (key : String) (v : Value) : State :=
  { s with stash := s.stash.put (.text key) v }

def handOut (s : State) (v : Value) : State := { s with output := v }

/-- The stash entry counts as set. -/
def flagged (s : State) (key : String) : Bool := ((s.stash.get? key).getD .null).isTrue

def local? (s : State) (name : String) : Value := (s.locals.get? name).getD .null

end State

structure World where
  library : Library
  context : Context

namespace World

def contextValue (w : World) (s : State) : Value := .object [
  ("args", s.args), ("stash", .map s.stash), ("identity", w.context.identity),
  ("source", w.context.source), ("result", w.context.result), ("error", w.context.error),
  ("prev", .object [("result", w.context.previous)]),
  ("request", .object [("headers", w.context.headers)])]

def lookup (w : World) (s : State) (name : String) : Value :=
  if name = "ctx" then w.contextValue s else s.local? name

def follow (w : World) (s : State) : List String → Value
  | [] => .null
  | name :: rest => rest.foldl Value.field (w.lookup s name)

/-- A text within another; a reference to nothing stays as it is written. -/
def printed (w : World) : Value → String
  | .scalar (.text s) => s
  | v => w.library.print v

def reference (w : World) (s : State) (name : List Char) : List Char :=
  match w.follow s (Text.path name) with
  | .scalar .null => '$' :: name
  | v => (w.printed v).toList

def expand (w : World) (s : State) (text : String) : String :=
  String.ofList (Text.expand (w.reference s) none text.toList)

/-- A path is followed; an expression that calls something is left to the library. -/
def read (w : World) (s : State) (text : String) : Value :=
  match text.toList with
  | '$' :: rest =>
    if rest.contains '(' then w.library.written text else w.follow s (Text.path rest)
  | _ => w.library.written text

end World

/-! ### Terms -/

/-- The functions of `$util`; JSON text is taken for the value that it stands for. -/
def Library.apply (library : Library) (part function : String) (arguments : List Value) : Value :=
  match part, function, arguments with
  | "", "defaultIfNull", [v, default] => if v = .null then default else v
  | "", "defaultIfNullOrBlank", [v, default] =>
    if v = .null ∨ v = .text "" then default else v
  | "", "isNull", [v] => .bool (v = .null)
  | "", "isNullOrEmpty", [v] => .bool (v = .null ∨ v = .text "")
  | "", "isNullOrBlank", [v] =>
    .bool (v = .null ∨ (v.text?.any fun s => s.toList.all fun c => c.isWhitespace))
  | "", "toJson", [v] => v
  | "dynamodb", "toDynamoDB", [v] => v.typed
  | "dynamodb", "toDynamoDBJson", [v] => v.typed
  | "rds", "toJsonObject", [v] => v
  | part, function, arguments => library.call part function arguments

def callMethod (v : Value) (method : String) (arguments : List Value) : Value :=
  match method, arguments with
  | "get", [.scalar (.text key)] => v.field key
  | "containsKey", [.scalar (.text key)] => .bool (v.field? key).isSome
  | "isEmpty", [] => .bool (v.entries.isEmpty && v.items.isEmpty)
  | "size", [] => .int v.items.length
  | _, _ => .null

def itemAt (v key : Value) : Value :=
  match key with
  | .scalar (.int i) => if 0 ≤ i then (v.items[i.toNat]?).getD .null else .null
  | .scalar (.text s) => v.field s
  | _ => .null

def Term.part? : Term → Option String
  | .var "util" => some ""
  | .member (.var "util") name => some name
  | .member (.var "utils") name => some name
  | _ => none

namespace Term

mutual

def eval (w : World) (s : State) : Term → Value
  | verbatim text => w.read s text
  | var name => w.lookup s name
  | member of name => (of.eval w s).field name
  | item of key => itemAt (of.eval w s) (key.eval w s)
  | call of method arguments =>
    match of.part? with
    | some part => w.library.apply part method (evals w s arguments)
    | none => callMethod (of.eval w s) method (evals w s arguments)
  | quoted text => .text text
  | plain text => .text (w.expand s text)
  | number n => .int n
  | truth b => .bool b
  | null => .null
  | list items => .list (evals w s items)
  | emptyMap => .map []
  | entry key value => .map [(.text (w.printed (key.eval w s)), value.eval w s)]
  | sum left right =>
    match left.eval w s, right.eval w s with
    | .scalar (.int a), .scalar (.int b) => .int (a + b)
    | _, _ => .null
  | negated t => .bool !(t.eval w s).isTrue

def evals (w : World) (s : State) : List Term → List Value
  | [] => []
  | t :: rest => t.eval w s :: evals w s rest

end

end Term

namespace Cond

def compareValues (a : Value) (how : Comparison) (b : Value) : Bool :=
  match how, a, b with
  | .equal, a, b => a = b
  | .different, a, b => a ≠ b
  | .above, .scalar (.int m), .scalar (.int n) => m > n
  | .below, .scalar (.int m), .scalar (.int n) => m < n
  | .atLeast, .scalar (.int m), .scalar (.int n) => m ≥ n
  | _, _, _ => false

def eval (w : World) (s : State) : Cond → Bool
  | holds t => (t.eval w s).isTrue
  | fails t => !(t.eval w s).isTrue
  | compare left how right => compareValues (left.eval w s) how (right.eval w s)
  | oneOf subject texts => texts.any fun text => subject.eval w s = .text text
  | both first second => first.eval w s && second.eval w s

end Cond

/-! ### Bodies -/

/-- A term within a body, where references are replaced in quoted texts too. -/
def Term.inBody (w : World) (s : State) : Term → Value
  | quoted text => .text (w.expand s text)
  | t => t.eval w s

mutual

def Body.eval (w : World) (s : State) : Body → Value
  | .value t => t.inBody w s
  | .rows items => .list (items.map (Term.inBody w s))
  | .object members => .map (Entries.putAll [] (evalMembers w s members))

def evalMembers (w : World) (s : State) : List Member → List (String × Value)
  | [] => []
  | .always key body :: rest => (key, body.eval w s) :: evalMembers w s rest
  | .provided condition key value :: rest =>
    if condition.eval w s then (key, value.inBody w s) :: evalMembers w s rest
    else evalMembers w s rest

end

/-! ### Actions and scripts -/

inductive Step where
  | next (s : State)
  /-- The loop is left. -/
  | left (s : State)
  /-- The template ends without a request. -/
  | stopped (s : State)
  | refused
  | failed (message kind : Value)
deriving Repr, Inhabited

def Step.andThen (step : Step) (rest : State → Step) : Step :=
  match step with
  | next s => rest s
  | other => other

/-- Changes the map or list that a term stands for. -/
def State.change (s : State) (f : Value → Value) : Term → State
  | .member (.var "ctx") "stash" => { s with stash := (f (.map s.stash)).entries }
  | .member (.member (.var "ctx") "args") name =>
    { s with args := s.args.put name (f (s.args.field name)) }
  | .var name => s.bind name (f (s.local? name))
  | _ => s

def State.effect (w : World) (s : State) : Term → State
  | .call of "put" [key, value] =>
    s.change (fun v => v.put (w.printed (key.eval w s)) (value.eval w s)) of
  | .call of "add" [value] => s.change (fun v => v.add (value.eval w s)) of
  | _ => s

def Action.perform (w : World) (s : State) : Action → Step
  | comment _ => .next s
  | set name value => .next (s.bind name (value.eval w s))
  | run call => .next (s.effect w call)
  | emit value => .next (s.handOut (value.eval w s))
  | emitNull => .next (s.handOut .null)
  | send body => .next (s.handOut (body.eval w s))
  | acknowledge key => .next (s.handOut (.object [
      ("requestId", (Term.stash key).eval w s), ("status", .text "PENDING"),
      ("message", .text "Request queued for processing")]))
  | deliverOwn ownerField => .next { s with filter := some ownerField }
  | refuse => .refused
  | fail message kind => .failed (message.eval w s) (kind.eval w s)
  | leaveLoop => .left s
  | stop => .stopped s

/-- Runs the body for one value after the other, until it leaves the loop or the template. -/
def loop (name : String) (body : State → Step) : List Value → State → Step
  | [], s => .next s
  | v :: rest, s =>
    match body (s.bind name v) with
    | .next t => loop name body rest t
    | .left t => .next t
    | other => other

namespace Script

def exec (w : World) : Script → State → Step
  | done, s => .next s
  | act a rest, s => (a.perform w s).andThen (rest.exec w)
  | choose c yes no rest, s =>
    (if c.eval w s then yes.exec w s else no.exec w s).andThen (rest.exec w)
  | chooseOr c yes d no rest, s =>
    (if c.eval w s then yes.exec w s else if d.eval w s then no.exec w s else .next s).andThen
      (rest.exec w)
  | each name items body rest, s =>
    (loop name (body.exec w) (items.eval w s).items s).andThen (rest.exec w)

end Script

/-! ### Calls -/

theorem evals_eq_map {w : World} {s : State} (ts : List Term) :
    Term.evals w s ts = ts.map (Term.eval w s) := by
  induction ts with
  | nil => rfl
  | cons t rest ih => simp [Term.evals, ih]

theorem eval_method {w : World} {s : State} {of : Term} {method : String} {arguments : List Term}
    (outside : of.part? = none) :
    (of.call method arguments).eval w s =
      callMethod (of.eval w s) method (arguments.map (Term.eval w s)) := by
  rw [Term.eval, outside, evals_eq_map]

theorem eval_library {w : World} {s : State} {of : Term} {function : String}
    {arguments : List Term} (part : String) (inside : of.part? = some part) :
    (of.call function arguments).eval w s =
      w.library.apply part function (arguments.map (Term.eval w s)) := by
  rw [Term.eval, inside, evals_eq_map]

theorem eval_orDefault {w : World} {s : State} {value default : Term} :
    (Term.orDefault value default).eval w s =
      if value.eval w s = .null then default.eval w s else value.eval w s := by
  rw [Term.orDefault, eval_library "" rfl]
  simp [Library.apply]

/-! ### Running scripts one after the other -/

namespace Step

@[simp] theorem next_andThen (s : State) (rest : State → Step) : (next s).andThen rest = rest s :=
  rfl

@[simp] theorem left_andThen (s : State) (rest : State → Step) : (left s).andThen rest = left s :=
  rfl

@[simp] theorem stopped_andThen (s : State) (rest : State → Step) :
    (stopped s).andThen rest = stopped s := rfl

@[simp] theorem refused_andThen (rest : State → Step) : refused.andThen rest = refused := rfl

@[simp] theorem failed_andThen (message kind : Value) (rest : State → Step) :
    (failed message kind).andThen rest = failed message kind := rfl

theorem andThen_assoc (step : Step) (f g : State → Step) :
    (step.andThen f).andThen g = step.andThen fun s => (f s).andThen g := by
  cases step <;> rfl

@[simp] theorem andThen_next (step : Step) : step.andThen next = step := by
  cases step <;> rfl

end Step

namespace Script

variable {w : World} {s : State}

@[simp] theorem exec_done : done.exec w = Step.next := rfl

theorem exec_append_eq (first second : Script) :
    (first ++ second).exec w = fun s => (first.exec w s).andThen (second.exec w) := by
  induction first with
  | done => rfl
  | act a rest ih => funext s; simp [exec, Step.andThen_assoc, ih]
  | choose c yes no rest _ _ ih => funext s; simp [exec, Step.andThen_assoc, ih]
  | chooseOr c yes d no rest _ _ ih => funext s; simp [exec, Step.andThen_assoc, ih]
  | each name items body rest _ ih => funext s; simp [exec, Step.andThen_assoc, ih]

theorem exec_append (first second : Script) (s : State) :
    (first ++ second).exec w s = (first.exec w s).andThen (second.exec w) :=
  congrFun (exec_append_eq first second) s

@[simp] theorem exec_acts_nil : (acts []).exec w s = .next s := rfl

@[simp] theorem exec_acts_cons (a : Action) (rest : List Action) :
    (acts (a :: rest)).exec w s = (a.perform w s).andThen ((acts rest).exec w) := rfl

@[simp] theorem exec_concat_nil : (concat []).exec w s = .next s := rfl

theorem exec_concat_cons (first : Script) (rest : List Script) :
    (concat (first :: rest)).exec w s = (first.exec w s).andThen ((concat rest).exec w) :=
  exec_append first (concat rest) s

@[simp] theorem exec_when (c : Cond) (body : Script) :
    (when c body).exec w s = if c.eval w s then body.exec w s else .next s := by
  simp only [when, exec]
  split <;> exact Step.andThen_next _

@[simp] theorem exec_either (c : Cond) (yes no : Script) :
    (either c yes no).exec w s = if c.eval w s then yes.exec w s else no.exec w s :=
  Step.andThen_next _

@[simp] theorem exec_forEach (name : String) (items : Term) (body : Script) :
    (forEach name items body).exec w s = loop name (body.exec w) (items.eval w s).items s :=
  Step.andThen_next _

end Script

/-- The step goes on, from a state of which `holds` holds. -/
def Step.Reaches (step : Step) (holds : State → Prop) : Prop :=
  ∃ s, step = .next s ∧ holds s

namespace Step.Reaches

variable {holds after : State → Prop} {step : Step}

theorem now {s : State} (held : holds s) : (Step.next s).Reaches holds := ⟨s, rfl, held⟩

theorem andThen {rest : State → Step} (first : step.Reaches holds)
    (later : ∀ s, holds s → (rest s).Reaches after) : (step.andThen rest).Reaches after := by
  obtain ⟨s, rfl, held⟩ := first
  exact later s held

theorem mono (reached : step.Reaches holds) (weaker : ∀ s, holds s → after s) :
    step.Reaches after := by
  obtain ⟨s, same, held⟩ := reached
  exact ⟨s, same, weaker s held⟩

end Step.Reaches

/-! ### What states keep -/

namespace State

variable {s : State} {name other key : String} {v : Value}

@[simp] theorem bind_stash : (s.bind name v).stash = s.stash := rfl

@[simp] theorem bind_args : (s.bind name v).args = s.args := rfl

@[simp] theorem bind_output : (s.bind name v).output = s.output := rfl

@[simp] theorem bind_flagged : (s.bind name v).flagged key = s.flagged key := rfl

@[simp] theorem local?_bind_self : (s.bind name v).local? name = v := by
  simp [local?, bind, Entries.get?_put_self]

theorem local?_bind_of_ne (apart : other ≠ name) :
    (s.bind name v).local? other = s.local? other := by
  simp [local?, bind, Entries.get?_put_of_ne apart]

@[simp] theorem flag_locals : (s.flag key v).locals = s.locals := rfl

@[simp] theorem flag_args : (s.flag key v).args = s.args := rfl

@[simp] theorem local?_flag : (s.flag key v).local? name = s.local? name := rfl

@[simp] theorem flagged_flag_self : (s.flag key v).flagged key = v.isTrue := by
  simp [flagged, flag, Entries.get?_put_self]

theorem flagged_flag_of_ne {other : String} (apart : other ≠ key) :
    (s.flag key v).flagged other = s.flagged other := by
  simp [flagged, flag, Entries.get?_put_of_ne apart]

/-- The states differ at most in these local variables. -/
structure AgreesOff (names : List String) (s t : State) : Prop where
  stash : t.stash = s.stash
  args : t.args = s.args
  output : t.output = s.output
  filter : t.filter = s.filter
  locals : ∀ name, name ∉ names → t.local? name = s.local? name

namespace AgreesOff

variable {names : List String} {s t u : State}

theorem refl (names : List String) (s : State) : s.AgreesOff names s :=
  ⟨rfl, rfl, rfl, rfl, fun _ _ => rfl⟩

theorem trans (first : s.AgreesOff names t) (second : t.AgreesOff names u) : s.AgreesOff names u :=
  ⟨second.stash.trans first.stash, second.args.trans first.args,
    second.output.trans first.output, second.filter.trans first.filter,
    fun name outside => (second.locals name outside).trans (first.locals name outside)⟩

theorem bind {name : String} (member : name ∈ names) (v : Value) :
    s.AgreesOff names (s.bind name v) :=
  ⟨rfl, rfl, rfl, rfl, fun _ outside =>
    local?_bind_of_ne fun same => outside (same ▸ member)⟩

theorem flagged (same : s.AgreesOff names t) (key : String) : t.flagged key = s.flagged key := by
  simp [State.flagged, same.stash]

theorem mono {wider : List String} (same : s.AgreesOff names t) (more : ∀ x ∈ names, x ∈ wider) :
    s.AgreesOff wider t :=
  ⟨same.stash, same.args, same.output, same.filter,
    fun name outside => same.locals name fun inside => outside (more name inside)⟩

end AgreesOff

end State

end ApiLoom.Template
