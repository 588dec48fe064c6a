import ApiLoom.Proofs.Blindness
import ApiLoom.Proofs.RejectedWrites

/-!
# Runs to their end

A run ends with an error, or with something handed on.  Two runs can be told apart by what they
send, by how they end, and by the stash entries that they leave behind.
-/

namespace ApiLoom

open Template Template.Script

/-! ### Ends -/

/-- How a run ends, or a part of one: with an error, or with something handed on. -/
inductive Ending (α : Type) where
  | refused
  | failed (message kind : Value)
  | handed (a : α)
deriving DecidableEq, Repr

def Ending.map {α β : Type} (f : α → β) : Ending α → Ending β
  | refused => refused
  | failed message kind => failed message kind
  | handed a => handed (f a)

/-- The requests that reached a data source, in order, and how the run ended. -/
structure Course where
  sent : List (Binding × Value)
  ending : Ending Progress

namespace Course

def andThen (c : Course) (next : Progress → Course) : Course :=
  match c with
  | ⟨sent, .handed p⟩ => ⟨sent ++ (next p).sent, (next p).ending⟩
  | other => other

/-- The requests that went to a store, and not to the function of a hook. -/
def atStores (c : Course) : List (Binding × Value) :=
  c.sent.filter fun request => request.1.kind ≠ .function

/-- What the caller gets to see. -/
def returned (c : Course) : Ending Value := c.ending.map (·.previous)

theorem andThen_assoc (c : Course) (f g : Progress → Course) :
    (c.andThen f).andThen g = c.andThen fun p => (f p).andThen g := by
  obtain ⟨sent, _ | _ | p⟩ := c
  · rfl
  · rfl
  · simp only [andThen]
    obtain ⟨later, _ | _ | q⟩ := f p <;> simp

@[simp] theorem andThen_handed (c : Course) : (c.andThen fun p => ⟨[], .handed p⟩) = c := by
  obtain ⟨sent, _ | _ | p⟩ := c <;> simp [andThen]

end Course

namespace Host

def enter (host : Host) (p : Progress) (plan : RequestPlan) : Template.Step :=
  (ofRequest host.config plan).execInPlace (host.world p .null) p.state

/-- What a stage hands on whose template ended so. -/
def handOn : Template.Step → Ending Progress
  | .next s => .handed ⟨s.stash, s.args, s.output⟩
  | .left s | .stopped s => .handed ⟨s.stash, s.args, .null⟩
  | .refused => .refused
  | .failed message kind => .failed message kind

def leave (host : Host) (p : Progress) (answer : Answer) (plan : ResponsePlan) : Ending Progress :=
  handOn ((ofResponse host.config plan).execInPlace (host.answeredWorld p answer) p.state)

variable (host : Host) (answers : StageKind → Binding × Value → Answer)

/-- A stage whose request ended so: what it sends is answered, and its response follows. -/
def proceed (previous : Value) (s : Stage) : Template.Step → Course
  | .next t => ⟨[(s.binding, t.output)], host.leave ⟨t.stash, t.args, previous⟩
      (answers s.kind (s.binding, t.output)) s.exchange.response⟩
  | other => ⟨[], handOn other⟩

def visit (p : Progress) (s : Stage) : Course :=
  host.proceed answers p.previous s (host.enter p s.exchange.request)

def visits (p : Progress) : List Stage → Course
  | [] => ⟨[], .handed p⟩
  | s :: rest => (host.visit answers p s).andThen fun q => visits q rest

/-- A pipeline whose request ended so: its stages follow one after the other. -/
def carryOn (stages : List Stage) (response : ResponsePlan) :
    Template.Step → Course
  | .next t => (host.visits answers ⟨t.stash, t.args, t.output.field "payload"⟩ stages).andThen
      fun q => ⟨[], host.leave q ⟨q.previous, .null⟩ response⟩
  | other => ⟨[], handOn other⟩

/-- Runs a resolver to its end, where every request of a stage is answered. -/
def attend (r : RootResolver) : Course :=
  match r.execution with
  | .unit binding => host.visit answers host.start ⟨r.fieldName, .main, binding, r.exchange⟩
  | .pipeline stages =>
    host.carryOn answers stages r.exchange.response (host.enter host.start r.exchange.request)

variable {host answers} {p : Progress}

theorem visits_append (first rest : List Stage) :
    host.visits answers p (first ++ rest) =
      (host.visits answers p first).andThen fun q => host.visits answers q rest := by
  induction first generalizing p with
  | nil => simp [visits, Course.andThen]
  | cons s later ih => simp only [List.cons_append, visits, Course.andThen_assoc, ih]

theorem visits_single (s : Stage) : host.visits answers p [s] = host.visit answers p s := by
  simp [visits]

theorem enter_eq_exec (p : Progress) (plan : RequestPlan) :
    host.enter p plan = (ofRequest host.config plan).exec (host.world p .null) p.state := by
  rw [enter, execInPlace_of_steady (ofRequest_steady plan)]

end Host

/-! ### Runs side by side -/

/-- Two progresses differ at most in the entries of these keys, and in what was handed on last. -/
structure Progress.Aligned (keys : List String) (p q : Progress) : Prop where
  args : q.args = p.args
  stash : ∀ key, key ∉ keys → q.stash.get? key = p.stash.get? key

/-- Two progresses differ at most in the entries of these keys. -/
structure Progress.Matches (keys : List String) (p q : Progress) : Prop extends
    Progress.Aligned keys p q where
  previous : q.previous = p.previous

/-- Two runs end alike. -/
inductive Ending.Alike {α : Type} (alike : α → α → Prop) : Ending α → Ending α → Prop
  | refused : Alike alike refused refused
  | failed (message kind : Value) : Alike alike (failed message kind) (failed message kind)
  | handed {a b : α} (same : alike a b) : Alike alike (handed a) (handed b)

/-- Of two runs, the second one calls functions besides. -/
structure Course.Follows (alike : Progress → Progress → Prop) (c d : Course) : Prop where
  sent : d.atStores = c.sent
  ending : c.ending.Alike alike d.ending

namespace Progress.Aligned

variable {keys : List String} {p q r : Progress}

theorem refl (p : Progress) : p.Aligned keys p := ⟨rfl, fun _ _ => rfl⟩

theorem trans (first : p.Aligned keys q) (second : q.Aligned keys r) : p.Aligned keys r :=
  ⟨second.args.trans first.args,
    fun key seen => (second.stash key seen).trans (first.stash key seen)⟩

/-- The templates of the next stage run alike. -/
theorem covers (aligned : p.Aligned keys q) (host : Host) (locals : List String) (answer : Answer) :
    Veil.Covers ⟨locals, keys⟩ (host.answeredWorld p answer) (host.answeredWorld q answer)
      p.state q.state where
  world := ⟨q.previous, rfl⟩
  args := aligned.args
  output := rfl
  filter := rfl
  stash := aligned.stash
  locals _ _ := rfl

end Progress.Aligned

namespace Course.Follows

variable {alike other : Progress → Progress → Prop} {c d : Course}

theorem andThen (follows : c.Follows alike d) {f g : Progress → Course}
    (later : ∀ p q, alike p q → (f p).Follows other (g q)) :
    (c.andThen f).Follows other (d.andThen g) := by
  obtain ⟨sent, ending⟩ := c
  obtain ⟨also, ended⟩ := d
  obtain ⟨same, ends⟩ := follows
  cases ends with
  | refused => exact ⟨same, .refused⟩
  | failed message kind => exact ⟨same, .failed message kind⟩
  | @handed p q aligned =>
    obtain ⟨asked, last⟩ := later p q aligned
    refine ⟨?_, last⟩
    simp only [atStores, Course.andThen, List.filter_append] at same asked ⊢
    rw [same, asked]

/-- Where both runs hand on the same, the caller gets to see the same. -/
theorem returned {keys : List String} (follows : c.Follows (Progress.Matches keys) d) :
    d.returned = c.returned := by
  obtain ⟨sent, ending⟩ := c
  obtain ⟨also, ended⟩ := d
  obtain ⟨_, ends⟩ := follows
  cases ends with
  | refused => rfl
  | failed message kind => rfl
  | handed matched => exact congrArg Ending.handed matched.previous

end Course.Follows

end ApiLoom
