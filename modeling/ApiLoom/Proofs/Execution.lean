import ApiLoom.Proofs.Caller
import ApiLoom.Proofs.Machine
import ApiLoom.Resolver.Basic

/-!
# Running resolvers

The templates of a resolver run one after the other and share the stash.  A template
that aborts ends the run; one that ends without a request leaves its data source
alone, and the next stage follows.
-/

namespace ApiLoom

open Template

structure Call where
  caller : Caller
  args : Value
  headers : Value
  source : Value

def Caller.identity (config : Config) (caller : Caller) : Value := .object [
  ("sub", (caller.sub.map Value.text).getD .null),
  ("claims", .object ((caller.claimed.map fun groups =>
    [(config.groupsClaim, Value.texts groups)]).getD []))]

/-- All that lies outside of the templates; `reply` gives the results of the data sources. -/
structure Host where
  config : Config
  library : Library
  call : Call
  reply : StageKind → Value

structure Progress where
  stash : Entries
  args : Value
  previous : Value
deriving Repr, Inhabited

inductive Asked where
  | aborted
  | returned (p : Progress)
  | sent (body : Value) (p : Progress)
deriving Repr, Inhabited

/-- The requests that reached a data source, in order, and what is handed on unless the run
was aborted. -/
structure Trace where
  sent : List (Binding × Value)
  progress : Option Progress
deriving Repr, Inhabited

namespace Trace

def andThen (t : Trace) (next : Progress → Trace) : Trace :=
  match t with
  | ⟨sent, none⟩ => ⟨sent, none⟩
  | ⟨sent, some p⟩ => ⟨sent ++ (next p).sent, (next p).progress⟩

theorem progress_andThen (t : Trace) (next : Progress → Trace) :
    (t.andThen next).progress = t.progress.bind fun p => (next p).progress := by
  obtain ⟨sent, _ | p⟩ := t <;> rfl

theorem sent_andThen {t : Trace} {p : Progress} (reached : t.progress = some p)
    (next : Progress → Trace) : (t.andThen next).sent = t.sent ++ (next p).sent := by
  obtain ⟨sent, _⟩ := t
  obtain rfl := reached
  rfl

theorem andThen_assoc (t : Trace) (f g : Progress → Trace) :
    (t.andThen f).andThen g = t.andThen fun p => (f p).andThen g := by
  obtain ⟨sent, _ | p⟩ := t
  · rfl
  · simp only [andThen]
    cases f p with
    | mk later progress => cases progress <;> simp

end Trace

def Progress.state (p : Progress) : State := ⟨[], p.stash, p.args, .null, none⟩

namespace Host

def world (host : Host) (p : Progress) (result : Value) : World where
  library := host.library
  context := {
    identity := host.call.caller.identity host.config
    headers := host.call.headers
    source := host.call.source
    result := result
    previous := p.previous
    error := .null }

theorem told (host : Host) (p : Progress) (result : Value) :
    (host.world p result).context.identity = host.call.caller.identity host.config := rfl

def ask (host : Host) (p : Progress) (plan : RequestPlan) : Asked :=
  match (ofRequest host.config plan).exec (host.world p .null) p.state with
  | .next s => .sent s.output { p with stash := s.stash, args := s.args }
  | .stopped s => .returned ⟨s.stash, s.args, .null⟩
  | _ => .aborted

def respond (host : Host) (p : Progress) (result : Value) (plan : ResponsePlan) :
    Option Progress :=
  match (ofResponse host.config plan).exec (host.world p result) p.state with
  | .next s => some ⟨s.stash, s.args, s.output⟩
  | _ => none

def runStage (host : Host) (p : Progress) (s : Stage) : Trace :=
  match host.ask p s.exchange.request with
  | .aborted => ⟨[], none⟩
  | .returned q => ⟨[], some q⟩
  | .sent body q => ⟨[(s.binding, body)], host.respond q (host.reply s.kind) s.exchange.response⟩

def runStages (host : Host) (p : Progress) : List Stage → Trace
  | [] => ⟨[], some p⟩
  | s :: rest => (host.runStage p s).andThen fun q => host.runStages q rest

def start (host : Host) : Progress := ⟨[], host.call.args, .null⟩

/-- The request of a pipeline reaches no data source; a unit resolver is its own stage. -/
def run (host : Host) (r : RootResolver) : Trace :=
  match r.execution with
  | .unit binding => host.runStage host.start ⟨r.fieldName, .main, binding, r.exchange⟩
  | .pipeline stages =>
    match host.ask host.start r.exchange.request with
    | .sent body p =>
      let later := host.runStages { p with previous := body.field "payload" } stages
      ⟨later.sent, later.progress.bind fun q => host.respond q q.previous r.exchange.response⟩
    | .returned p => ⟨[], some p⟩
    | .aborted => ⟨[], none⟩

theorem runStages_append (host : Host) (p : Progress) (first rest : List Stage) :
    host.runStages p (first ++ rest) =
      (host.runStages p first).andThen fun q => host.runStages q rest := by
  induction first generalizing p with
  | nil => simp [runStages, Trace.andThen]
  | cons s later ih => simp only [List.cons_append, runStages, Trace.andThen_assoc, ih]

end Host

end ApiLoom
