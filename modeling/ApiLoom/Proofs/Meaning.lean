import ApiLoom.Proofs.Caller
import ApiLoom.Resolver.Basic

/-!
# The meaning of plans

What a request and a response do for a caller, apart from any template language.
A request that aborts has no outcome; one that authorizes the caller provisionally
sets a flag in the stash, and a later decision is only made when its flag is set.
-/

namespace ApiLoom

/-- The keys of the stash under which something is set. -/
abbrev Stash := List String

/-! ### Decisions -/

namespace AuthCheck

/-- The flags with which the caller is let in, if the caller is: by a group clause without
any, by the owner clause with the one of its mode. -/
def flagsFor (caller : Caller) : AuthCheck → Option (List String)
  | allowAll _ => some []
  | denyAll _ => none
  | rules check =>
    if check.groupClauses.any fun clause => caller.isIn clause.groups then some []
    else
      match check.ownerClause with
      | some owner =>
        if caller.isIdentified then some (Template.OwnerMode.flag owner.mode).toList else none
      | none => none

end AuthCheck

/-- Holds unless the check is asked for and the record is somebody else's. -/
def OwnershipVerification.passes (v : OwnershipVerification) (caller : Caller) (stash : Stash)
    (r : Record) : Bool :=
  !stash.contains needsOwnershipCheck || caller.owns v.ownerField r

def ItemFilter.keeps (f : ItemFilter) (caller : Caller) (stash : Stash) (r : Record) : Bool :=
  (nonEmpty f.gateFlag).any (fun flag => !stash.contains flag) || caller.isIn f.groups ||
    (nonEmpty f.ownerField).any fun owner => caller.owns owner r

def ItemAccess.keeps (access : ItemAccess) (caller : Caller) (stash : Stash) (r : Record) : Bool :=
  match access with
  | allowAll _ => true
  | denyAll _ => false
  | filter f => f.keeps caller stash r

/-! ### What stores return -/

inductive Reply where
  | item (record : Option Record)
  | page (records : List Record)
  | rows (sets : List (List Record))
  | http (status : Nat) (body : List Record)
  | value (v : Value)
  | nothing
deriving Repr

namespace Reply

def isOk (status : Nat) : Bool := 200 ≤ status && status < 300

def rowsOf (statement : Int) : Reply → List Record
  | rows sets => if 0 ≤ statement then (sets[statement.toNat]?).getD [] else []
  | _ => []

end Reply

/-- The record that a response finds in what the store returned. -/
def RecordSource.find (source : RecordSource) (reply : Reply) : Option Record :=
  match source, reply with
  | result, .item record => record
  | firstPageItem, .page records => records.head?
  | sqlRow statement, reply => (reply.rowsOf statement).head?
  | httpBody, .http status body => if Reply.isOk status then body.head? else none
  | _, _ => none

def ListSource.find (source : ListSource) (reply : Reply) : List Record :=
  match source, reply with
  | pageItems, .page records => records
  | sqlRows statement, reply => reply.rowsOf statement
  | httpBodyItems, .http status body => if Reply.isOk status then body else []
  | _, _ => []

/-- What a store returns that has these records for the operation; a function returns `hooked`. -/
def DataOperation.replyWith (records : List Record) (hooked : Value) : DataOperation → Reply
  | getItem .. => .item records.head?
  | scanItems _ => .page records
  | queryIndex .. => .page records
  | sql s => .rows (s.statements.map fun _ => records)
  | http _ => .http 200 records
  | invokeHook .. => .value hooked
  | _ => .nothing

/-! ### Responses -/

/-- What a response hands out; records come with local times of some of their fields. -/
inductive Output where
  | null
  | record (r : Record) (localTimes : List String)
  | page (records : List Record) (localTimes : List String)
  | value (v : Value)
  | pending
  /-- A subscription, to the records of the caller only where an owner property is given. -/
  | subscribed (owner : Option String)
deriving Repr, Inhabited

namespace Output

def Shows (r : Record) : Output → Prop
  | record s _ => s = r
  | page records _ => r ∈ records
  | _ => False

def Delivers (caller : Caller) (r : Record) : Output → Prop
  | subscribed owner => ∀ name ∈ owner, caller.owns name r = true
  | _ => False

end Output

/-- Where a resolver is between two templates: the stash, and what the last one handed out. -/
structure Flow where
  stash : Stash
  output : Output
deriving Repr, Inhabited

namespace Flow

def start : Flow := ⟨[], .null⟩

def set (flow : Flow) (flag : String) : Flow := { flow with stash := flag :: flow.stash }

def handOut (flow : Flow) (output : Output) : Flow := { flow with output := output }

@[simp] theorem set_stash (flow : Flow) (flag : String) :
    (flow.set flag).stash = flag :: flow.stash := rfl

@[simp] theorem handOut_output (flow : Flow) (output : Output) :
    (flow.handOut output).output = output := rfl

end Flow

def Shown (r : Record) (outcome : Option Flow) : Prop :=
  ∃ flow, outcome = some flow ∧ flow.output.Shows r

def Delivered (caller : Caller) (r : Record) (outcome : Option Flow) : Prop :=
  ∃ flow, outcome = some flow ∧ flow.output.Delivers caller r

/-- Whether a fetched record may be shown; none if the caller is refused for it. -/
def visible? (verification : Option OwnershipVerification) (caller : Caller) (stash : Stash)
    (r : Record) : Option Bool :=
  match verification with
  | none => some true
  | some v =>
    if v.passes caller stash r then some true
    else
      match v.onMismatch with
      | .nullResult => some false
      | .deny => none

namespace ResultShape

def answer (caller : Caller) (reply : Reply) (flow : Flow) : ResultShape → Option Flow
  | single s =>
    match s.source.find reply with
    | none => some (flow.handOut .null)
    | some r =>
      (visible? s.verification caller flow.stash r).map fun visible =>
        if visible && s.access.all fun access => access.keeps caller flow.stash r then
          flow.handOut (.record r s.localTimeFields)
        else flow.handOut .null
  | list s =>
    let kept := (s.source.find reply).filter fun r =>
      s.access.all fun access => access.keeps caller flow.stash r
    some (flow.handOut (.page kept s.localTimeFields))
  | pendingAck _ =>
    match reply with
    | .http 200 _ => some (flow.handOut .pending)
    | _ => none
  | confirmOwnership source verification confirmFlag =>
    match source.find reply with
    | none => some (flow.handOut .null)
    | some r =>
      (visible? verification caller flow.stash r).map fun visible =>
        if visible then (flow.set confirmFlag).handOut (.record r []) else flow.handOut .null
  | hookOutcome stashKey phase =>
    match phase, reply with
    | .before, .value v => some ((flow.set stashKey).handOut (.value v))
    | _, _ => some (flow.set stashKey)
  | passThrough => some flow
  | subscriptionAck owner gateFlag =>
    let narrowed := if flow.stash.contains gateFlag then nonEmpty owner else none
    some (flow.handOut (.subscribed narrowed))

end ResultShape

/-! ### Runs -/

/-- What a request does: it aborts, ends the stage with no call, or asks the store. -/
inductive Verdict where
  | refused
  | stopped
  | asks (stash : Stash)
deriving DecidableEq, Repr

def RequestPlan.verdict (plan : RequestPlan) (caller : Caller) (stash : Stash) : Verdict :=
  match (plan.auth.map (AuthCheck.flagsFor caller)).getD (some []) with
  | none => .refused
  | some flags =>
    if (nonEmpty plan.gate).all (flags ++ stash).contains then .asks (flags ++ stash) else .stopped

def Exchange.run (caller : Caller) (store : DataOperation → Reply) (flow : Flow) (e : Exchange) :
    Option Flow :=
  match e.request.verdict caller flow.stash with
  | .refused => none
  | .stopped => some (flow.handOut .null)
  | .asks stash =>
    e.response.shape.answer caller (store e.request.operation) { flow with stash := stash }

def runStages (caller : Caller) (store : DataOperation → Reply) : Flow → List Stage → Option Flow
  | flow, [] => some flow
  | flow, s :: rest => (s.exchange.run caller store flow).bind fun next =>
      runStages caller store next rest

namespace RootResolver

/-- The stages of a pipeline run between its own request and its own response. -/
def run (caller : Caller) (store : DataOperation → Reply) (r : RootResolver) : Option Flow :=
  match r.execution with
  | .unit _ => r.exchange.run caller store .start
  | .pipeline stages =>
    match r.exchange.request.verdict caller [] with
    | .asks stash =>
      (runStages caller store ⟨stash, .null⟩ stages).bind fun flow =>
        r.exchange.response.shape.answer caller .nothing flow
    | _ => none

end RootResolver

theorem runStages_append {caller : Caller} {store : DataOperation → Reply} {flow : Flow}
    (first rest : List Stage) :
    runStages caller store flow (first ++ rest) =
      (runStages caller store flow first).bind fun next => runStages caller store next rest := by
  induction first generalizing flow with
  | nil => rfl
  | cons s later ih =>
    simp only [List.cons_append, runStages]
    cases s.exchange.run caller store flow with
    | none => rfl
    | some next => exact ih

end ApiLoom
