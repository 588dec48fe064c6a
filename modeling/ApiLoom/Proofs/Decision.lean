import ApiLoom.Proofs.Execution
import ApiLoom.Proofs.Meaning

/-!
# What access scripts decide

The scripts of access decisions come to the decisions that their plans stand for: a
request aborts or goes on with the flags of its check, and a verification compares
the owner of the fetched record when its flag is set.
-/

namespace ApiLoom.Template

open Script

/-! ### Terms of decisions -/

section Terms

variable {w : World} {s : State} {config : Config} {caller : Caller}

def subValue (caller : Caller) : Value := (caller.sub.map Value.text).getD .null

theorem lookup_local {name : String} (own : name ≠ "ctx") : w.lookup s name = s.local? name := by
  simp [World.lookup, own]

@[simp] theorem eval_var {name : String} (own : name ≠ "ctx") :
    (Term.var name).eval w s = s.local? name := by
  rw [Term.eval, lookup_local own]

theorem eval_stash (key : String) :
    (Term.stash key).eval w s = (s.stash.get? key).getD .null := by
  simp [Term.stash, Term.context, Term.eval, World.lookup, World.contextValue, Value.object,
    Entries.get?]

@[simp] theorem eval_flagged (key : String) : (Cond.flagged key).eval w s = s.flagged key := by
  simp [Cond.flagged, Cond.eval, eval_stash, State.flagged]

theorem eval_identity : Term.identity.eval w s = w.context.identity := by
  simp [Term.identity, Term.context, Term.eval, World.lookup, World.contextValue, Value.object,
    Entries.get?]

theorem eval_sub : Term.caller.eval w s = w.context.identity.field "sub" := by
  rw [Term.caller, Term.eval, eval_identity]

theorem identity_sub : (caller.identity config).field "sub" = subValue caller := by
  simp [Caller.identity, Value.object, Entries.get?, subValue]

theorem eval_caller (told : w.context.identity = caller.identity config) :
    Term.caller.eval w s = subValue caller := by
  rw [eval_sub, told, identity_sub]

theorem eval_callerGroups (told : w.context.identity = caller.identity config) :
    (callerGroups config).eval w s = .texts caller.groups := by
  have claims : (Term.identity.member "claims").eval w s = .object ((caller.claimed.map
      fun groups => [(config.groupsClaim, Value.texts groups)]).getD []) := by
    simp [Term.eval, eval_identity, told, Caller.identity, Value.object, Entries.get?]
  have called : ((Term.identity.member "claims").call "get" [.quoted config.groupsClaim]).eval w s =
      (caller.claimed.map Value.texts).getD .null := by
    rw [eval_method rfl, claims]
    cases caller.claimed <;> simp [callMethod, Term.eval, Value.object, Entries.get?]
  rw [callerGroups, eval_orDefault, called]
  cases known : caller.claimed <;> simp [Caller.groups, known, Term.eval, Term.evals, Value.texts]

theorem eval_result : Term.result.eval w s = w.context.result := by
  simp [Term.result, Term.context, Term.eval, World.lookup, World.contextValue, Value.object,
    Entries.get?]

theorem eval_previousResult : Term.previousResult.eval w s = w.context.previous := by
  simp [Term.previousResult, Term.context, Term.eval, World.lookup, World.contextValue,
    Value.object, Entries.get?]

theorem effect_stashPut {key : String} {v : Term} (plain : '$' ∉ key.toList) :
    s.effect w (Term.stashPut key v) = s.flag key (v.eval w s) := by
  have whole : w.expand s key = key := by
    simp [World.expand, Text.expand_plain plain]
  simp [Term.stashPut, Term.context, State.effect, State.change, Term.eval, whole, World.printed,
    State.flag, Value.put, Value.entries]

/-- A verification acts on a visible record of which the flag asks whose it is, when it is not the
caller's. -/
theorem verify_acts (told : w.context.identity = caller.identity config)
    (v : OwnershipVerification) :
    (verify v).exec w s =
      if (s.local? "visible").isTrue && (s.flagged needsOwnershipCheck &&
        decide ((s.local? "record").field v.ownerField ≠ subValue caller)) then
        (MismatchAction.action v.onMismatch).perform w s
      else .next s := by
  simp only [verify, exec_append, exec_acts_cons, exec_acts_nil, Action.perform, Step.next_andThen,
    exec_when, Cond.eval, Cond.compareValues, eval_flagged, Term.eval, Term.visible, Term.record,
    eval_caller told, lookup_local (by decide : "visible" ≠ "ctx"),
    lookup_local (by decide : "record" ≠ "ctx")]
  cases v.onMismatch <;> rfl

end Terms

/-! ### Groups -/

section Groups

variable {w : World} {s : State} {name : String} {items : Term}

theorem eval_isGroup {groups : List String} {group : String} :
    (Cond.oneOf (.var "group") groups).eval w (s.bind "group" (.text group)) =
      groups.contains group := by
  rw [List.contains_eq_any_beq, Cond.eval, eval_var (by decide), State.local?_bind_self]
  congr 1
  funext text
  simp [BEq.beq]

/-- The loop stops at the first group of the caller that is one of the groups. -/
theorem grantLoop_reaches {groups : List String} (own : name ≠ "group") (given : List String)
    (s : State) :
    (loop "group" ((when (.oneOf (.var "group") groups)
        (acts [.set name (.truth true), .leaveLoop])).exec w) (given.map Value.text) s).Reaches
      fun t => s.AgreesOff [name, "group"] t ∧
        t.local? name = if given.any groups.contains then .bool true else s.local? name := by
  induction given generalizing s with
  | nil => exact .now ⟨.refl _ s, by simp⟩
  | cons group rest ih =>
    have bound : s.AgreesOff [name, "group"] (s.bind "group" (.text group)) :=
      .bind (by simp) _
    simp only [List.map_cons, loop, exec_when, eval_isGroup]
    cases listed : groups.contains group with
    | true =>
      have granted := bound.trans (.bind (by simp : name ∈ [name, "group"]) (.bool true))
      simp only [if_true, exec_acts_cons, Action.perform, Term.eval, Step.next_andThen,
        Step.left_andThen]
      refine .now ⟨granted, ?_⟩
      rw [State.local?_bind_self, List.any_cons, listed]
      rfl
    | false =>
      simp only [Bool.false_eq_true, if_false]
      refine (ih _).mono ?_
      rintro t ⟨same, decided⟩
      refine ⟨bound.trans same, ?_⟩
      rw [decided, State.local?_bind_of_ne own, List.any_cons, listed, Bool.false_or]

theorem grantToGroups_reaches {caller : Caller} {groups : List String} {b : Bool}
    (own : name ≠ "group") (visible : name ≠ "ctx") (given : items.eval w s = .texts caller.groups)
    (before : s.local? name = .bool b) :
    ((grantToGroups name items groups).exec w s).Reaches fun t =>
      s.AgreesOff [name, "group"] t ∧ t.local? name = .bool (b || caller.isIn groups) := by
  have shared : caller.groups.any groups.contains = caller.isIn groups := by
    rw [Bool.eq_iff_iff, Caller.isIn_iff]
    simp [and_comm]
  simp only [grantToGroups, whenNot, exec_when, Cond.eval, eval_var visible, before,
    Value.isTrue_bool]
  cases b with
  | true => exact .now ⟨.refl _ s, by simp [before]⟩
  | false =>
    simp only [Bool.not_false, if_true, exec_forEach, given, Value.texts, Value.items]
    refine (grantLoop_reaches own caller.groups s).mono fun t ⟨same, decided⟩ => ⟨same, ?_⟩
    rw [decided, shared, before]
    cases caller.isIn groups <;> rfl

end Groups

/-! ### The decision of a request -/

/-- What a check does before it refuses anybody. -/
def deliberation (config : Config) (check : RuleCheck) : Script :=
  acts [.comment s!"Authorization check for {check.operation.word} on {check.modelName}",
    .set "isAuthorized" (.truth false), .set "userId" .caller,
    .set "userGroups" (callerGroups config)] ++
  concat (check.groupClauses.map groupClause) ++ check.ownerClause.elim done ownerClause

def denialNote (config : Config) (check : RuleCheck) : Script :=
  debugNote config "debug-auth-failed"
    s!"User $userId not authorized for {check.operation.word} on {check.modelName}"

def denial (config : Config) (check : RuleCheck) : Script :=
  whenNot .isAuthorized (denialNote config check ++ acts [.refuse])

theorem ruleCheck_parts (config : Config) (check : RuleCheck) :
    ruleCheck config check =
      deliberation config check ++ denial config check ++ check.stamp.elim done stampOwner := by
  unfold ruleCheck deliberation
  cases check.ownerClause <;> cases check.stamp <;> rfl

def decisionLocals : List String := ["isAuthorized", "userId", "userGroups", "group"]

def State.raise (s : State) (flags : List String) : State :=
  { s with stash := s.stash.putAll (flags.map fun flag => (flag, .bool true)) }

theorem State.flagged_raise (s : State) (flags : List String) (key : String) :
    (s.raise flags).flagged key = (flags.contains key || s.flagged key) := by
  induction flags generalizing s with
  | nil => rfl
  | cons flag rest ih =>
    have step : s.raise (flag :: rest) = (s.flag flag (.bool true)).raise rest := rfl
    rw [step, ih]
    by_cases same : key = flag
    · subst same
      simp
    · rw [State.flagged_flag_of_ne same, List.contains_cons, beq_eq_false_iff_ne.mpr same,
        Bool.false_or]

theorem State.AgreesOff.raise {names : List String} {s t : State} (same : s.AgreesOff names t)
    (flags : List String) : (s.raise flags).AgreesOff names (t.raise flags) :=
  ⟨by simp [State.raise, same.stash], same.args, same.output, same.filter, same.locals⟩

/-- Within the decision of a request that was begun in `s`: so far the caller is let in or not. -/
structure Deciding (caller : Caller) (s : State) (admitted : Bool) (t : State) : Prop where
  same : s.AgreesOff decisionLocals t
  authorized : t.local? "isAuthorized" = .bool admitted
  user : t.local? "userId" = subValue caller
  groups : t.local? "userGroups" = .texts caller.groups

section Decisions

variable {w : World} {s t : State} {config : Config} {caller : Caller} {admitted : Bool}

theorem begin_reaches (told : w.context.identity = caller.identity config) (text : String) :
    ((acts [.comment text, .set "isAuthorized" (.truth false), .set "userId" .caller,
        .set "userGroups" (callerGroups config)]).exec w s).Reaches (Deciding caller s false) := by
  simp only [exec_acts_cons, Action.perform, Step.next_andThen, exec_acts_nil, Term.eval,
    eval_caller told, eval_callerGroups told]
  refine .now ⟨?_, ?_, ?_, State.local?_bind_self⟩
  · refine ((State.AgreesOff.bind ?_ _).trans (.bind ?_ _)).trans (.bind ?_ _) <;>
      decide
  · rw [State.local?_bind_of_ne (by decide), State.local?_bind_of_ne (by decide),
      State.local?_bind_self]
  · rw [State.local?_bind_of_ne (by decide), State.local?_bind_self]

theorem groupClause_reaches (clause : GroupClause) (deciding : Deciding caller s admitted t) :
    ((groupClause clause).exec w t).Reaches
      (Deciding caller s (admitted || caller.isIn clause.groups)) := by
  have given : (Term.var "userGroups").eval w t = .texts caller.groups := by
    rw [eval_var (by decide), deciding.groups]
  simp only [groupClause, exec_append, exec_acts_cons, Action.perform, Step.next_andThen,
    exec_acts_nil]
  refine (grantToGroups_reaches (by decide) (by decide) given deciding.authorized).mono ?_
  rintro u ⟨same, decided⟩
  refine ⟨deciding.same.trans (same.mono (by simp [decisionLocals])), decided, ?_, ?_⟩
  · rw [same.locals _ (by decide), deciding.user]
  · rw [same.locals _ (by decide), deciding.groups]

theorem groupClauses_reaches (clauses : List GroupClause)
    (deciding : Deciding caller s admitted t) :
    ((concat (clauses.map groupClause)).exec w t).Reaches
      (Deciding caller s (admitted || clauses.any fun c => caller.isIn c.groups)) := by
  induction clauses generalizing admitted t with
  | nil => exact .now (by simpa using deciding)
  | cons clause rest ih =>
    rw [List.map_cons, exec_concat_cons, List.any_cons, ← Bool.or_assoc]
    exact (groupClause_reaches clause deciding).andThen fun u next => ih next

theorem eval_isUnknown (user : t.local? "userId" = subValue caller) :
    (Term.util.call "isNullOrEmpty" [.var "userId"]).eval w t = .bool !caller.isIdentified := by
  rw [eval_library "" rfl]
  simp only [List.map_cons, List.map_nil, eval_var (by decide : "userId" ≠ "ctx"), user,
    Library.apply, subValue, Caller.isIdentified, nonEmpty]
  cases caller.sub with
  | none => simp
  | some sub => by_cases empty : sub = "" <;> simp [empty]

/-- The owner clause lets a known caller in with the flag of its mode, unless the caller is in
already. -/
theorem ownerClause_reaches (owner : OwnerClause) (deciding : Deciding caller s admitted t) :
    ((ownerClause owner).exec w t).Reaches
      (if !admitted && caller.isIdentified then
        Deciding caller (s.raise (OwnerMode.flag owner.mode).toList) true
      else Deciding caller s admitted) := by
  have decided : Term.isAuthorized.eval w t = .bool admitted := by
    rw [Term.isAuthorized, eval_var (by decide), deciding.authorized]
  simp only [ownerClause, exec_append, exec_acts_cons, exec_acts_nil, Action.perform,
    Step.next_andThen, exec_when, Cond.eval, decided, eval_isUnknown deciding.user,
    Value.isTrue_bool, Bool.not_not]
  split
  · have granted : Deciding caller s true (t.bind "isAuthorized" (.bool true)) := by
      refine ⟨deciding.same.trans (.bind (by decide) _), State.local?_bind_self, ?_, ?_⟩
      · rw [State.local?_bind_of_ne (by decide), deciding.user]
      · rw [State.local?_bind_of_ne (by decide), deciding.groups]
    simp only [Term.eval]
    cases mode : owner.mode with
    | stamp => exact .now granted
    | deferToFetch =>
      simp only [OwnerMode.flag, exec_acts_cons, exec_acts_nil, Action.perform, Step.next_andThen,
        effect_stashPut (by decide : '$' ∉ needsOwnershipCheck.toList), Term.eval]
      exact .now ⟨granted.same.raise [needsOwnershipCheck], granted.authorized, granted.user,
        granted.groups⟩
    | filterItems =>
      simp only [OwnerMode.flag, exec_acts_cons, exec_acts_nil, Action.perform, Step.next_andThen,
        effect_stashPut (by decide : '$' ∉ filterByOwner.toList), Term.eval]
      exact .now ⟨granted.same.raise [filterByOwner], granted.authorized, granted.user,
        granted.groups⟩
  · exact .now deciding

theorem debugNote_reaches (w : World) (t : State) (config : Config) (key message : String) :
    ((debugNote config key message).exec w t).Reaches fun _ => True := by
  unfold debugNote
  split
  · simp only [exec_when, exec_acts_cons, exec_acts_nil, Action.perform, Step.next_andThen]
    split <;> exact .now trivial
  · exact .now trivial

theorem refusal_exec {note : Script} (noted : (note.exec w t).Reaches fun _ => True)
    (decided : t.local? "isAuthorized" = .bool admitted) :
    (whenNot .isAuthorized (note ++ acts [.refuse])).exec w t =
      if admitted then .next t else .refused := by
  rw [whenNot, exec_when, Cond.eval, Term.isAuthorized, eval_var (by decide), decided,
    Value.isTrue_bool]
  cases admitted with
  | true => rfl
  | false =>
    obtain ⟨u, reached, -⟩ := noted
    simp [exec_append, reached, Action.perform]

/-- The decision that was begun in `s` has been made: the caller is let in with these flags,
or not at all. -/
def Decided (caller : Caller) (s : State) (flags : Option (List String)) (t : State) : Prop :=
  match flags with
  | some flags => Deciding caller (s.raise flags) true t
  | none => Deciding caller s false t

theorem ruleCheck_decides {check : RuleCheck} (deciding : Deciding caller s
    (check.groupClauses.any fun clause => caller.isIn clause.groups) t) :
    ((check.ownerClause.elim done ownerClause).exec w t).Reaches
      (Decided caller s ((AuthCheck.rules check).flagsFor caller)) := by
  rw [AuthCheck.flagsFor]
  cases granted : check.groupClauses.any fun clause => caller.isIn clause.groups with
  | true =>
    rw [granted] at deciding
    rw [if_pos rfl]
    cases check.ownerClause with
    | none => exact .now deciding
    | some owner => exact ownerClause_reaches owner deciding
  | false =>
    rw [granted] at deciding
    rw [if_neg (by decide)]
    cases check.ownerClause with
    | none => exact .now deciding
    | some owner =>
      refine (ownerClause_reaches owner deciding).mono fun u decided => ?_
      cases known : caller.isIdentified <;> simpa [known, Decided] using decided

theorem deliberation_reaches (check : RuleCheck)
    (told : w.context.identity = caller.identity config) :
    ((deliberation config check).exec w s).Reaches
      (Decided caller s ((AuthCheck.rules check).flagsFor caller)) := by
  rw [deliberation, exec_append, exec_append]
  refine ((begin_reaches told _).andThen fun t deciding =>
    groupClauses_reaches check.groupClauses deciding).andThen fun t deciding => ?_
  rw [Bool.false_or] at deciding
  exact ruleCheck_decides deciding

/-- The request of a check without a stamp aborts, or goes on with the flags of the check. -/
theorem ruleCheck_exec {check : RuleCheck} (told : w.context.identity = caller.identity config)
    (unstamped : check.stamp = none) :
    match (AuthCheck.rules check).flagsFor caller with
    | none => (ruleCheck config check).exec w s = .refused
    | some flags => ((ruleCheck config check).exec w s).Reaches
        (Deciding caller (s.raise flags) true) := by
  obtain ⟨t, settled, decided⟩ := deliberation_reaches (s := s) check told
  have plan : (ruleCheck config check).exec w s = (denial config check).exec w t := by
    rw [ruleCheck_parts, exec_append, exec_append, settled, Step.next_andThen, unstamped,
      Option.elim_none, exec_done, Step.andThen_next]
  have noted : ((denialNote config check).exec w t).Reaches fun _ => True :=
    debugNote_reaches w t config _ _
  rw [plan, denial]
  generalize (AuthCheck.rules check).flagsFor caller = outcome at decided ⊢
  cases outcome with
  | none => exact refusal_exec noted decided.authorized
  | some flags =>
    rw [refusal_exec noted decided.authorized]
    exact .now decided

theorem authorize_exec {check : AuthCheck} (told : w.context.identity = caller.identity config)
    (unstamped : ∀ c, check = .rules c → c.stamp = none) :
    match check.flagsFor caller with
    | none => (authorize config check).exec w s = .refused
    | some flags => ((authorize config check).exec w s).Reaches
        ((s.raise flags).AgreesOff decisionLocals) := by
  cases check with
  | allowAll reason => exact .now (.refl _ s)
  | denyAll reason => rfl
  | rules c =>
    have decided := ruleCheck_exec (s := s) told (unstamped c rfl)
    generalize (AuthCheck.rules c).flagsFor caller = outcome at decided ⊢
    cases outcome with
    | none => exact decided
    | some flags => exact decided.mono fun t deciding => deciding.same

end Decisions

end ApiLoom.Template
