import ApiLoom.Proofs.CreateRequests
import ApiLoom.Proofs.PageResponses
import ApiLoom.Proofs.Readback

/-!
# Lines of access decisions

What the lines of an access decision do when they are read back and run.  The lines of a check come
to its decision, set the flag of its owner clause where the decision is made by it, and stamp where
the caller is let in; those of a verification act on the record of somebody else, when the flag is
set; and those of an item decide whether it may be shown.
-/

namespace ApiLoom

/-! ### Plans that can be written -/

/-- The groups have plain names, and the model and its owner are called as references can be. -/
structure RuleCheck.IsPlain (check : RuleCheck) : Prop where
  model : Text.isVariable check.modelName.toList = true
  groups : ∀ clause ∈ check.groupClauses, ∀ group ∈ clause.groups,
    group.toList.all Text.isPlainChar = true
  owner : ∀ owner, check.ownerClause = some owner → Text.isVariable owner.ownerField.toList = true
  stamp : ∀ owner, check.stamp = some owner → Text.isVariable owner.toList = true

structure ItemFilter.IsPlain (f : ItemFilter) : Prop where
  groups : ∀ group ∈ f.groups, group.toList.all Text.isPlainChar = true
  owner : ∀ owner, nonEmpty f.ownerField = some owner → Text.isVariable owner.toList = true

namespace Template

open Script

section Legible

variable {config : Config} {check : RuleCheck}

theorem callerGroups_legible (claim : config.groupsClaim.toList.all Text.isPlainChar = true) :
    (callerGroups config).isLegible = true := by
  have literal := Text.isLiteral_of_plain claim
  simp only [callerGroups, Term.orDefault, Term.isLegible, Term.areLegible, literal]
  decide

theorem callerGroups_constant (claim : config.groupsClaim.toList.all Text.isPlainChar = true) :
    (callerGroups config).isConstant = true := by
  have plain := Text.dollar_notMem_of_plain claim
  simp [callerGroups, Term.orDefault, Term.util, Term.identity, Term.context, Term.isConstant,
    Term.areConstant, plain]

theorem grantToGroups_legible {name : String} {items : Term} {groups : List String}
    (named : Text.isVariable name.toList = true) (readable : items.isLegible = true)
    (filled : groups ≠ []) (plain : ∀ group ∈ groups, group.toList.all Text.isPlainChar = true) :
    (grantToGroups name items groups).isLegible = true := by
  have listed : Cond.isLegible (.oneOf (.var "group") groups) = true := by
    simp only [Cond.isLegible, List.all_eq_true.mpr plain, Bool.and_true, Bool.and_eq_true]
    exact ⟨by decide, by simpa using filled⟩
  have unset : Cond.isLegible (.fails (.var name)) = true := by
    simp [Cond.isLegible, Cond.isConjunction, Cond.isAtom, Term.isLegible, Term.isReference, named]
  have granting : (acts [.set name (.truth true), .leaveLoop]).isLegible = true := by
    simp [Action.isLegible, Term.isLegible, named]
  simp only [grantToGroups, whenNot, isLegible_when, isLegible_forEach, unset, readable, listed,
    granting]
  decide

theorem groupClause_legible {clause : GroupClause} (filled : clause.groups ≠ [])
    (plain : ∀ group ∈ clause.groups, group.toList.all Text.isPlainChar = true) :
    (groupClause clause).isLegible = true := by
  have comment : ∀ names : String, Text.isUnbroken names = true →
      (Action.comment s!"Rule {clause.ruleIndex + 1}: groups {names}").isLegible = true := by
    intro names whole
    have spelled : s!"Rule {clause.ruleIndex + 1}: groups {names}" =
        "Rule " ++ toString (clause.ruleIndex + 1) ++ ": groups " ++ names := rfl
    rw [Action.isLegible, spelled]
    simp only [Text.isUnbroken_append, Text.isUnbroken_int, whole]
    decide
  have grant : (grantToGroups "isAuthorized" (.var "userGroups") clause.groups).isLegible = true :=
    grantToGroups_legible (by decide) (by decide) filled plain
  simp only [groupClause, isLegible_append, isLegible_acts, List.all_cons, List.all_nil,
    comment _ (Text.isUnbroken_commas plain), grant]
  rfl

theorem ownerClause_legible {owner : OwnerClause}
    (named : Text.isVariable owner.ownerField.toList = true) :
    (ownerClause owner).isLegible = true := by
  have whole := Text.isUnbroken_of_isVariable named
  have comment : (Action.comment (ownerClauseComment owner)).isLegible = true := by
    rw [Action.isLegible, ownerClauseComment]
    cases owner.mode with
    | stamp =>
      exact (by decide :
        Text.isUnbroken "Owner rule: the caller becomes the owner of the new record" = true)
    | deferToFetch =>
      have spelled : s!"Owner rule: decided against the stored {owner.ownerField}" =
          "Owner rule: decided against the stored " ++ owner.ownerField := rfl
      rw [spelled, Text.isUnbroken_append, whole]
      decide
    | filterItems =>
      have spelled : s!"Owner rule: only records whose {owner.ownerField} is the caller" =
          "Owner rule: only records whose " ++ owner.ownerField ++ " is the caller" := rfl
      rw [spelled, Text.isUnbroken_append, Text.isUnbroken_append, whole]
      decide
  simp only [ownerClause, isLegible_append, isLegible_acts, isLegible_when, List.all_cons,
    List.all_nil, comment]
  cases owner.mode <;> decide

theorem deliberation_legible (claim : config.groupsClaim.toList.all Text.isPlainChar = true)
    (plain : check.IsPlain) (filled : ∀ clause ∈ check.groupClauses, clause.groups ≠ []) :
    (deliberation config check).isLegible = true := by
  have word : Text.isUnbroken check.operation.word = true := by
    cases check.operation <;> decide
  have comment : (Action.comment
      s!"Authorization check for {check.operation.word} on {check.modelName}"
      ).isLegible = true := by
    have spelled : s!"Authorization check for {check.operation.word} on {check.modelName}" =
        "Authorization check for " ++ check.operation.word ++ " on " ++ check.modelName := rfl
    rw [Action.isLegible, spelled]
    simp only [Text.isUnbroken_append, word, Text.isUnbroken_of_isVariable plain.model]
    decide
  have groups : (Action.set "userGroups" (callerGroups config)).isLegible = true := by
    rw [Action.isLegible, callerGroups_legible claim]
    decide
  have clauses : (concat (check.groupClauses.map groupClause)).isLegible = true :=
    isLegible_concat (List.forall_mem_map.mpr fun clause member =>
      groupClause_legible (filled clause member) (plain.groups clause member))
  have owner : (check.ownerClause.elim done ownerClause).isLegible = true := by
    cases ruled : check.ownerClause with
    | none => rfl
    | some owner => exact ownerClause_legible (plain.owner owner ruled)
  simp only [deliberation, isLegible_append, isLegible_acts, List.all_cons, List.all_nil, comment,
    groups, clauses, owner]
  decide

theorem denial_legible (plain : check.IsPlain) : (denial config check).isLegible = true := by
  have word : check.operation.word.toList.all Text.isLiteralChar = true := by
    cases check.operation <;> decide
  have model := Text.isLiteral_of_plain (Text.isPlain_of_isVariable plain.model)
  have note : (denialNote config check).isLegible = true := by
    have message : (s!"User $userId not authorized for {check.operation.word} on {check.modelName}"
        ).toList.all Text.isLiteralChar = true := by
      have spelled : s!"User $userId not authorized for {check.operation.word} on {check.modelName}"
          = "User $userId not authorized for " ++ check.operation.word ++ " on " ++
            check.modelName := rfl
      simp only [spelled, String.toList_append, List.all_append, word, model]
      decide
    unfold denialNote debugNote
    split
    · simp only [isLegible_when, isLegible_acts, List.all_cons, List.all_nil, Action.isLegible,
        Term.stashPut, Term.isLegible, Term.areLegible, message]
      decide
    · rfl
  simp only [denial, whenNot, isLegible_when, isLegible_append, isLegible_acts, note]
  decide

theorem stampOwner_legible {owner : String} (named : Text.isVariable owner.toList = true) :
    (stampOwner owner).isLegible = true := by
  have literal := Text.isLiteral_of_plain (Text.isPlain_of_isVariable named)
  have comment : (Action.comment s!"Stamp the caller as {owner} of the new record").isLegible =
      true := by
    have spelled : s!"Stamp the caller as {owner} of the new record" =
        "Stamp the caller as " ++ owner ++ " of the new record" := rfl
    rw [Action.isLegible, spelled, Text.isUnbroken_append, Text.isUnbroken_append,
      Text.isUnbroken_of_literal literal]
    decide
  have put : (Action.run ((Term.arguments.member "input").call "put"
      [.plain owner, .var "userId"])).isLegible = true := by
    simp only [Action.isLegible, Term.isLegible, Term.areLegible, literal]
    decide
  simp only [stampOwner, isLegible_acts, List.all_cons, List.all_nil, comment, put]
  rfl

theorem ruleCheck_legible (claim : config.groupsClaim.toList.all Text.isPlainChar = true)
    (plain : check.IsPlain) (filled : ∀ clause ∈ check.groupClauses, clause.groups ≠ []) :
    (ruleCheck config check).isLegible = true := by
  have stamp : (check.stamp.elim done stampOwner).isLegible = true := by
    cases stamped : check.stamp with
    | none => rfl
    | some owner => exact stampOwner_legible (plain.stamp owner stamped)
  rw [ruleCheck_parts, isLegible_append, isLegible_append, deliberation_legible claim plain filled,
    denial_legible plain, stamp]
  rfl

theorem verify_legible {v : OwnershipVerification}
    (named : Text.isVariable v.ownerField.toList = true) : (verify v).isLegible = true := by
  have comment : (Action.comment
      s!"Ownership verification against the fetched record's {v.ownerField}").isLegible = true := by
    have spelled : s!"Ownership verification against the fetched record's {v.ownerField}" =
        "Ownership verification against the fetched record's " ++ v.ownerField := rfl
    rw [Action.isLegible, spelled, Text.isUnbroken_append, Text.isUnbroken_of_isVariable named]
    decide
  have acting : (MismatchAction.action v.onMismatch).isLegible = true := by
    cases v.onMismatch <;> decide
  simp only [verify, isLegible_append, isLegible_acts, isLegible_when, List.all_cons, List.all_nil,
    comment, acting, Cond.isLegible, Cond.isConjunction, Cond.isAtom, Cond.flagged, Term.isLegible,
    named]
  decide

theorem letThrough_legible {c : Cond} (readable : c.isLegible = true) :
    (letThrough c).isLegible = true := by
  simp only [letThrough, isLegible_when, readable]
  decide

theorem itemFilter_legible {f : ItemFilter} {subject : String}
    (claim : config.groupsClaim.toList.all Text.isPlainChar = true) (plain : f.IsPlain)
    (gate : ∀ flag, nonEmpty f.gateFlag = some flag → Text.isVariable flag.toList = true)
    (named : Text.isVariable subject.toList = true) :
    (itemFilter config f (.var subject)).isLegible = true := by
  have begun : (acts [.set "canAccess" (.truth false)]).isLegible = true := by decide
  have throughGate : (throughGate f).isLegible = true := by
    unfold Template.throughGate
    cases given : nonEmpty f.gateFlag with
    | none => rfl
    | some flag =>
      refine letThrough_legible ?_
      simp only [Cond.isLegible, Cond.isConjunction, Cond.isAtom, Term.stash, Term.isLegible,
        Term.isReference, gate flag given]
      decide
  have throughGroups : (throughGroups config f).isLegible = true := by
    unfold Template.throughGroups
    split
    · rfl
    · next filled =>
      exact grantToGroups_legible (by decide) (callerGroups_legible claim)
        (fun none => filled (by simp [none])) plain.groups
  have throughOwner : (throughOwner f (.var subject)).isLegible = true := by
    unfold Template.throughOwner
    cases given : nonEmpty f.ownerField with
    | none => rfl
    | some owner =>
      refine letThrough_legible ?_
      simp only [Cond.isLegible, Cond.isConjunction, Cond.isAtom, Cond.isCaller, Term.isLegible,
        plain.owner owner given, named]
      decide
  rw [itemFilter_parts, isLegible_append, isLegible_append, isLegible_append, begun, throughGate,
    throughGroups, throughOwner]
  rfl

end Legible

/-! ### Texts without references -/

section Constant

variable {config : Config}

theorem grantToGroups_constant {name : String} {items : Term} {groups : List String}
    (constant : items.isConstant = true) : (grantToGroups name items groups).isConstant = true := by
  simp [grantToGroups, whenNot, Cond.isConstant, Term.isConstant, Action.isConstant, constant]

theorem deliberation_constant {check : RuleCheck}
    (claim : config.groupsClaim.toList.all Text.isPlainChar = true) :
    (deliberation config check).isConstant = true := by
  have clauses : (concat (check.groupClauses.map groupClause)).isConstant = true :=
    isConstant_concat (List.forall_mem_map.mpr fun clause _ => by
      simp [groupClause, Action.isConstant, grantToGroups_constant (rfl :
        (Term.var "userGroups").isConstant = true)])
  have owner : (check.ownerClause.elim done ownerClause).isConstant = true := by
    cases check.ownerClause with
    | none => rfl
    | some owner =>
      rw [Option.elim_some, ownerClause]
      cases owner.mode <;> rfl
  simp only [deliberation, isConstant_append, isConstant_acts, List.all_cons, List.all_nil,
    Action.isConstant, callerGroups_constant claim, clauses, owner]
  rfl

theorem itemFilter_constant {f : ItemFilter} {subject : String}
    (claim : config.groupsClaim.toList.all Text.isPlainChar = true) :
    (itemFilter config f (.var subject)).isConstant = true := by
  have throughGate : (throughGate f).isConstant = true := by
    unfold Template.throughGate
    cases nonEmpty f.gateFlag <;> rfl
  have throughGroups : (throughGroups config f).isConstant = true := by
    unfold Template.throughGroups
    split
    · rfl
    · exact grantToGroups_constant (callerGroups_constant claim)
  have throughOwner : (throughOwner f (.var subject)).isConstant = true := by
    unfold Template.throughOwner
    cases nonEmpty f.ownerField <;> rfl
  rw [itemFilter_parts, isConstant_append, isConstant_append, isConstant_append, throughGate,
    throughGroups, throughOwner]
  rfl

end Constant

end Template

/-! ### What the lines are to do -/

namespace RuleCheck

open Template

/-- The owner clause, where the decision is made by it: no group clause holds and the caller is
known. -/
def decidingOwner (check : RuleCheck) (caller : Caller) : Option OwnerClause :=
  if (check.groupClauses.any fun clause => caller.isIn clause.groups) || !caller.isIdentified then
    none
  else check.ownerClause

/-- A group clause or the owner clause holds. -/
def letsIn (check : RuleCheck) (caller : Caller) : Bool :=
  (check.groupClauses.any fun clause => caller.isIn clause.groups) ||
    check.ownerClause.isSome && caller.isIdentified

/-- The state with the flag of the owner clause that made the decision, if it has one, and the
caller as the owner in the input, if there is a stamp. -/
def settled (check : RuleCheck) (caller : Caller) (s : State) : State :=
  let flag := (check.decidingOwner caller).bind fun owner => OwnerMode.flag owner.mode
  match check.stamp with
  | some owner => { s.raise flag.toList with
      args := s.args.put "input" ((s.args.field "input").put owner (subValue caller)) }
  | none => s.raise flag.toList

/-- The caller is refused, or let in with nothing else changed than what was settled and the
variables of the decision. -/
def Settles (check : RuleCheck) (caller : Caller) (s : State) (step : Template.Step) : Prop :=
  if check.letsIn caller then step.Reaches ((check.settled caller s).AgreesOff decisionLocals)
  else step = .refused

theorem flagsFor_eq (check : RuleCheck) (caller : Caller) :
    (AuthCheck.rules check).flagsFor caller =
      if check.letsIn caller then
        some ((check.decidingOwner caller).bind fun owner => OwnerMode.flag owner.mode).toList
      else none := by
  rw [AuthCheck.flagsFor, letsIn, decidingOwner]
  cases check.groupClauses.any fun clause => caller.isIn clause.groups <;>
    cases check.ownerClause <;> cases caller.isIdentified <;> rfl

end RuleCheck

/-- A visible record whose owner is not the caller is hidden or aborts the request, when the flag
asks for it. -/
def OwnershipVerification.Settles (v : OwnershipVerification) (caller : Caller)
    (s : Template.State) (step : Template.Step) : Prop :=
  step =
    if (s.local? "visible").isTrue && (s.flagged needsOwnershipCheck &&
        decide ((s.local? "record").field v.ownerField ≠ Template.subValue caller)) then
      match v.onMismatch with
      | .deny => .refused
      | .nullResult => .next (s.bind "visible" (.bool false))
    else .next s

namespace ItemAccess

open Template

/-- The item may be shown: its gate is not set, the caller is in a group, or the item is the
caller's. -/
def opens (access : ItemAccess) (caller : Caller) (s : State) (item : Value) : Bool :=
  match access with
  | allowAll _ => true
  | denyAll _ => false
  | filter f =>
    (nonEmpty f.gateFlag).any (fun flag => !s.flagged flag) || caller.isIn f.groups ||
      (nonEmpty f.ownerField).any fun owner => item.field owner = subValue caller

def Settles (access : ItemAccess) (subject : String) (caller : Caller) (s : State)
    (step : Template.Step) : Prop :=
  step.Reaches fun t => s.AgreesOff ["canAccess", "group"] t ∧
    t.local? "canAccess" = .bool (access.opens caller s (s.local? subject))

end ItemAccess

namespace Template

open Script

/-- The lines are a program that does this for every caller, from every state. -/
def LinesDo (config : Config) (lines : List String)
    (does : Caller → State → Template.Step → Prop) : Prop :=
  ∃ program, Script.read lines = some program ∧ ∀ (caller : Caller) (w : World) (s : State),
    w.context.identity = caller.identity config → does caller s (program.exec w s)

theorem not_linesDo {config : Config} {lines : List String} {line : String}
    {does : Caller → State → Template.Step → Prop} (member : line ∈ lines)
    (unreadable : Line.read line = none) : ¬ LinesDo config lines does := by
  rintro ⟨program, read, _⟩
  rw [Script.read, Script.readFrom_of_unreadable member unreadable] at read
  cases read

section Runs

variable {config : Config} {caller : Caller} {w : World} {s : State}

/-- Whatever the note says for which the caller can ask, who is not let in is refused. -/
theorem denial_asRead {check : RuleCheck} {admitted : Bool}
    (decided : s.local? "isAuthorized" = .bool admitted) :
    (denial config check).asRead.exec w s = if admitted then .next s else .refused := by
  have noted : ((denialNote config check).asRead.exec w s).Reaches fun _ => True := by
    unfold denialNote debugNote
    split
    · rw [asRead_when, exec_when]
      split <;> exact .now trivial
    · exact .now trivial
  have parts : (denial config check).asRead =
      whenNot .isAuthorized ((denialNote config check).asRead ++ acts [.refuse]) := by
    rw [denial, whenNot, asRead_when, asRead_append]
    rfl
  rw [parts, refusal_exec noted decided]

theorem ruleCheck_settles {check : RuleCheck}
    (claim : config.groupsClaim.toList.all Text.isPlainChar = true) (plain : check.IsPlain)
    (told : w.context.identity = caller.identity config) :
    check.Settles caller s ((ruleCheck config check).asRead.exec w s) := by
  obtain ⟨t, deliberated, decided⟩ := deliberation_reaches (s := s) check told
  rw [check.flagsFor_eq] at decided
  rw [ruleCheck_parts, asRead_append, asRead_append, exec_append, exec_append,
    exec_asRead (deliberation_constant claim), deliberated, Step.next_andThen, RuleCheck.Settles]
  cases outcome : check.letsIn caller with
  | false =>
    rw [outcome] at decided
    rw [denial_asRead decided.authorized]
    rfl
  | true =>
    rw [outcome] at decided
    rw [denial_asRead decided.authorized, if_pos rfl, if_pos rfl, Step.next_andThen]
    cases stamped : check.stamp with
    | none =>
      refine .now ?_
      rw [RuleCheck.settled, stamped]
      exact decided.same
    | some owner =>
      have named := Text.isPlain_of_isVariable (plain.stamp owner stamped)
      rw [Option.elim_some, exec_asRead (rfl : (stampOwner owner).isConstant = true),
        stampOwner_exec (Text.dollar_notMem_of_plain named) decided.user]
      refine .now ?_
      rw [RuleCheck.settled, stamped]
      exact ⟨decided.same.stash, by rw [decided.same.args]; rfl, decided.same.output,
        decided.same.filter, decided.same.locals⟩

theorem verify_settles (v : OwnershipVerification)
    (told : w.context.identity = caller.identity config) :
    v.Settles caller s ((verify v).asRead.exec w s) := by
  have constant : (verify v).isConstant = true := by
    rw [verify]
    cases v.onMismatch <;> rfl
  rw [exec_asRead constant, verify_acts told, OwnershipVerification.Settles]
  cases v.onMismatch <;> rfl

theorem decideItem_settles {access : ItemAccess} {subject : String}
    (claim : config.groupsClaim.toList.all Text.isPlainChar = true)
    (apart : subject ∉ ["ctx", "util", "canAccess", "group"])
    (told : w.context.identity = caller.identity config) :
    access.Settles subject caller s
      ((decideItem config access (.var subject)).asRead.exec w s) := by
  have found : ∀ t, s.AgreesOff ["canAccess", "group"] t →
      (Term.var subject).eval w t = s.local? subject := by
    simp only [List.mem_cons, List.not_mem_nil, or_false, not_or] at apart
    intro t same
    rw [eval_var apart.1, same.locals subject (by simp [apart])]
  have judged (stash : Stash) (noted : ∀ f flag, access = .filter f → f.gateFlag = some flag →
      s.flagged flag = stash.contains flag)
      (constant : (decideItem config access (.var subject)).isConstant = true)
      (opens : access.opens caller s (s.local? subject) =
        access.admits caller stash (s.local? subject)) :
      access.Settles subject caller s
        ((decideItem config access (.var subject)).asRead.exec w s) := by
    rw [exec_asRead constant, ItemAccess.Settles, opens]
    exact (decideItem_reaches told noted found).mono fun t judging =>
      ⟨judging.same, judging.decided⟩
  cases access with
  | allowAll reason => exact judged [] (by simp) rfl rfl
  | denyAll reason => exact judged [] (by simp) rfl rfl
  | filter f =>
    have noted : ∀ flag, f.gateFlag = some flag →
        s.flagged flag = (f.gateFlag.toList.filter s.flagged).contains flag := by
      intro flag given
      cases set : s.flagged flag <;> simp [given, set]
    refine judged (f.gateFlag.toList.filter s.flagged) ?_ (itemFilter_constant claim) ?_
    · rintro _ flag ⟨⟩ given
      exact noted flag given
    · rw [ItemAccess.opens, ItemAccess.admits]
      cases given : nonEmpty f.gateFlag with
      | none => rfl
      | some flag =>
        simp only [Option.any_some, noted flag (nonEmpty_eq_some_iff.mp given).1]

end Runs

end Template

open Template

/-- The lines of access decisions do what the decisions come to. -/
theorem access_lines_settle (config : Config)
    (claim : config.groupsClaim.toList.all Text.isPlainChar = true) :
    (∀ check : RuleCheck, check.IsPlain → (∀ clause ∈ check.groupClauses, clause.groups ≠ []) →
      LinesDo config (authorize config (.rules check)).lines check.Settles) ∧
    (∀ v : OwnershipVerification, Text.isVariable v.ownerField.toList = true →
      LinesDo config (verify v).lines v.Settles) ∧
    ∀ (access : ItemAccess) (subject : String),
      (∀ f, access = .filter f → f.IsPlain ∧
        ∀ flag, nonEmpty f.gateFlag = some flag → Text.isVariable flag.toList = true) →
      Text.isVariable subject.toList = true → subject ∉ ["ctx", "util", "canAccess", "group"] →
      LinesDo config (decideItem config access (.var subject)).lines (access.Settles subject) := by
  refine ⟨fun check plain filled => ?checks, fun v named => ?verifies,
    fun access subject plain named apart => ?items⟩
  case checks =>
    exact ⟨_, Script.read_lines (ruleCheck_legible claim plain filled), fun caller w s told =>
      ruleCheck_settles claim plain told⟩
  case verifies =>
    exact ⟨_, Script.read_lines (verify_legible named), fun caller w s told =>
      verify_settles v told⟩
  case items =>
    have set : ∀ b, (Script.acts [.set "canAccess" (.truth b)]).isLegible = true := by decide
    have legible : (decideItem config access (.var subject)).isLegible = true := by
      cases access with
      | allowAll reason => exact set true
      | denyAll reason => exact set false
      | filter f => exact itemFilter_legible claim (plain f rfl).1 (plain f rfl).2 named
    exact ⟨_, Script.read_lines legible, fun caller w s told => decideItem_settles claim apart told⟩

/-- Creates are for admins, and for callers who become the author. -/
def authoring : RuleCheck where
  modelName := "Note"
  operation := .create
  groupClauses := [⟨0, ["admin"]⟩]
  ownerClause := some ⟨"author", .stamp⟩
  stamp := some "author"

theorem authoring_isPlain : authoring.IsPlain := by
  refine ⟨by decide, by decide, ?_, ?_⟩ <;>
  · rintro _ ⟨⟩
    decide

/-- Editors see all notes, and authors their own. -/
def editing : ItemFilter := ⟨["editor"], some "author", some filterByOwner⟩

theorem access_lines_settle_notes :
    LinesDo .default (authorize .default (.rules authoring)).lines authoring.Settles ∧
      LinesDo .default (verify ⟨"author", .deny⟩).lines
        (OwnershipVerification.Settles ⟨"author", .deny⟩) ∧
      LinesDo .default (decideItem .default (.filter editing) (.var "item")).lines
        ((ItemAccess.filter editing).Settles "item") := by
  obtain ⟨checks, verifies, items⟩ := access_lines_settle .default (by decide)
  refine ⟨checks authoring authoring_isPlain (by decide), verifies _ (by decide),
    items _ _ ?_ (by decide) (by decide)⟩
  rintro _ ⟨⟩
  refine ⟨⟨by decide, ?_⟩, ?_⟩ <;>
  · rintro _ ⟨⟩
    decide

/-- A clause that names no group, under which no condition is written. -/
def ungrouped : RuleCheck where
  modelName := "Note"
  operation := .read
  groupClauses := [⟨0, []⟩]
  ownerClause := none
  stamp := none

/-- A gate whose flag no reference can have. -/
def unnamedGate : ItemFilter := ⟨[], none, some "a b"⟩

/-- The groups of a caller are looked for under a quotation mark. -/
def quotedClaim : Config := { Config.default with groupsClaim := "\"" }

/-- Lines that are no program, of a clause without groups, a gate without a name and a claim that
has to be escaped. -/
theorem access_lines_unreadable :
    ungrouped.IsPlain ∧
      ¬ LinesDo .default (authorize .default (.rules ungrouped)).lines ungrouped.Settles ∧
    unnamedGate.IsPlain ∧
      ¬ LinesDo .default (decideItem .default (.filter unnamedGate) (.var "item")).lines
        ((ItemAccess.filter unnamedGate).Settles "item") ∧
    authoring.IsPlain ∧
      ¬ LinesDo quotedClaim (authorize quotedClaim (.rules authoring)).lines authoring.Settles := by
  refine ⟨⟨by decide, by decide, by rintro _ ⟨⟩, by rintro _ ⟨⟩⟩, ?_, ⟨by decide, by rintro _ ⟨⟩⟩,
    ?_, authoring_isPlain, ?_⟩
  · exact not_linesDo (by decide : "    #if()" ∈ _) rfl
  · exact not_linesDo (by decide : "#if(!$ctx.stash.a b)" ∈ _) rfl
  · exact not_linesDo (by decide : "#set($userGroups = $util.defaultIfNull(" ++
      "$ctx.identity.claims.get(\"\\\"\"), []))" ∈ _) rfl

end ApiLoom
