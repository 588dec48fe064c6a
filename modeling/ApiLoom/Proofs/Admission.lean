import ApiLoom.Proofs.Compiled
import ApiLoom.Proofs.Decoded
import ApiLoom.Proofs.Meaning

/-!
# Admission

Whom the request of a resolver lets in: at once whoever the rules grant the
operation whatever the record, and provisionally a known caller whom only ownership
can authorize.
-/

namespace ApiLoom

theorem AccessControl.groupClausesFrom_any (operation : Operation) (caller : Caller) (index : Nat)
    (rules : List AccessRule) :
    ((groupClausesFrom operation index rules).any fun c => caller.isIn c.groups) = true ↔
      ∃ rule ∈ rules.filter fun r => r.allow = operation, caller.isIn rule.groups = true := by
  induction rules generalizing index with
  | nil => simp [groupClausesFrom]
  | cons rule rest ih =>
    unfold groupClausesFrom
    by_cases ruled : rule.allow = operation
    · by_cases empty : rule.groups = []
      · simp [ruled, empty, ih]
      · simp [ruled, empty, ih]
    · simp [ruled, ih]

/-- A clause has the groups of a rule. -/
theorem AccessControl.mem_groupClausesFrom {operation : Operation} {index : Nat}
    {rules : List AccessRule} {clause : GroupClause}
    (member : clause ∈ groupClausesFrom operation index rules) :
    ∃ rule ∈ rules, rule.groups = clause.groups := by
  induction rules generalizing index with
  | nil => simp [groupClausesFrom] at member
  | cons rule rest ih =>
    have later (member : clause ∈ groupClausesFrom operation (index + 1) rest) :
        ∃ r ∈ rule :: rest, r.groups = clause.groups := by
      obtain ⟨r, listed, same⟩ := ih member
      exact ⟨r, List.mem_cons_of_mem _ listed, same⟩
    unfold groupClausesFrom at member
    dsimp only at member
    split at member
    · rcases List.mem_cons.mp member with rfl | member
      · exact ⟨rule, List.mem_cons_self, rfl⟩
      · exact later member
    · exact later member

/-- Flags are set for known callers only, and they confirm nothing. -/
theorem AuthCheck.flagsFor_provisional {check : AuthCheck} {caller : Caller} {flags : List String}
    (admitted : check.flagsFor caller = some flags) :
    ownershipConfirmed ∉ flags ∧
      (flags.contains needsOwnershipCheck = true → caller.isIdentified = true) := by
  unfold flagsFor at admitted
  split at admitted
  · obtain rfl := Option.some.inj admitted
    simp
  · cases admitted
  · split at admitted
    · obtain rfl := Option.some.inj admitted
      simp
    · split at admitted
      · next owner _ =>
        split at admitted
        · next identified =>
          obtain rfl := Option.some.inj admitted
          refine ⟨?_, fun _ => identified⟩
          cases owner.mode <;> decide
        · cases admitted
      · cases admitted

namespace Model

variable {m : Model} {operation : Operation} {scope : AccessScope} {caller : Caller}

theorem grantsAny_iff :
    m.GrantsAny operation caller ↔ m.accessControl = none ∨
      ∃ access, m.accessControl = some access ∧
        (access.rulesFor operation = [] ∧ access.default = .allow ∨
          ∃ rule ∈ access.rulesFor operation, caller.isIn rule.groups = true) := by
  simp only [Caller.isIn_iff]
  constructor
  · intro granted
    cases granted with
    | unrestricted uncontrolled => exact Or.inl uncontrolled
    | byDefault controlled unruled allowed =>
      exact Or.inr ⟨_, controlled, Or.inl ⟨unruled, allowed⟩⟩
    | toGroup controlled ruled named member =>
      exact Or.inr ⟨_, controlled, Or.inr ⟨_, ruled, _, named, member⟩⟩
    | toOwner _ _ _ _ none => exact none.elim
  · rintro (uncontrolled |
      ⟨access, controlled, ⟨unruled, allowed⟩ | ⟨rule, ruled, g, named, member⟩⟩)
    · exact .unrestricted uncontrolled
    · exact .byDefault controlled unruled allowed
    · exact .toGroup controlled ruled named member

/-- A caller is let in without a flag, or if known provisionally with the flag of the owner
clause. -/
theorem authCheck_flagsFor (m : Model) (scope : AccessScope) (caller : Caller)
    (stored : operation ≠ .create) :
    (m.GrantsAny operation caller →
        (m.authCheck operation scope).flagsFor caller = some []) ∧
      (¬ m.GrantsAny operation caller → (m.authCheck operation scope).flagsFor caller =
        if caller.isIdentified then (m.guardedOwner operation).map fun _ =>
          (Template.OwnerMode.flag (ownerMode operation scope)).toList
        else none) := by
  rw [grantsAny_iff]
  unfold authCheck guardedOwner
  cases controlled : m.accessControl with
  | none => simp [AuthCheck.flagsFor]
  | some access =>
    have grouped := AccessControl.groupClausesFrom_any operation caller 0 access.rules
    simp only [reduceCtorEq, Option.some.injEq, exists_eq_left', false_or, stored, if_false,
      Option.bind_some]
    by_cases unruled : access.rulesFor operation = []
    · have ownerless : access.hasOwnerRule operation = false := by
        simp [AccessControl.hasOwnerRule, unruled]
      cases policy : access.default <;> simp [unruled, ownerless, AuthCheck.flagsFor]
    · simp only [List.isEmpty_iff, unruled, if_false, false_and, false_or, AuthCheck.flagsFor]
      refine ⟨fun granted => if_pos (grouped.mpr granted), fun ungranted => ?_⟩
      rw [if_neg fun held => ungranted (grouped.mp held)]
      cases m.ownerField <;> cases access.hasOwnerRule operation <;>
        cases caller.isIdentified <;> simp

/-- A check gives a reason of its own, or it names the model, groups of its rules and its
owner. -/
theorem authCheck_parts (m : Model) (operation : Operation) (scope : AccessScope) :
    match m.authCheck operation scope with
    | .allowAll reason | .denyAll reason =>
      reason ∈ [AccessControl.noAccessControl, AccessControl.defaultAllow,
        AccessControl.defaultDeny]
    | .rules check =>
      check.modelName = m.name ∧
      (∀ clause ∈ check.groupClauses, ∃ access ∈ m.accessControl, ∃ rule ∈ access.rules,
        rule.groups = clause.groups) ∧
      (∀ owner ∈ check.ownerClause, m.ownerField = some owner.ownerField) ∧
      check.stamp = if operation = .create then m.ownerField else none := by
  unfold authCheck
  cases controlled : m.accessControl with
  | none => simp
  | some access =>
    dsimp only
    by_cases unruled : (access.rulesFor operation).isEmpty = true
    · rw [if_pos unruled]
      cases access.default <;> simp
    · rw [if_neg unruled]
      refine ⟨rfl, fun clause member => ?_, fun owner ruled => ?_, rfl⟩
      · exact ⟨access, rfl, AccessControl.mem_groupClausesFrom member⟩
      · obtain ⟨name, owned, bound⟩ := Option.bind_eq_some_iff.mp ruled
        split at bound
        · obtain rfl := Option.some.inj bound
          exact owned
        · cases bound

theorem authCheck_unstamped (stored : operation ≠ .create) {check : RuleCheck}
    (rules : m.authCheck operation scope = .rules check) : check.stamp = none := by
  have parts := authCheck_parts m operation scope
  rw [rules] at parts
  rw [parts.2.2.2, if_neg stored]

theorem grants_iff_guardedOwner {owned : String → Prop} (stored : operation ≠ .create) :
    m.Grants operation caller owned ↔
      m.GrantsAny operation caller ∨
        ∃ owner, m.guardedOwner operation = some owner ∧ owned owner := by
  have fetched : operation ∈ Review.fetchedOperations := by
    cases operation <;> simp_all [Review.fetchedOperations]
  simp only [grants_iff, GrantsOwner, guardedOwner_eq_some_iff, fetched, true_and]

theorem guardedOwner_identifier {owner : String} (decoded : m.IsDecoded)
    (guarded : m.guardedOwner operation = some owner) : owner ≠ "" := by
  obtain ⟨_, declared, _⟩ := guardedOwner_eq_some_iff.mp guarded
  exact (Text.isWord_of_isIdentifier (decoded.owner_identifier declared)).filled

/-- Together with what is decided later, the request lets in the callers to whom the rules
grant the operation. -/
theorem admitted_iff (scope : AccessScope) (keys : Stash) {flag : String} {owned : String → Prop}
    (stored : operation ≠ .create) (identified : caller.isIdentified = true)
    (provisional : Template.OwnerMode.flag (ownerMode operation scope) = some flag)
    (unset : flag ∉ keys) :
    (∃ flags, (m.authCheck operation scope).flagsFor caller = some flags ∧
        (flag ∈ flags ++ keys → ∀ owner, m.guardedOwner operation = some owner → owned owner)) ↔
      m.Grants operation caller owned := by
  obtain ⟨general, provisionally⟩ :=
    authCheck_flagsFor m scope caller stored
  rw [grants_iff_guardedOwner stored]
  by_cases granted : m.GrantsAny operation caller
  · simp [general granted, granted, unset]
  · rw [provisionally granted, if_pos identified, provisional]
    cases guarded : m.guardedOwner operation <;> simp [granted]

end Model

end ApiLoom
