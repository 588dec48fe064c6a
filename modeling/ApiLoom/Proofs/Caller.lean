import ApiLoom.Model.Definition

/-!
# Callers

Who calls the API, whose a record is, and what the access rules of a model grant
to whom.
-/

namespace ApiLoom

abbrev Record := Entries

/-- The identity that comes with a call; a token may name no groups at all. -/
structure Caller where
  sub : Option String
  claimed : Option (List String)
deriving DecidableEq, Repr

namespace Caller

variable {caller : Caller}

def groups (caller : Caller) : List String := caller.claimed.getD []

def isIdentified (caller : Caller) : Bool := (nonEmpty caller.sub).isSome

def isIn (caller : Caller) (groups : List String) : Bool := groups.any caller.groups.contains

def owns (caller : Caller) (owner : String) (r : Record) : Bool :=
  caller.sub.isSome && (r.get? owner).bind Value.text? = caller.sub

@[simp] theorem isIn_nil : caller.isIn [] = false := rfl

theorem isIn_iff {groups : List String} :
    caller.isIn groups = true ↔ ∃ g ∈ groups, g ∈ caller.groups := by
  simp [isIn]

theorem isIdentified_of_sub {sub : String} (identified : caller.sub = some sub)
    (filled : sub ≠ "") : caller.isIdentified = true := by
  simp [isIdentified, nonEmpty, identified, filled]

theorem exists_sub (identified : caller.isIdentified = true) : ∃ sub, caller.sub = some sub := by
  cases known : caller.sub with
  | none => simp [isIdentified, nonEmpty, known] at identified
  | some sub => exact ⟨sub, rfl⟩

theorem owns_iff {owner sub : String} {r : Record} (known : caller.sub = some sub) :
    caller.owns owner r = true ↔ r.get? owner = some (.text sub) := by
  simp only [owns, known, Option.isSome_some, Bool.true_and, decide_eq_true_eq]
  cases r.get? owner with
  | none => simp
  | some v => cases v with
    | scalar s => cases s <;> simp [Value.text?]
    | list vs => simp [Value.text?]
    | map es => simp [Value.text?]

end Caller

/-! ### What is granted -/

namespace Model

/-- The access rules of the model grant the operation to the caller; `owned` says what it
takes to be an owner. -/
inductive Grants (m : Model) (operation : Operation) (caller : Caller) (owned : String → Prop) :
    Prop where
  | unrestricted (uncontrolled : m.accessControl = none)
  | byDefault {access : AccessControl} (controlled : m.accessControl = some access)
      (unruled : access.rulesFor operation = []) (allowed : access.default = .allow)
  | toGroup {access : AccessControl} {rule : AccessRule} {group : String}
      (controlled : m.accessControl = some access) (ruled : rule ∈ access.rulesFor operation)
      (named : group ∈ rule.groups) (member : group ∈ caller.groups)
  | toOwner {access : AccessControl} {rule : AccessRule} {owner : String}
      (controlled : m.accessControl = some access) (ruled : rule ∈ access.rulesFor operation)
      (byOwner : rule.owner = true) (declared : m.ownerField = some owner) (mine : owned owner)

def GrantsRead (m : Model) (caller : Caller) (r : Record) : Prop :=
  m.Grants .read caller fun owner => caller.owns owner r = true

/-- The operation is granted to the caller whatever record it is about. -/
def GrantsAny (m : Model) (operation : Operation) (caller : Caller) : Prop :=
  m.Grants operation caller fun _ => False

def GrantsOwner (m : Model) (operation : Operation) (owner : String) : Prop :=
  m.ownerField = some owner ∧
    ∃ access, m.accessControl = some access ∧ access.hasOwnerRule operation = true

theorem grants_iff {m : Model} {operation : Operation} {caller : Caller} {owned : String → Prop} :
    m.Grants operation caller owned ↔
      m.GrantsAny operation caller ∨ ∃ owner, m.GrantsOwner operation owner ∧ owned owner := by
  constructor
  · intro granted
    cases granted with
    | unrestricted uncontrolled => exact Or.inl (.unrestricted uncontrolled)
    | byDefault controlled unruled allowed => exact Or.inl (.byDefault controlled unruled allowed)
    | toGroup controlled ruled named member =>
      exact Or.inl (.toGroup controlled ruled named member)
    | toOwner controlled ruled byOwner declared mine =>
      refine Or.inr ⟨_, ⟨declared, _, controlled, ?_⟩, mine⟩
      exact List.any_eq_true.mpr ⟨_, ruled, byOwner⟩
  · rintro (granted | ⟨owner, ⟨declared, access, controlled, ruled⟩, mine⟩)
    · cases granted with
      | unrestricted uncontrolled => exact .unrestricted uncontrolled
      | byDefault controlled unruled allowed => exact .byDefault controlled unruled allowed
      | toGroup controlled ruled named member => exact .toGroup controlled ruled named member
      | toOwner _ _ _ _ none => exact none.elim
    · obtain ⟨rule, listed, byOwner⟩ := List.any_eq_true.mp ruled
      exact .toOwner controlled listed byOwner declared mine

end Model

end ApiLoom
