import ApiLoom.Proofs.CreateRequests
import ApiLoom.Proofs.Links
import ApiLoom.Proofs.ModelOrder
import ApiLoom.Proofs.ReadAccess

/-!
# Unknown callers

A caller whose identity names nobody is the owner of nothing.  The requests that read a model by
its owner rule alone refuse such a caller; the response of a traversal compares all the same, and
shows the records whose owner is as empty as the identity.
-/

namespace ApiLoom

open Template

namespace Model

variable {m : Model} {caller : Caller} {owner : String}

/-- Who is in none of the groups that may read gets no flags without an identity. -/
theorem authCheck_unknown (scope : AccessScope) (unknown : caller.isIdentified = false)
    (outside : ¬ m.GrantsAny .read caller) : (m.authCheck .read scope).flagsFor caller = none := by
  have refused := (authCheck_flagsFor m scope caller (by decide : Operation.read ≠ .create)).2
    outside
  rw [refused, unknown, if_neg (by decide)]

/-- Outside of the groups, a traversal goes by the comparison with the identity alone. -/
theorem itemAccess_admits (decoded : m.IsDecoded) (ruled : m.GrantsOwner .read owner)
    (outside : ¬ m.GrantsAny .read caller) (stash : Stash) (item : Value) :
    m.itemAccess.admits caller stash item = decide (item.field owner = subValue caller) := by
  obtain ⟨declared, access, controlled, owned⟩ := ruled
  have rules : access.rulesFor .read ≠ [] := by
    intro unruled
    simp [AccessControl.hasOwnerRule, unruled] at owned
  have named : owner ≠ "" :=
    (Text.isWord_of_isIdentifier (decoded.owner_identifier declared)).filled
  have ungrouped : caller.isIn ((access.rulesFor .read).flatMap (·.groups)).eraseDups = false := by
    rw [Bool.eq_false_iff]
    intro member
    obtain ⟨g, listed, held⟩ := Caller.isIn_iff.mp member
    obtain ⟨rule, ruled, named⟩ := List.mem_flatMap.mp (List.mem_eraseDups.mp listed)
    exact outside (.toGroup controlled ruled named held)
  simp [itemAccess, controlled, rules, owned, declared, ItemAccess.admits, ungrouped, nonEmpty,
    named]

end Model

/-- Whose identity names nobody and who is in no group that may read can neither get nor list the
records of a model with an owner rule, nor subscribe to them.  A traversal still hands out those
whose owner is what the identity holds: they have none, or that of both is empty. -/
theorem unknown_caller_reads {host : Host} {m : Model} {owner : String} (decoded : m.IsDecoded)
    (ruled : m.GrantsOwner .read owner) (unknown : host.call.caller.isIdentified = false)
    (outside : ¬ m.GrantsAny .read host.call.caller) :
    (∀ cluster field resolver, field = .get ∨ field = .list →
      m.resolver host.config cluster field = .ok resolver → host.run resolver = ⟨[], none⟩) ∧
    (∀ s ∈ m.subscriptions, host.ask host.start s.exchange.request = .aborted) ∧
    ∀ source cluster lookup name link t, Model.traversal source host.config cluster lookup name
        link = .ok t → lookup link.target = some m →
      ∀ p rows v, m.engine.Returns link.kind rows v →
        ∃ q, host.respondInPlace p v t.exchange.response = some q ∧
          link.kind.handsOut rows
            (fun r => (Value.map r).field owner = subValue host.call.caller)
            (host.library.shown host.config host.call.headers (m.localTimeFields host.config))
            q.previous := by
  refine ⟨fun cluster field resolver read resolved => ?_, fun s member => ?_,
    fun source cluster lookup name link t resolved found p rows v returned => ?_⟩
  · have reads : field.operation = .read := by rcases read with rfl | rfl <;> rfl
    have refused := Host.ask_first host (by rw [reads]; decide) resolved
    rw [reads, Model.authCheck_unknown _ unknown outside] at refused
    exact Host.run_aborted resolved refused
  · have checked : s.exchange.request.auth = some (m.authCheck .read .collection) ∧
        s.exchange.request.gate = none := by
      unfold Model.subscriptions at member
      split at member
      · obtain ⟨field, _, rfl⟩ := List.mem_map.mp member
        exact ⟨rfl, rfl⟩
      · cases member
    exact (Host.ask_aborted_iff checked.1 checked.2).mpr
      (Model.authCheck_unknown _ unknown outside)
  · have handed := Host.traversal_hands host p decoded resolved found returned
    simpa only [Model.itemAccess_admits decoded ruled outside] using handed

def unownedNote : Record := [(.text "id", .text "n1")]

def bobsNote : Record := [(.text "id", .text "n2"), (.text "author", .text "bob")]

/-- A caller without a subject or groups. -/
def passerBy : Host where
  config := .default
  library := ⟨fun _ _ _ => .null, .text, fun _ => ""⟩
  call := ⟨⟨none, none⟩, .object [], .null, .object [("id", .text "f1")]⟩
  reply _ := .null

theorem unknown_caller_reads_unownedNote :
    ∃ m source link t get q, Model.decode authoredNote = .ok m ∧ Model.decode folder = .ok source ∧
      m.resolver .default none .get = .ok get ∧ passerBy.run get = ⟨[], none⟩ ∧
      source.traversal .default none (modelNamed [source, m]) "notes" link = .ok t ∧
      passerBy.respondInPlace passerBy.start
        (.object [("items", .list [.map unownedNote, .map bobsNote])]) t.exchange.response =
          some q ∧
      q.previous.field "items" = .list [.map unownedNote] := by
  obtain ⟨m, source, link, t, get, read, other, resolved, linked, found, many, stored, untimed,
      declared, controlled⟩ :
      ∃ m source link t get, Model.decode authoredNote = .ok m ∧
        Model.decode folder = .ok source ∧ m.resolver .default none .get = .ok get ∧
        source.traversal .default none (modelNamed [source, m]) "notes" link = .ok t ∧
        modelNamed [source, m] link.target = some m ∧ link.kind = .hasMany ∧
        m.engine = .document ∧ m.localTimeFields .default = [] ∧ m.ownerField = some "author" ∧
        m.accessControl = some ⟨.deny, [⟨.read, ["staff"], false⟩, ⟨.read, [], true⟩]⟩ :=
    ⟨_, _, ⟨.hasMany, "Note", none⟩, _, _, rfl, rfl, rfl, rfl, rfl, rfl, rfl, rfl, rfl, rfl⟩
  have ruled : m.GrantsOwner .read "author" := ⟨declared, _, controlled, by decide⟩
  have outside : ¬ m.GrantsAny .read passerBy.call.caller := by
    rw [Model.grantsAny_iff, controlled]
    simp [AccessControl.rulesFor, passerBy, Caller.isIn, Caller.groups]
  have unknown : passerBy.call.caller.isIdentified = false := by decide
  obtain ⟨refused, _, linkedNotes⟩ :=
    unknown_caller_reads ⟨authoredNote, read⟩ ruled unknown outside
  have returned : m.engine.Returns link.kind [unownedNote, bobsNote]
      (.object [("items", .list [.map unownedNote, .map bobsNote])]) := by
    rw [stored, many]
    rfl
  obtain ⟨q, answered, handed⟩ := linkedNotes source none _ "notes" link t linked found
    passerBy.start _ _ returned
  refine ⟨m, source, link, t, get, q, read, other, resolved,
    refused none .get get (.inl rfl) resolved, linked, answered, ?_⟩
  have config : passerBy.config = .default := rfl
  rw [many, config, untimed] at handed
  exact handed

end ApiLoom
