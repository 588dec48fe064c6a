import ApiLoom.Document.Lemmas
import ApiLoom.Document.Standard
import ApiLoom.Proofs.Decoded
import Mathlib.Data.List.Nodup

/-!
# Keys of documents

No mapping of a document that the standard parsers read repeats a key: an entry whose key is
there already takes its place.  So the properties of a model that is read from one have
different names, and so have its relationships.
-/

namespace ApiLoom

/-! ### Documents without repeated keys -/

/-- No two entries have the same key. -/
def Entries.Apart (entries : Entries) : Prop := (entries.map fun e => e.1.keyForm).Nodup

/-- No mapping in the value repeats a key. -/
inductive Value.Keyed : Value → Prop where
  | scalar (s : Scalar) : Keyed (.scalar s)
  | list {items : List Value} (each : ∀ v ∈ items, Keyed v) : Keyed (.list items)
  | map {entries : Entries} (apart : entries.Apart) (each : ∀ e ∈ entries, Keyed e.2) :
    Keyed (.map entries)

namespace Entries

variable {entries : Entries} {key : Scalar} {v : Value}

theorem apart_put (apart : entries.Apart) : (entries.put key v).Apart := by
  unfold put Apart
  split
  · have same : ((entries.map fun e => if e.1.sameKey key then (e.1, v) else e).map
        fun e => e.1.keyForm) = entries.map fun e => e.1.keyForm := by
      rw [List.map_map]
      refine List.map_congr_left fun e _ => ?_
      rw [Function.comp_apply]
      split <;> rfl
    rw [same]
    exact apart
  · next absent =>
    rw [List.map_append]
    refine List.nodup_append.mpr ⟨apart, List.nodup_singleton _, ?_⟩
    rintro form listed fresh one rfl
    obtain ⟨e, member, same⟩ := List.mem_map.mp listed
    apply absent
    rw [List.any_eq_true]
    refine ⟨e, member, ?_⟩
    rw [Scalar.sameKey, decide_eq_true_eq, same]
    exact List.mem_singleton.mp one

theorem mem_put {e : Scalar × Value} (member : e ∈ entries.put key v) :
    e ∈ entries ∨ e.2 = v := by
  unfold put at member
  split at member
  · obtain ⟨old, listed, rfl⟩ := List.mem_map.mp member
    split
    · exact Or.inr rfl
    · exact Or.inl listed
  · rcases List.mem_append.mp member with listed | fresh
    · exact Or.inl listed
    · obtain rfl := List.mem_singleton.mp fresh
      exact Or.inr rfl

end Entries

namespace Value.Keyed

variable {entries : Entries} {v : Value}

theorem put (keyed : Keyed (.map entries)) (key : Scalar) (fresh : v.Keyed) :
    Keyed (.map (entries.put key v)) := by
  cases keyed with
  | map apart each =>
    refine .map (Entries.apart_put apart) fun e member => ?_
    rcases Entries.mem_put member with listed | same
    · exact each e listed
    · rw [same]
      exact fresh

theorem get? (keyed : Keyed (.map entries)) {key : String} (found : entries.get? key = some v) :
    v.Keyed := by
  cases keyed with
  | map apart each =>
    obtain ⟨e, listed, rfl⟩ := Option.map_eq_some_iff.mp found
    exact each e (List.mem_of_find?_eq_some listed)

@[simp] theorem ofScalar (s : Scalar) : Keyed (.scalar s) := .scalar s

@[simp] theorem ofList {items : List Value} :
    (Value.list items).Keyed ↔ ∀ v ∈ items, v.Keyed := by
  refine ⟨fun keyed => ?_, .list⟩
  cases keyed with
  | list each => exact each

@[simp] theorem object {fields : List (String × Value)} :
    (Value.object fields).Keyed ↔
      (fields.map fun f => f.1).Nodup ∧ ∀ f ∈ fields, f.2.Keyed := by
  have keys : ((fields.map fun f => (Scalar.text f.1, f.2)).map fun e => e.1.keyForm) =
      (fields.map fun f => f.1).map Scalar.text := by
    rw [List.map_map, List.map_map]
    rfl
  have texts : Function.Injective Scalar.text := fun a b same => Scalar.text.inj same
  constructor
  · intro keyed
    cases keyed with
    | map apart each =>
      rw [Entries.Apart, keys, List.nodup_map_iff texts] at apart
      exact ⟨apart, fun f member => each _ (List.mem_map_of_mem member)⟩
  · rintro ⟨names, each⟩
    refine .map ?_ fun e member => ?_
    · rw [Entries.Apart, keys, List.nodup_map_iff texts]
      exact names
    · obtain ⟨f, listed, rfl⟩ := List.mem_map.mp member
      exact each f listed

end Value.Keyed

/-! ### Documents that are read -/

theorem of_bind_ok {ε α β : Type} {a : Except ε α} {f : α → Except ε β} {b : β}
    (run : a >>= f = .ok b) : ∃ x, a = .ok x ∧ f x = .ok b := by
  cases a with
  | error e => cases run
  | ok x => exact ⟨x, rfl, run⟩

theorem of_mapError_ok {ε η α : Type} {a : Except ε α} {f : ε → η} {x : α}
    (run : a.mapError f = .ok x) : a = .ok x := by
  cases a with
  | error e => cases run
  | ok y => exact congrArg _ (Except.ok.inj run)

theorem of_map_ok {ε α β : Type} {a : Except ε α} {f : α → β} {b : β}
    (run : a.map f = .ok b) : ∃ x, a = .ok x ∧ f x = b := by
  cases a with
  | error e => cases run
  | ok x => exact ⟨x, rfl, Except.ok.inj run⟩

namespace Json

theorem readNumber_keyed {cs rest : List Char} {v : Value}
    (read : readNumber cs = .ok (v, rest)) : v.Keyed := by
  unfold readNumber at read
  split at read
  split at read
  · cases read
  · split at read
    split at read
    split at read
    · split at read
      · cases read
      · obtain ⟨rfl, _⟩ := Prod.mk.inj (Except.ok.inj read)
        exact .scalar _
    · obtain ⟨rfl, _⟩ := Prod.mk.inj (Except.ok.inj read)
      exact .scalar _

theorem reading_keyed (fuel : Nat) :
    (∀ {cs v rest}, readValue fuel cs = .ok (v, rest) → v.Keyed) ∧
      (∀ {seen cs v rest}, (∀ w ∈ seen, Value.Keyed w) →
        readItems fuel seen cs = .ok (v, rest) → v.Keyed) ∧
      ∀ {seen cs v rest}, Value.Keyed (.map seen) →
        readMembers fuel seen cs = .ok (v, rest) → v.Keyed := by
  induction fuel with
  | zero =>
    refine ⟨fun read => ?_, fun _ read => ?_, fun _ read => ?_⟩
    all_goals cases read
  | succ fuel ih =>
    obtain ⟨values, items, members⟩ := ih
    have none : Value.Keyed (.map []) := .map List.nodup_nil (by simp)
    refine ⟨fun read => ?_, fun keyed read => ?_, fun keyed read => ?_⟩
    · unfold readValue at read
      split at read
      · obtain ⟨r, _, same⟩ := of_map_ok read
        obtain ⟨rfl, _⟩ := Prod.mk.inj same
        exact .scalar _
      · split at read
        · obtain ⟨rfl, _⟩ := Prod.mk.inj (Except.ok.inj read)
          exact none
        · exact members none read
      · split at read
        · obtain ⟨rfl, _⟩ := Prod.mk.inj (Except.ok.inj read)
          exact .list (by simp)
        · exact items (by simp) read
      iterate 6
        · obtain ⟨rfl, _⟩ := Prod.mk.inj (Except.ok.inj read)
          exact .scalar _
      · exact readNumber_keyed read
    · unfold readItems at read
      split at read
      · cases read
      · next v _ first =>
        have more : ∀ w ∈ v :: _, Value.Keyed w := List.forall_mem_cons.mpr ⟨values first, keyed⟩
        split at read
        · obtain ⟨rfl, _⟩ := Prod.mk.inj (Except.ok.inj read)
          exact .list fun w member => more w (List.mem_reverse.mp member)
        · exact items more read
        · cases read
    · unfold readMembers at read
      split at read
      · split at read
        · cases read
        · split at read
          · split at read
            · cases read
            · next v _ first =>
              have more (key : String) := keyed.put (.text key) (values first)
              split at read
              · obtain ⟨rfl, _⟩ := Prod.mk.inj (Except.ok.inj read)
                exact more _
              · exact members (more _) read
              · cases read
          · cases read
      · cases read

theorem read_keyed {text : String} {v : Value} (read : Json.read text = .ok v) : v.Keyed := by
  simp only [Json.read] at read
  split at read
  · next found =>
    obtain rfl := Except.ok.inj read
    unfold readDocument at found
    split at found
    · split at found
      · cases found
      · obtain ⟨⟨w, rest⟩, first, ended⟩ := of_bind_ok found
        dsimp only at ended
        split at ended
        · obtain rfl := Except.ok.inj ended
          exact (reading_keyed _).1 first
        · cases ended
    · cases found
  · cases read

end Json

namespace Yaml

theorem folded_keyed (entries : List (Scalar × Value)) {seen : Entries}
    (keyed : Value.Keyed (.map seen)) (each : ∀ e ∈ entries, e.2.Keyed) :
    Value.Keyed (.map (entries.foldl (fun all e => Entries.put all e.1 e.2) seen)) := by
  induction entries generalizing seen with
  | nil => exact keyed
  | cons e rest ih =>
    obtain ⟨first, later⟩ := List.forall_mem_cons.mp each
    exact ih (keyed.put e.1 first) later

theorem both_ok {α β : Type} {a : Built α} {b : Built β} {x : α} {y : β}
    (built : a.both b = .ok (x, y)) : a = .ok x ∧ b = .ok y := by
  unfold Built.both at built
  split at built
  · obtain ⟨rfl, rfl⟩ := Prod.mk.inj (Except.ok.inj built)
    exact ⟨rfl, rfl⟩
  · cases built
  · cases built
  · cases built

mutual

theorem build_keyed {depth : Nat} {v : Value} :
    (n : Node) → build depth n = .ok v → v.Keyed
  | .scalar tag plain text, built => by
    unfold build at built
    split at built
    · obtain rfl := Except.ok.inj built
      exact .scalar _
    · cases built
  | .sequence tag items, built => by
    unfold build at built
    split at built
    · obtain ⟨vs, each, rfl⟩ := of_map_ok built
      exact .list (buildItems_keyed items each)
    · cases built
  | .mapping tag entries, built => by
    unfold build at built
    split at built
    · obtain ⟨es, each, rfl⟩ := of_map_ok built
      exact folded_keyed es (.map List.nodup_nil (by simp)) (buildEntries_keyed entries each)
    · cases built

theorem buildItems_keyed {depth : Nat} {vs : List Value} :
    (items : List Node) → buildItems depth items = .ok vs → ∀ v ∈ vs, v.Keyed
  | [], built => by
    obtain rfl := Except.ok.inj built
    simp
  | n :: rest, built => by
    obtain ⟨⟨v, later⟩, found, rfl⟩ := of_map_ok built
    obtain ⟨first, others⟩ := both_ok found
    exact List.forall_mem_cons.mpr ⟨build_keyed n first, buildItems_keyed rest others⟩

theorem buildEntries_keyed {depth : Nat} {es : List (Scalar × Value)} :
    (entries : List (Node × Node)) → buildEntries depth entries = .ok es → ∀ e ∈ es, e.2.Keyed
  | [], built => by
    obtain rfl := Except.ok.inj built
    simp
  | (k, n) :: rest, built => by
    obtain ⟨⟨⟨key, v⟩, later⟩, found, rfl⟩ := of_map_ok built
    obtain ⟨first, others⟩ := both_ok found
    obtain ⟨_, here⟩ := both_ok first
    exact List.forall_mem_cons.mpr ⟨build_keyed n here, buildEntries_keyed rest others⟩

end

theorem read_keyed {document : String} {v : Value} (read : Yaml.read document = .ok v) :
    v.Keyed := by
  obtain ⟨ts, _, read⟩ := of_bind_ok read
  obtain ⟨node, _, read⟩ := of_bind_ok read
  split at read
  · obtain rfl := Except.ok.inj read
    exact .scalar _
  · obtain ⟨n, _, read⟩ := of_bind_ok read
    exact build_keyed n (of_mapError_ok read)

end Yaml

/-- No mapping in a document that the parsers find repeats a key. -/
def Parsers.Keyed (parsers : Parsers) : Prop :=
  ∀ text v, parsers.json text = .ok v ∨ parsers.yaml text = .ok v → v.Keyed

theorem Parsers.standard_keyed : Parsers.standard.Keyed := by
  rintro text v (found | found)
  · have found : Json.parse text = .ok v := found
    unfold Json.parse at found
    split at found
    · next w read => exact Except.ok.inj found ▸ Json.read_keyed read
    · cases found
    · cases found
  · have found : Yaml.parse text = .ok v := found
    unfold Yaml.parse at found
    split at found
    · next w read => exact Except.ok.inj found ▸ Yaml.read_keyed read
    · cases found
    · cases found

/-! ### Records -/

namespace Entries

variable {entries : Entries} {key other : String}

theorem get?_erase_of_ne (apart : other ≠ key) :
    (entries.erase key).get? other = entries.get? other := by
  unfold erase get?
  rw [List.find?_filter]
  congr 2
  funext e
  by_cases same : e.1 = .text other
  · simp [same, apart]
  · simp [same]

theorem get?_erase_self : (entries.erase key).get? key = none := by
  unfold erase get?
  rw [List.find?_filter, Option.map_eq_none_iff, List.find?_eq_none]
  simp

theorem get?_append_of_ne (apart : other ≠ key) (v : Value) :
    get? (entries ++ [(.text key, v)]) other = entries.get? other := by
  unfold get?
  rw [List.find?_append, List.find?_cons_of_neg (by simpa using apart.symm), List.find?_nil,
    Option.or_none]

theorem get?_orElse_of_ne (apart : other ≠ key) (v : Value) :
    (entries.orElse key v).get? other = entries.get? other := by
  unfold orElse
  split
  · rfl
  · exact get?_append_of_ne apart v

end Entries

open Checked

theorem Checked.all_eq {α : Type} {as : List (Checked α)} {xs : List α} (read : all as = .ok xs) :
    as = xs.map Checked.ok := by
  induction as generalizing xs with
  | nil =>
    obtain rfl := ok_inj read
    rfl
  | cons a rest ih =>
    obtain ⟨g, tail, first, later, rfl⟩ := apply_ok read
    obtain ⟨x, rfl, rfl⟩ := map_ok first
    rw [List.map_cons, ih later]

theorem Decoder.record_fields {α : Type} {className : String} {names : List FieldName}
    {fields : Entries → Checked α} {entries : Entries} {a : α}
    (read : Decoder.record className names fields (.map entries) = .ok a) :
    fields entries = .ok a :=
  also_ok read

namespace FieldName

variable {α : Type} {n : FieldName} {decoder : Decoder α} {record : Entries} {a : α}

theorem find_plain {key : String} : (plain key).find record =
    (record.get? key).map fun v => (key, v) := by
  unfold find plain
  cases record.get? key <;> rfl

theorem required_plain {key : String} (read : (plain key).required decoder record = .ok a) :
    ∃ v, record.get? key = some v ∧ decoder v = .ok a := by
  unfold required at read
  rw [find_plain] at read
  cases found : record.get? key with
  | none =>
    rw [found] at read
    cases read
  | some v =>
    rw [found] at read
    exact ⟨v, rfl, below_ok read⟩

theorem withDefault_plain {key : String} {default : α}
    (read : (plain key).withDefault default decoder record = .ok a) :
    a = default ∨ ∃ v, record.get? key = some v ∧ decoder v = .ok a := by
  unfold withDefault at read
  rw [find_plain] at read
  cases found : record.get? key with
  | none =>
    rw [found] at read
    exact Or.inl (ok_inj read).symm
  | some v =>
    rw [found] at read
    exact Or.inr ⟨v, rfl, below_ok read⟩

end FieldName

theorem Decoder.entry_key {α : Type} {decoder : Decoder α} {e : Scalar × Value} {p : String × α}
    (read : entry decoder e = .ok p) : e.1 = .text p.1 := by
  obtain ⟨g, x, key, _, rfl⟩ := apply_ok (below_ok read)
  obtain ⟨s, named, rfl⟩ := map_ok key
  split at named
  · next found =>
    rw [found, ok_inj named]
  · cases named

/-- The keys of a mapping that is decoded are texts, and stay in their order. -/
theorem Decoder.mapping_keys {α : Type} {decoder : Decoder α} {entries : Entries}
    {ps : List (String × α)} (read : Decoder.mapping decoder (.map entries) = .ok ps) :
    (entries.map fun e => e.1) = (ps.map fun p => p.1).map .text := by
  have same := Checked.all_eq read
  clear read
  induction entries generalizing ps with
  | nil =>
    obtain rfl := List.map_eq_nil_iff.mp same.symm
    rfl
  | cons e rest ih =>
    cases ps with
    | nil => cases same
    | cons p later =>
      obtain ⟨first, others⟩ := List.cons.inj same
      rw [List.map_cons, List.map_cons, List.map_cons, entry_key first, ih others]

theorem Decoder.mapping_values {α : Type} {decoder : Decoder α} {entries : Entries}
    {ps : List (String × α)} (read : Decoder.mapping decoder (.map entries) = .ok ps) :
    ∀ p ∈ ps, ∃ e ∈ entries, e.1 = .text p.1 ∧ decoder e.2 = .ok p.2 := by
  intro p member
  obtain ⟨e, listed, found⟩ := List.mem_map.mp (all_ok read p member)
  exact ⟨e, listed, entry_key found, entry_ok found⟩

theorem Decoder.mapping_map {α : Type} {decoder : Decoder α} {v : Value} {ps : List (String × α)}
    (read : Decoder.mapping decoder v = .ok ps) : ∃ entries, v = .map entries := by
  unfold Decoder.mapping at read
  split at read
  · exact ⟨_, rfl⟩
  · cases read

theorem Decoder.name_text {v : Value} {s : String} (read : Decoder.name v = .ok s) :
    v = .scalar (.text s) := by
  unfold Decoder.name at read
  split at read
  · split at read
    · cases read
    · rw [ok_inj read]
  · cases read

/-- Different keys of a document are different names of what is decoded from it. -/
theorem Entries.Apart.names {entries : Entries} {names : List String} (apart : entries.Apart)
    (keys : (entries.map fun e => e.1) = names.map .text) : names.Nodup := by
  have forms : (entries.map fun e => e.1.keyForm) = names.map .text := by
    have mapped := congrArg (List.map Scalar.keyForm) keys
    rw [List.map_map, List.map_map] at mapped
    exact mapped
  rw [Entries.Apart, forms] at apart
  exact List.Nodup.of_map _ apart

/-! ### Models -/

theorem expandType_name {fields record : Entries} (read : expandType fields = .ok record) :
    record.get? "name" = fields.get? "name" := by
  unfold expandType at read
  split at read
  · rw [ok_inj read]
  · simp only at read
    split at read
    · rw [← ok_inj read]
      split
      · rw [Entries.get?_orElse_of_ne (by decide), Entries.get?_orElse_of_ne (by decide),
          Entries.get?_erase_of_ne (by decide)]
      · rw [Entries.get?_orElse_of_ne (by decide), Entries.get?_erase_of_ne (by decide)]
    · rw [← ok_inj read, Entries.get?_orElse_of_ne (by decide),
        Entries.get?_erase_of_ne (by decide)]
  · cases read

theorem Property.decode_name {fields : Entries} {key : Scalar} {p : Property}
    (named : fields.get? "name" = some (.scalar key))
    (read : Property.decode (.map fields) = .ok p) :
    key = .text p.name := by
  obtain ⟨record, expanded, decoded⟩ := bind_ok read
  have owner := Decoder.record_fields decoded
  obtain ⟨_, _, default, _, rfl⟩ := apply_ok owner
  obtain ⟨_, _, required, _, rfl⟩ := apply_ok default
  obtain ⟨_, _, scalar, _, rfl⟩ := apply_ok required
  obtain ⟨_, _, kind, _, rfl⟩ := apply_ok scalar
  obtain ⟨_, _, name, _, rfl⟩ := apply_ok kind
  obtain ⟨name, given, rfl⟩ := map_ok name
  obtain ⟨v, found, decoded⟩ := FieldName.required_plain given
  have text := Decoder.name_text (require_ok decoded).1
  rw [expandType_name expanded, named, text] at found
  exact Value.scalar.inj (Option.some.inj found)

/-- The properties of a record keep their keys, and each record among them has its key for a
name. -/
theorem nameProperties_properties {record ps : Entries}
    (found : (nameProperties record).get? "properties" = some (.map ps)) :
    ∃ raw : Entries, record.get? "properties" = some (.map raw) ∧
      (ps.map fun e => e.1) = (raw.map fun e => e.1) ∧
      ∀ e ∈ ps, ∀ fields, e.2 = .map fields → Entries.get? fields "name" = some (.scalar e.1) := by
  unfold nameProperties at found
  split at found
  · next raw given =>
    rw [Entries.get?_put_self] at found
    obtain rfl := Value.map.inj (Option.some.inj found)
    refine ⟨raw, given, ?_, ?_⟩
    · rw [List.map_map]
      refine List.map_congr_left fun e _ => ?_
      rw [Function.comp_apply]
      split <;> rfl
    · intro e member fields same
      obtain ⟨old, _, rfl⟩ := List.mem_map.mp member
      split at same
      · obtain rfl := Value.map.inj same
        exact Entries.get?_put_self _ _ _
      · next other => exact absurd same (other fields)
  · next other => exact absurd found (other ps)

theorem nameProperties_get? {record : Entries} {key : String} (apart : key ≠ "properties") :
    (nameProperties record).get? key = record.get? key := by
  unfold nameProperties
  split
  · exact Entries.get?_put_of_ne apart _ _
  · rfl

theorem dropNull_get?_of_ne {key other : String} {record : Entries} (apart : other ≠ key) :
    (dropNull key record).get? other = record.get? other := by
  unfold dropNull
  split
  · exact Entries.get?_erase_of_ne apart
  · rfl

theorem dropNull_get? {key : String} {record : Entries} {v : Value}
    (found : (dropNull key record).get? key = some v) : record.get? key = some v := by
  unfold dropNull at found
  split at found
  · rw [Entries.get?_erase_self] at found
    cases found
  · exact found

namespace Model

variable {m : Model}

/-- The model was read from a document, which repeats no key. -/
def IsRead (m : Model) : Prop := ∃ raw : Value, raw.Keyed ∧ Model.decode raw = .ok m

theorem IsRead.isDecoded (read : m.IsRead) : m.IsDecoded := by
  obtain ⟨raw, _, decoded⟩ := read
  exact ⟨raw, decoded⟩

/-- There are properties, and they have the keys of the document for their names, in its order. -/
theorem decodeProperties_keys {record : Entries} {v : Value} {properties : List Property}
    (found : (nameProperties record).get? "properties" = some v)
    (read : decodeProperties v = .ok properties) :
    properties ≠ [] ∧ ∃ raw : Entries, record.get? "properties" = some (.map raw) ∧
      (raw.map fun e => e.1) = (properties.map fun p => p.name).map .text := by
  obtain ⟨named, mapped, kept⟩ := bind_ok read
  split at kept
  · cases kept
  · next filled =>
    obtain rfl := ok_inj kept
    obtain ⟨ps, rfl⟩ := Decoder.mapping_map mapped
    obtain ⟨raw, given, keys, names⟩ := nameProperties_properties found
    have own : ∀ p ∈ named, p.2.name = p.1 := by
      intro p member
      obtain ⟨e, listed, key, decoded⟩ := Decoder.mapping_values mapped p member
      obtain ⟨fields, same⟩ : ∃ fields, e.2 = .map fields := by
        unfold Property.decode at decoded
        split at decoded
        · next fields same => exact ⟨fields, same⟩
        · cases decoded
      rw [same] at decoded
      have name := Property.decode_name (names e listed fields same) decoded
      exact Scalar.text.inj (name.symm.trans key)
    have same : (named.map fun p => p.2).map (fun p => p.name) = named.map fun p => p.1 := by
      rw [List.map_map]
      exact List.map_congr_left own
    refine ⟨by simpa using filled, raw, given, ?_⟩
    rw [← keys, Decoder.mapping_keys mapped, same]

theorem decodeRelationships_ok {v : Value} {rs : List (String × Relationship)}
    (decoded : decodeRelationships v = .ok rs) :
    Decoder.mapping Relationship.decode v = .ok rs ∧ ∀ r ∈ rs, Text.isIdentifier r.1 = true := by
  obtain ⟨named, mapped, kept⟩ := bind_ok decoded
  split at kept
  · cases kept
  · next safe =>
    obtain rfl := ok_inj kept
    exact ⟨mapped, by simpa using safe⟩

/-- Where the properties and the relationships of a record stand in the one that was decoded. -/
theorem ReadFrom.sections {entries : Entries}
    (readFrom : m.ReadFrom (dropNull "relationships" (dropNull "hooks" (nameProperties entries)))) :
    (∃ v, (nameProperties entries).get? "properties" = some v ∧
      decodeProperties v = .ok m.properties) ∧
    (m.relationships = [] ∨ ∃ v, entries.get? "relationships" = some v ∧
      decodeRelationships v = .ok m.relationships) := by
  constructor
  · obtain ⟨v, found, properties⟩ := FieldName.required_plain readFrom.properties
    rw [dropNull_get?_of_ne (by decide), dropNull_get?_of_ne (by decide)] at found
    exact ⟨v, found, properties⟩
  · rcases FieldName.withDefault_plain readFrom.relationships with none | ⟨v, found, relationships⟩
    · exact Or.inl none
    · replace found := dropNull_get? found
      rw [dropNull_get?_of_ne (by decide), nameProperties_get? (by decide)] at found
      exact Or.inr ⟨v, found, relationships⟩

/-- What the fields of a model were decoded from. -/
theorem IsRead.parts (read : m.IsRead) : ∃ entries : Entries, Value.Keyed (.map entries) ∧
    (∃ v, (nameProperties entries).get? "properties" = some v ∧
      decodeProperties v = .ok m.properties) ∧
    (m.relationships = [] ∨ ∃ v, entries.get? "relationships" = some v ∧
      decodeRelationships v = .ok m.relationships) := by
  obtain ⟨raw, keyed, decoded⟩ := read
  cases raw with
  | map entries => exact ⟨entries, keyed, (decode_ok decoded).1.sections⟩
  | _ => cases decoded

theorem IsRead.propertyNames_nodup (read : m.IsRead) : m.propertyNames.Nodup := by
  obtain ⟨entries, keyed, ⟨v, found, decoded⟩, _⟩ := read.parts
  obtain ⟨_, raw, given, keys⟩ := decodeProperties_keys found decoded
  cases keyed.get? given with
  | map apart each => exact apart.names keys

theorem IsRead.relationships_nodup (read : m.IsRead) :
    (m.relationships.map fun r => r.1).Nodup := by
  obtain ⟨entries, keyed, _, related⟩ := read.parts
  rcases related with none | ⟨v, found, decoded⟩
  · rw [none]
    exact List.nodup_nil
  · have mapped := (decodeRelationships_ok decoded).1
    obtain ⟨raw, rfl⟩ := Decoder.mapping_map mapped
    cases keyed.get? found with
    | map apart each => exact apart.names (Decoder.mapping_keys mapped)

/-- The fields of relationships are identifiers. -/
theorem IsDecoded.relationship_identifier (decoded : m.IsDecoded) {r : String × Relationship}
    (member : r ∈ m.relationships) : Text.isIdentifier r.1 = true := by
  obtain ⟨record, readFrom⟩ := decoded.readFrom
  rcases FieldName.withDefault_ok readFrom.relationships with none | ⟨v, decoded⟩
  · rw [none] at member
    cases member
  · exact (decodeRelationships_ok decoded).2 r member

end Model

/-- A model that is stored under this name, with no more than an identifier. -/
def storedModel (name : String) : Value := .object [
  ("name", .text name),
  ("properties", .object [("id", .object [("type", .text "ID")])]),
  ("dataSource", .object [("type", .text "database"), ("engine", .text "nosql")])]

theorem storedModel_keyed (name : String) : (storedModel name).Keyed := by
  simp [storedModel]

end ApiLoom
