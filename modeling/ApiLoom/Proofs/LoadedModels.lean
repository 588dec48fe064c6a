import ApiLoom.Proofs.Keys
import ApiLoom.Proofs.Loading

/-!
# Loaded models

What the generators take for granted.  A model that loads has the properties of its document,
under the keys that they have there; its names are identifiers; one property at most is the owner;
every rule grants something; and what its store needs is there.
-/

namespace ApiLoom

open Checked

/-! ### Identifiers -/

/-- A letter or an underscore, then letters, digits and underscores; a line feed may end it. -/
def Text.IsIdentifier (s : String) : Prop :=
  ∃ first rest, (s.toList = first :: rest ∨ s.toList = first :: rest ++ ['\n']) ∧
    (first.isAlpha ∨ first = '_') ∧ ∀ c ∈ rest, c.isAlphanum ∨ c = '_'

namespace Text

theorem isUpperLetter_eq (c : Char) : isUpperLetter c = c.isUpper :=
  (Bool.decide_and ('A' ≤ c) (c ≤ 'Z')).symm

theorem isLetter_eq (c : Char) : isLetter c = c.isAlpha :=
  congrArg (· || ('a' ≤ c && c ≤ 'z')) (isUpperLetter_eq c)

theorem isLetterOrDigit_eq (c : Char) : isLetterOrDigit c = c.isAlphanum :=
  congrArg (· || ('0' ≤ c && c ≤ '9')) (isLetter_eq c)

theorem withoutLastFeed_cons {cs rest : List Char} {first : Char}
    (left : withoutLastFeed cs = first :: rest) :
    cs = first :: rest ∨ cs = first :: rest ++ ['\n'] := by
  unfold withoutLastFeed at left
  split at left
  · next last found =>
    split at left
    · next feed =>
      obtain ⟨lead, rfl⟩ := List.getLast?_eq_some_iff.mp found
      rw [List.dropLast_concat] at left
      exact Or.inr (by rw [left, feed])
    · exact Or.inl left
  · exact Or.inl left

theorem isIdentifier_form {s : String} (identifier : isIdentifier s = true) : IsIdentifier s := by
  unfold isIdentifier hasForm at identifier
  split at identifier
  · cases identifier
  · next first rest left =>
    simp only [Bool.and_eq_true, Bool.or_eq_true, List.all_eq_true, decide_eq_true_eq, isLetter_eq,
      isLetterOrDigit_eq] at identifier
    exact ⟨first, rest, withoutLastFeed_cons left, identifier.1, identifier.2⟩

end Text

/-! ### Rules -/

theorem Decoder.itemsFrom_ok {α : Type} {decoder : Decoder α} {position : Nat} {items : List Value}
    {a : α} (member : Checked.ok a ∈ itemsFrom decoder position items) :
    ∃ v ∈ items, decoder v = .ok a := by
  induction items generalizing position with
  | nil => cases member
  | cons v rest ih =>
    rcases List.mem_cons.mp member with here | later
    · exact ⟨v, List.mem_cons_self, below_ok here.symm⟩
    · obtain ⟨w, listed, found⟩ := ih later
      exact ⟨w, List.mem_cons_of_mem v listed, found⟩

theorem Decoder.list_ok {α : Type} {decoder : Decoder α} {v : Value} {as : List α}
    (read : Decoder.list decoder v = .ok as) : ∀ a ∈ as, ∃ w, decoder w = .ok a := by
  unfold Decoder.list at read
  split at read
  · intro a member
    obtain ⟨w, _, found⟩ := itemsFrom_ok (all_ok read a member)
    exact ⟨w, found⟩
  · cases read

/-- The rule grants its operation to someone. -/
def AccessRule.Grants (r : AccessRule) : Prop := r.groups ≠ [] ∨ r.owner = true

theorem AccessRule.decode_grants {v : Value} {r : AccessRule}
    (read : AccessRule.decode v = .ok r) : r.Grants := by
  have granted := (require_ok read).2
  simpa [Grants] using granted

theorem AccessControl.decode_grants {v : Value} {access : AccessControl}
    (read : AccessControl.decode v = .ok access) : ∀ r ∈ access.rules, r.Grants := by
  obtain ⟨entries, fields⟩ := Decoder.record_ok read
  obtain ⟨_, _, toDefault, rules, rfl⟩ := apply_ok fields
  obtain ⟨_, _, rfl⟩ := map_ok toDefault
  intro r member
  rcases FieldName.withDefault_ok rules with rfl | ⟨_, found⟩
  · cases member
  · obtain ⟨_, decoded⟩ := Decoder.list_ok found r member
    exact AccessRule.decode_grants decoded

/-! ### Models -/

namespace Model

variable {m : Model}

/-- What the model has that was loaded from this document, under this name of its source. -/
structure LoadedFrom (raw : Value) (source : String) (m : Model) : Prop where
  filled : m.properties ≠ []
  keys : ∃ record declared, raw = .map record ∧
    Entries.get? record "properties" = some (.map declared) ∧
    m.propertyNames.map Scalar.text = declared.map fun e => e.1
  name : Text.IsIdentifier m.name
  propertyNames : ∀ p ∈ m.properties, Text.IsIdentifier p.name
  relationshipNames : ∀ r ∈ m.relationships, Text.IsIdentifier r.1
  singleOwner : (m.properties.filter (·.isOwner)).length ≤ 1
  owner : ∀ p ∈ m.properties, p.isOwner = true → m.ownerField = some p.name
  unowned : (∀ p ∈ m.properties, p.isOwner = false) → m.ownerField = none
  grants : ∀ access, m.accessControl = some access → ∀ r ∈ access.rules, r.Grants
  cluster : ∀ c, m.dataSource.cluster? = some c → m.engine = .relational
  limits : ∀ endpoint l, m.dataSource = .thirdPartyApi endpoint (some l) →
    1 ≤ l.limit ∧ 1 ≤ l.frequencyInSeconds
  source : m.source = some source

/-- A property that is the only owner is found as such. -/
theorem ownerField_of_single {p : Property} (single : (m.properties.filter (·.isOwner)).length ≤ 1)
    (member : p ∈ m.properties) (owns : p.isOwner = true) : m.ownerField = some p.name := by
  have listed : p ∈ m.properties.filter (·.isOwner) := List.mem_filter.mpr ⟨member, owns⟩
  rw [ownerField, ← List.head?_filter]
  cases owners : m.properties.filter (·.isOwner) with
  | nil => simp [owners] at listed
  | cons q rest =>
    rw [owners] at single listed
    obtain rfl : rest = [] := by simpa using single
    rw [List.mem_singleton.mp listed]
    rfl

theorem ReadFrom.grants {record : Entries} (readFrom : m.ReadFrom record) {access : AccessControl}
    (guarded : m.accessControl = some access) : ∀ r ∈ access.rules, r.Grants := by
  have read := readFrom.accessControl
  rw [guarded] at read
  rcases FieldName.withDefault_ok read with absent | ⟨_, found⟩
  · cases absent
  · exact AccessControl.decode_grants (Decoder.orNull_ok found)

theorem ReadFrom.dataSource_wellFormed {record : Entries} (readFrom : m.ReadFrom record) :
    m.dataSource.WellFormed := by
  obtain ⟨_, found⟩ := FieldName.required_ok readFrom.dataSource
  exact DataSource.decode_wellFormed found

/-- The source that is put into the record is the one that the model remembers. -/
theorem ReadFrom.remembers {entries : Entries} {source : String}
    (readFrom : m.ReadFrom (dropNull "relationships" (dropNull "hooks"
      (nameProperties (entries.put (.text "source") (.text source)))))) :
    m.source = some source := by
  have given : (dropNull "relationships" (dropNull "hooks"
      (nameProperties (entries.put (.text "source") (.text source))))).get? "source" =
        some (.text source) := by
    rw [dropNull_get?_of_ne (by decide), dropNull_get?_of_ne (by decide),
      nameProperties_get? (by decide), Entries.get?_put_self]
  have read := readFrom.source
  rw [FieldName.withDefault, sourceField, FieldName.find_plain, given] at read
  exact (ok_inj read).symm

/-- Whatever document is accepted, and whatever names of properties and of a source stand in it,
the model has what the generators take for granted. -/
theorem load_invariants {raw : Value} {source : String} (loaded : Model.load raw source = .ok m) :
    m.LoadedFrom raw source := by
  unfold Model.load at loaded
  split at loaded
  · next entries =>
    split at loaded
    · next read =>
      obtain rfl := Except.ok.inj loaded
      have decoded : IsDecoded _ := ⟨_, read⟩
      obtain ⟨readFrom, single⟩ := decode_ok read
      obtain ⟨⟨v, found, properties⟩, _⟩ := readFrom.sections
      obtain ⟨filled, declared, given, keys⟩ := decodeProperties_keys found properties
      rw [Entries.get?_put_of_ne (by decide)] at given
      rw [owners, List.length_map] at single
      exact {
        filled := filled
        keys := ⟨entries, declared, rfl, given, keys.symm⟩
        name := Text.isIdentifier_form decoded.parts.1
        propertyNames := fun p member => Text.isIdentifier_form (decoded.property_identifier member)
        relationshipNames := fun r member =>
          Text.isIdentifier_form (decoded.relationship_identifier member)
        singleOwner := single
        owner := fun p member owns => ownerField_of_single single member owns
        unowned := fun none => by
          rw [ownerField, List.find?_eq_none.mpr fun p member => by simp [none p member]]
          rfl
        grants := fun access guarded => readFrom.grants guarded
        cluster := fun c declared => (readFrom.dataSource_wellFormed.cluster declared).1
        limits := fun endpoint l limited => by
          have wellFormed := readFrom.dataSource_wellFormed
          rw [limited] at wellFormed
          exact wellFormed.2 l rfl
        source := readFrom.remembers }
    · cases loaded
  · cases loaded

end Model

/-- A model with names and a source that are not its own. -/
def mislabelledNote : Value := .object [
  ("source", .int 7),
  ("name", .text "Note\n"),
  ("properties", .object [
    ("id", .object [("name", .text "author"), ("type", .text "ID")]),
    ("author", .object [("type", .text "String"), ("is_owner", .int 1), ("name", .list [])])]),
  ("dataSource", .object [("type", .text "database"), ("engine", .text "sql"),
    ("cluster", .object [("name", .text "main"), ("secret_ref", .text "key"),
      ("database", .text "notes")])]),
  ("accessControl", .object [("rules", .list [
    .object [("allow", .text "read"), ("groups", .texts ["Editors"])],
    .object [("allow", .text "delete"), ("owner", .bool true)]])]),
  ("relationships", .object [
    ("folder", .object [("type", .text "belongsTo"), ("target", .text "Folder")])]),
  ("hooks", .null)]

theorem load_invariants_mislabelledNote :
    ∃ m, Model.load mislabelledNote "models/Note.yaml" = .ok m ∧
      m.propertyNames = ["id", "author"] ∧ m.ownerField = some "author" ∧
      m.LoadedFrom mislabelledNote "models/Note.yaml" := by
  obtain ⟨m, loaded, names, owner⟩ : ∃ m, Model.load mislabelledNote "models/Note.yaml" = .ok m ∧
      m.propertyNames = ["id", "author"] ∧ m.ownerField = some "author" := ⟨_, rfl, rfl, rfl⟩
  exact ⟨m, loaded, names, owner, Model.load_invariants loaded⟩

/-! ### Documents of loaded models -/

section Documents

variable {parsers : Parsers} {source : String}

theorem Model.load_isRead {m : Model} {raw : Value} (keyed : raw.Keyed)
    (loaded : Model.load raw source = .ok m) : m.IsRead := by
  unfold Model.load at loaded
  split at loaded
  · split at loaded
    · next read =>
      obtain rfl := Except.ok.inj loaded
      exact ⟨_, keyed.put _ (.scalar _), read⟩
    · cases loaded
  · cases loaded

theorem Source.modelsFrom_isRead {position : Nat} {items : List Value} {models : List Model}
    (keyed : ∀ v ∈ items, v.Keyed) (loaded : modelsFrom source position items = .ok models) :
    ∀ m ∈ models, m.IsRead := by
  induction items generalizing position models with
  | nil =>
    obtain rfl := Except.ok.inj loaded
    exact List.forall_mem_nil _
  | cons v rest ih =>
    obtain ⟨first, later⟩ := List.forall_mem_cons.mp keyed
    obtain ⟨m, read, loaded⟩ := of_bind_ok loaded
    obtain ⟨others, more, loaded⟩ := of_bind_ok loaded
    obtain rfl := Except.ok.inj loaded
    exact List.forall_mem_cons.mpr ⟨Model.load_isRead first read, ih later more⟩

theorem Source.modelsOf_isRead {document : Value} {models : List Model} (keyed : document.Keyed)
    (loaded : modelsOf source document = .ok models) : ∀ m ∈ models, m.IsRead := by
  have single (loaded : (Model.load document source).map (fun m => [m]) = .ok models) :
      ∀ m ∈ models, m.IsRead := by
    obtain ⟨m, read, rfl⟩ := of_map_ok loaded
    exact List.forall_mem_singleton.mpr (Model.load_isRead keyed read)
  unfold modelsOf at loaded
  split at loaded
  · obtain rfl := Except.ok.inj loaded
    exact List.forall_mem_nil _
  · split at loaded
    · next found => exact modelsFrom_isRead (Value.Keyed.ofList.mp (keyed.get? found)) loaded
    · cases loaded
    · exact single loaded
  · exact single loaded

theorem Source.parse_keyed {s : Source} {text : String} {document : Value} (keyed : parsers.Keyed)
    (parsed : s.parse parsers text = .ok document) : document.Keyed := by
  refine keyed text document ?_
  unfold Source.parse at parsed
  split at parsed
  · exact .inl parsed
  · exact .inr parsed

theorem Source.read_keyed {s : Source} {document : Value} (keyed : parsers.Keyed)
    (read : s.read parsers = .ok document) : document.Keyed := by
  unfold Source.read at read
  split at read
  · cases read
  · split at read
    · next parsed => exact Except.ok.inj read ▸ parse_keyed keyed parsed
    · cases read
    · cases read

theorem Source.models_isRead {s : Source} {models : List Model} (keyed : parsers.Keyed)
    (loaded : s.models parsers source = .ok models) : ∀ m ∈ models, m.IsRead := by
  unfold Source.models at loaded
  split at loaded
  · cases loaded
  · next read => exact modelsOf_isRead (read_keyed keyed read) (of_mapError_ok loaded)

/-- Whatever the parsers are, as long as they repeat no key: each model that is loaded was read from
a document that repeats none. -/
theorem Repository.loadModels_isRead {r : Repository} {files : Files} {models : List Model}
    (keyed : parsers.Keyed) (loaded : (r.loadModels parsers files).outcome = .ok models) :
    ∀ m ∈ models, m.IsRead := by
  obtain ⟨before, _, _, _, _, ⟨_, outcome⟩ | ⟨_, _, _, _, _, _, outcome⟩⟩ :=
    loadModels_run parsers r files
  · obtain rfl := Except.ok.inj (outcome.symm.trans loaded)
    refine List.forall_mem_flatMap.mpr fun s _ => ?_
    unfold kept
    split
    · next read => exact Source.models_isRead keyed read
    · exact List.forall_mem_nil _
  · rw [outcome] at loaded
    cases loaded

end Documents

end ApiLoom
