import ApiLoom.Document.Lemmas

/-!
# Comparing and changing values

Values are compared as a whole, down to the last entry.  A template also changes
maps, counts some values as false, and writes values in the typed notation of the
document store.
-/

namespace ApiLoom

/-! ### Equality -/

namespace Value

mutual

def same : Value → Value → Bool
  | scalar a, scalar b => a = b
  | list as, list bs => sameItems as bs
  | map as, map bs => sameEntries as bs
  | _, _ => false

def sameItems : List Value → List Value → Bool
  | [], [] => true
  | a :: as, b :: bs => a.same b && sameItems as bs
  | _, _ => false

def sameEntries : List (Scalar × Value) → List (Scalar × Value) → Bool
  | [], [] => true
  | (k, a) :: as, (l, b) :: bs => k = l && a.same b && sameEntries as bs
  | _, _ => false

end

mutual

theorem same_iff (a b : Value) : a.same b = true ↔ a = b := by
  cases a <;> cases b <;> simp [same, sameItems_iff, sameEntries_iff]

theorem sameItems_iff (as bs : List Value) : sameItems as bs = true ↔ as = bs := by
  cases as with
  | nil => cases bs <;> simp [sameItems]
  | cons a rest => cases bs <;> simp [sameItems, same_iff a, sameItems_iff rest]

theorem sameEntries_iff (as bs : List (Scalar × Value)) : sameEntries as bs = true ↔ as = bs := by
  cases as with
  | nil => cases bs <;> simp [sameEntries]
  | cons a rest =>
    obtain ⟨k, v⟩ := a
    cases bs with
    | nil => simp [sameEntries]
    | cons b others =>
      obtain ⟨l, w⟩ := b
      simp [sameEntries, same_iff v, sameEntries_iff rest]

end

instance : DecidableEq Value := fun a b => decidable_of_iff (a.same b = true) (same_iff a b)

/-! ### Parts -/

/-- Every value but null and false. -/
def isTrue : Value → Bool
  | scalar .null => false
  | scalar (.bool b) => b
  | _ => true

def entries : Value → Entries
  | map es => es
  | _ => []

def put (v : Value) (key : String) (w : Value) : Value :=
  match v with
  | map es => map (Entries.put es (.text key) w)
  | other => other

def add (v w : Value) : Value :=
  match v with
  | list items => list (items ++ [w])
  | other => other

@[simp] theorem isTrue_bool (b : Bool) : (bool b).isTrue = b := rfl

@[simp] theorem isTrue_null : null.isTrue = false := rfl

@[simp] theorem isTrue_text (s : String) : (text s).isTrue = true := rfl

@[simp] theorem isTrue_map (es : Entries) : (map es).isTrue = true := rfl

@[simp] theorem isTrue_list (vs : List Value) : (list vs).isTrue = true := rfl

@[simp] theorem field_map (es : Entries) (key : String) :
    (map es).field key = (es.get? key).getD null := rfl

/-! ### Typed notation -/

mutual

/-- The value under the tag of its type. -/
def typed : Value → Value
  | scalar .null => object [("NULL", bool true)]
  | scalar (.bool b) => object [("BOOL", bool b)]
  | scalar (.int i) => object [("N", int i)]
  | scalar (.float x) => object [("N", scalar (.float x))]
  | scalar (.text s) => object [("S", text s)]
  | scalar (.day d) => object [("S", scalar (.day d))]
  | scalar (.moment t) => object [("S", scalar (.moment t))]
  | list vs => object [("L", list (typedItems vs))]
  | map es => object [("M", map (typedEntries es))]

def typedItems : List Value → List Value
  | [] => []
  | v :: rest => v.typed :: typedItems rest

def typedEntries : List (Scalar × Value) → List (Scalar × Value)
  | [] => []
  | (k, v) :: rest => (k, v.typed) :: typedEntries rest

end

mutual

/-- A value can be read back from the typed notation. -/
theorem typed_inj {v w : Value} (same : v.typed = w.typed) : v = w := by
  cases v with
  | scalar a =>
    cases w with
    | scalar b => cases a <;> cases b <;> simp_all [typed, object]
    | list | map => cases a <;> simp [typed, object] at same
  | list vs =>
    cases w with
    | list ws =>
      have items : typedItems vs = typedItems ws := by simpa [typed, object] using same
      rw [typedItems_inj items]
    | scalar b => cases b <;> simp [typed, object] at same
    | map => simp [typed, object] at same
  | map es =>
    cases w with
    | map fs =>
      have entries : typedEntries es = typedEntries fs := by simpa [typed, object] using same
      rw [typedEntries_inj entries]
    | scalar b => cases b <;> simp [typed, object] at same
    | list => simp [typed, object] at same

theorem typedItems_inj {vs ws : List Value} (same : typedItems vs = typedItems ws) : vs = ws := by
  cases vs with
  | nil => cases ws <;> simp_all [typedItems]
  | cons v rest =>
    cases ws with
    | nil => simp [typedItems] at same
    | cons w others =>
      obtain ⟨first, later⟩ := List.cons.inj same
      rw [typed_inj first, typedItems_inj later]

theorem typedEntries_inj {es fs : List (Scalar × Value)}
    (same : typedEntries es = typedEntries fs) : es = fs := by
  cases es with
  | nil => cases fs <;> simp_all [typedEntries]
  | cons e rest =>
    cases fs with
    | nil => simp [typedEntries] at same
    | cons f others =>
      obtain ⟨k, v⟩ := e
      obtain ⟨l, w⟩ := f
      simp only [typedEntries, List.cons.injEq, Prod.mk.injEq] at same
      obtain ⟨⟨rfl, first⟩, later⟩ := same
      rw [typed_inj first, typedEntries_inj later]

end

theorem typed_eq_iff {v w : Value} : v.typed = w.typed ↔ v = w :=
  ⟨typed_inj, congrArg typed⟩

end Value

/-! ### Entries that are set one after the other -/

namespace Entries

theorem has_eq_isSome (entries : Entries) (key : String) :
    entries.has key = (entries.get? key).isSome := by
  rw [Bool.eq_iff_iff]
  simp [has, get?]

@[simp] theorem get?_nil (key : String) : get? [] key = none := rfl

/-- Sets all of some entries; of entries with one key, the last one stands. -/
def putAll (entries : Entries) (added : List (String × Value)) : Entries :=
  added.foldl (fun es e => es.put (.text e.1) e.2) entries

theorem putAll_append (entries : Entries) (first second : List (String × Value)) :
    entries.putAll (first ++ second) = (entries.putAll first).putAll second :=
  List.foldl_append

theorem get?_putAll_of_absent {key : String} {added : List (String × Value)}
    (absent : ∀ e ∈ added, e.1 ≠ key) (entries : Entries) :
    (entries.putAll added).get? key = entries.get? key := by
  induction added generalizing entries with
  | nil => rfl
  | cons e rest ih =>
    have later : ∀ e ∈ rest, e.1 ≠ key := fun e member => absent e (List.mem_cons_of_mem _ member)
    have apart : key ≠ e.1 := (absent e List.mem_cons_self).symm
    exact (ih later _).trans (get?_put_of_ne apart entries e.2)

theorem get?_putAll {key : String} {v : Value} (before : List (String × Value))
    {after : List (String × Value)} (absent : ∀ e ∈ after, e.1 ≠ key) (entries : Entries) :
    (entries.putAll (before ++ (key, v) :: after)).get? key = some v := by
  rw [putAll_append]
  exact (get?_putAll_of_absent absent _).trans (get?_put_self _ key v)

/-- Where all of the entries of a key have one value, it does not matter which one stands. -/
theorem get?_putAll_of_agree {key : String} {v : Value} {added : List (String × Value)}
    (listed : ∃ e ∈ added, e.1 = key) (agree : ∀ e ∈ added, e.1 = key → e.2 = v)
    (entries : Entries) : (entries.putAll added).get? key = some v := by
  induction added generalizing entries with
  | nil => simp at listed
  | cons e rest ih =>
    obtain ⟨first, later⟩ := List.forall_mem_cons.mp agree
    by_cases again : ∃ e ∈ rest, e.1 = key
    · exact ih again later _
    · have absent : ∀ e ∈ rest, e.1 ≠ key := fun e member same => again ⟨e, member, same⟩
      have last : e.1 = key := by
        obtain ⟨d, member, same⟩ := listed
        rcases List.mem_cons.mp member with rfl | member
        · exact same
        · exact absurd same (absent d member)
      have set : entries.putAll (e :: rest) = (entries.put (.text key) v).putAll rest := by
        rw [← last, ← first last]
        rfl
      rw [set, get?_putAll_of_absent absent, get?_put_self]

theorem get?_putAll_map (f : String → Value) (names : List String) (entries : Entries)
    (key : String) : (entries.putAll (names.map fun name => (name, f name))).get? key =
      if key ∈ names then some (f key) else entries.get? key := by
  split
  · next listed =>
    refine get?_putAll_of_agree ⟨_, List.mem_map_of_mem listed, rfl⟩
      (fun e member same => ?_) entries
    obtain ⟨name, _, rfl⟩ := List.mem_map.mp member
    exact congrArg f same
  · next absent =>
    refine get?_putAll_of_absent (fun e member same => ?_) entries
    obtain ⟨name, listed, rfl⟩ := List.mem_map.mp member
    exact absent (same ▸ listed)

end Entries

end ApiLoom
