import ApiLoom.Document.Json.Printer
import ApiLoom.Document.Lemmas
import ApiLoom.Proofs.JsonTexts

/-!
# Documents that are read back

A value that is built from texts is read back from what was printed for it, whatever stands behind
it.  With the members in the order of their names, it is read as the same value in this order.
-/

namespace ApiLoom

/-- Built from texts and nulls, with a name for each member of a mapping. -/
inductive Value.IsTextual : Value → Prop where
  | null : IsTextual .null
  | text (s : String) : IsTextual (.text s)
  | list {items : List Value} (each : ∀ v ∈ items, IsTextual v) : IsTextual (.list items)
  | object {members : List (String × Value)} (apart : (members.map (·.1)).Nodup)
      (each : ∀ m ∈ members, IsTextual m.2) : IsTextual (.object members)

/-- Members as the entries of a mapping. -/
def memberEntries (members : List (String × Value)) : Entries :=
  members.map fun m => (.text m.1, m.2)

theorem Value.object_eq (members : List (String × Value)) :
    Value.object members = .map (memberEntries members) := rfl

theorem memberEntries_append (members more : List (String × Value)) :
    memberEntries (members ++ more) = memberEntries members ++ memberEntries more :=
  List.map_append

theorem Entries.put_new {members : List (String × Value)} {key : String}
    (new : key ∉ members.map (·.1)) (v : Value) :
    (memberEntries members).put (.text key) v = memberEntries (members ++ [(key, v)]) := by
  have absent : ¬ ((memberEntries members).any fun e => e.1.sameKey (.text key)) = true := by
    intro found
    obtain ⟨e, listed, same⟩ := List.any_eq_true.mp found
    obtain ⟨m, member, rfl⟩ := List.mem_map.mp listed
    obtain rfl : m.1 = key := by simpa using Entries.sameKey_text.mp same
    exact new (List.mem_map_of_mem member)
  rw [Entries.put, if_neg absent, memberEntries_append]
  rfl

/-- Behind the first of some texts, each of the others stands behind a separator. -/
theorem Text.toList_separated (separator first : String) (rest : List String) :
    (String.intercalate separator (first :: rest)).toList =
      first.toList ++ rest.flatMap fun s => separator.toList ++ s.toList := by
  induction rest generalizing first with
  | nil => simp
  | cons next rest ih =>
    rw [String.intercalate_cons_cons, String.toList_append, String.toList_append, ih]
    simp

namespace Json

open Text (quote)

/-! ### Blanks -/

theorem skip_of_head {c : Char} (filled : isPadding c = false) (cs : List Char) :
    skip (c :: cs) = c :: cs := by
  rw [skip, List.dropWhile_cons_of_neg (by simp [filled])]

theorem skip_lineStart (depth : Nat) (cs : List Char) :
    skip ((lineStart depth).toList ++ cs) = skip cs := by
  unfold skip lineStart
  rw [String.toList_ofList]
  apply List.dropWhile_append_of_pos
  intro c member
  rcases List.mem_cons.mp member with rfl | blank
  · rfl
  · rw [List.eq_of_mem_replicate blank]
    rfl

/-! ### Printed lists and mappings -/

/-- Texts in a row, each behind a comma. -/
def behindCommas {α : Type} (part : α → List Char) (parts : List α) : List Char :=
  parts.flatMap fun x => ',' :: part x

theorem behindCommas_cons {α : Type} (part : α → List Char) (x : α) (parts : List α) :
    behindCommas part (x :: parts) = ',' :: (part x ++ behindCommas part parts) := rfl

theorem behindCommas_eq {α : Type} {part : α → List Char} {texts : List String} {items : List α}
    (same : texts.map String.toList = items.map part) :
    behindCommas String.toList texts = behindCommas part items := by
  unfold behindCommas
  rw [← List.flatMap_map (f := String.toList) (g := fun cs => ',' :: cs), same, List.flatMap_map]

theorem toList_commas (first : String) (rest : List String) :
    (String.intercalate "," (first :: rest)).toList =
      first.toList ++ behindCommas String.toList rest :=
  Text.toList_separated "," first rest

def itemText (depth : Nat) (v : Value) : List Char :=
  (lineStart depth).toList ++ (printAt quote depth v).toList

def memberText (depth : Nat) (m : String × Value) : List Char :=
  (lineStart depth).toList ++
    ((quote m.1).toList ++ (':' :: ' ' :: (printAt quote depth m.2).toList))

theorem printItems_eq (depth : Nat) (items : List Value) :
    (printItems quote depth items).map String.toList = items.map (itemText depth) := by
  induction items with
  | nil => rfl
  | cons v rest ih => simp [printItems, itemText, ih]

theorem printEntries_eq (depth : Nat) (members : List (String × Value)) :
    (printEntries quote depth (memberEntries members)).map String.toList =
      members.map (memberText depth) := by
  induction members with
  | nil => rfl
  | cons m rest ih =>
    have later : (printEntries quote depth (rest.map fun m => (.text m.1, m.2))).map
        String.toList = rest.map (memberText depth) := ih
    simp [memberEntries, printEntries, memberText, keyText, later]

theorem printed_list (depth : Nat) (v : Value) (items : List Value) :
    (printAt quote depth (.list (v :: items))).toList =
      '[' :: (itemText (depth + 1) v ++ (behindCommas (itemText (depth + 1)) items ++
        ((lineStart depth).toList ++ [']']))) := by
  have parts := behindCommas_eq (printItems_eq (depth + 1) items)
  rw [printAt]
  · rw [printItems, String.toList_append, String.toList_append, String.toList_append,
      toList_commas, parts]
    simp [itemText]
  · simp

theorem printed_object (depth : Nat) (m : String × Value) (members : List (String × Value)) :
    (printAt quote depth (.object (m :: members))).toList =
      '{' :: (memberText (depth + 1) m ++ (behindCommas (memberText (depth + 1)) members ++
        ((lineStart depth).toList ++ ['}']))) := by
  have parts := behindCommas_eq (printEntries_eq (depth + 1) members)
  have entries : memberEntries (m :: members) = (.text m.1, m.2) :: memberEntries members := rfl
  rw [Value.object_eq, entries, printAt]
  · rw [printEntries, String.toList_append, String.toList_append, String.toList_append,
      toList_commas, parts]
    simp [memberText, keyText]
  · simp

/-! ### Reading values -/

theorem quote_append (s : String) (rest : List Char) :
    (quote s).toList ++ rest = '"' :: (s.toList.flatMap Text.Quoted.encodeChar ++ '"' :: rest) := by
  simp [quote, Text.Quoted.encode]

theorem readValue_text (fuel : Nat) (s : String) (rest : List Char) :
    readValue (fuel + 1) ((quote s).toList ++ rest) = .ok (.text s, rest) := by
  rw [quote_append, readValue, readText_encode, List.reverse_nil, List.nil_append,
    String.ofList_toList]
  rfl

theorem readValue_list {fuel : Nat} {cs : List Char} (filled : ∀ rest, skip cs ≠ ']' :: rest) :
    readValue (fuel + 1) ('[' :: cs) = readItems fuel [] (skip cs) := by
  rw [readValue]
  split
  · next rest same => exact absurd same (filled rest)
  · rfl

theorem readValue_object {fuel : Nat} {cs : List Char} (filled : ∀ rest, skip cs ≠ '}' :: rest) :
    readValue (fuel + 1) ('{' :: cs) = readMembers fuel [] (skip cs) := by
  rw [readValue]
  split
  · next rest same => exact absurd same (filled rest)
  · rfl

section Steps

variable {fuel : Nat} {cs tail rest : List Char} {v : Value}

theorem readItems_last (first : readValue fuel cs = .ok (v, tail))
    (closes : skip tail = ']' :: rest) (seen : List Value) :
    readItems (fuel + 1) seen cs = .ok (.list (seen.reverse ++ [v]), rest) := by
  rw [readItems, first]
  simp only [closes, List.reverse_cons]

theorem readItems_next (first : readValue fuel cs = .ok (v, tail)) (goes : skip tail = ',' :: rest)
    (seen : List Value) :
    readItems (fuel + 1) seen cs = readItems fuel (v :: seen) (skip rest) := by
  rw [readItems, first]
  simp only [goes]

variable {key : String}

theorem readMembers_last (first : readValue fuel cs = .ok (v, tail))
    (closes : skip tail = '}' :: rest) (blank : skip (' ' :: cs) = cs) (entries : Entries) :
    readMembers (fuel + 1) entries ((quote key).toList ++ ':' :: ' ' :: cs) =
      .ok (.map (entries.put (.text key) v), rest) := by
  rw [quote_append, readMembers, readText_encode]
  dsimp only
  rw [skip_of_head (by decide)]
  simp only [blank, first, closes, List.reverse_nil, List.nil_append, String.ofList_toList]

theorem readMembers_next (first : readValue fuel cs = .ok (v, tail))
    (goes : skip tail = ',' :: rest) (blank : skip (' ' :: cs) = cs) (entries : Entries) :
    readMembers (fuel + 1) entries ((quote key).toList ++ ':' :: ' ' :: cs) =
      readMembers fuel (entries.put (.text key) v) (skip rest) := by
  rw [quote_append, readMembers, readText_encode]
  dsimp only
  rw [skip_of_head (by decide)]
  simp only [blank, first, goes, List.reverse_nil, List.nil_append, String.ofList_toList]

end Steps

/-- How the text of a value begins. -/
def openings : List Char := ['n', '"', '[', '{']

theorem openings_filled :
    ∀ c ∈ openings, isPadding c = false ∧ c ≠ ']' ∧ c.toNat ≠ 0xfeff := by
  intro c opening
  simp only [openings, List.mem_cons, List.not_mem_nil, or_false] at opening
  rcases opening with rfl | rfl | rfl | rfl <;> decide

/-- The value is read from its own text, whatever stands behind it. -/
structure Readable (v : Value) : Prop where
  starts : ∀ depth, ∃ c ∈ openings, ∃ rest, (printAt quote depth v).toList = c :: rest
  reads : ∀ depth fuel rest, 2 * (printAt quote depth v).toList.length ≤ fuel →
    readValue fuel ((printAt quote depth v).toList ++ rest) = .ok (v, rest)

namespace Readable

variable {v : Value}

theorem skip_value (readable : Readable v) (depth : Nat) (rest : List Char) :
    skip ((printAt quote depth v).toList ++ rest) = (printAt quote depth v).toList ++ rest := by
  obtain ⟨c, opening, cs, starts⟩ := readable.starts depth
  rw [starts, List.cons_append, skip_of_head (openings_filled c opening).1]

theorem skip_blank (readable : Readable v) (depth : Nat) (rest : List Char) :
    skip (' ' :: ((printAt quote depth v).toList ++ rest)) =
      (printAt quote depth v).toList ++ rest := by
  have blank : isPadding ' ' = true := rfl
  calc skip (' ' :: ((printAt quote depth v).toList ++ rest))
      = skip ((printAt quote depth v).toList ++ rest) := List.dropWhile_cons_of_pos blank
    _ = _ := readable.skip_value depth rest

theorem skip_item (readable : Readable v) (depth : Nat) (rest : List Char) :
    skip (itemText depth v ++ rest) = (printAt quote depth v).toList ++ rest := by
  rw [itemText, List.append_assoc, skip_lineStart, readable.skip_value]

/-- The items from the first on, at its first character. -/
theorem readItems_text {items : List Value} (readable : Readable v)
    (each : ∀ w ∈ items, Readable w) (depth fuel outer : Nat) (seen : List Value) (rest : List Char)
    (enough : 2 * ((printAt quote depth v).toList ++
      behindCommas (itemText depth) items).length < fuel) :
    readItems fuel seen ((printAt quote depth v).toList ++
      (behindCommas (itemText depth) items ++ ((lineStart outer).toList ++ ']' :: rest))) =
        .ok (.list (seen.reverse ++ v :: items), rest) := by
  induction items generalizing v fuel seen with
  | nil =>
    cases fuel with
    | zero => omega
    | succ fuel =>
      simp only [behindCommas, List.flatMap_nil, List.append_nil, List.nil_append] at enough ⊢
      have closes : skip ((lineStart outer).toList ++ ']' :: rest) = ']' :: rest := by
        rw [skip_lineStart, skip_of_head (by decide)]
      exact readItems_last (readable.reads depth fuel _ (by omega)) closes seen
  | cons w items ih =>
    cases fuel with
    | zero => omega
    | succ fuel =>
      obtain ⟨next, later⟩ := List.forall_mem_cons.mp each
      rw [behindCommas_cons] at enough ⊢
      simp only [itemText, List.length_append, List.length_cons] at enough
      have goes := skip_of_head (c := ',') (by decide) (itemText depth w ++
        behindCommas (itemText depth) items ++ ((lineStart outer).toList ++ ']' :: rest))
      rw [List.cons_append, readItems_next (readable.reads depth fuel _ (by omega)) goes,
        List.append_assoc, next.skip_item,
        ih next later fuel (v :: seen) (by simp only [List.length_append]; omega),
        List.reverse_cons, List.append_assoc]
      rfl

theorem list {items : List Value} (each : ∀ w ∈ items, Readable w) : Readable (.list items) := by
  cases items with
  | nil =>
    have printed : ∀ depth, (printAt quote depth (.list [])).toList = ['[', ']'] := by
      intro depth
      rw [printAt]
      rfl
    refine ⟨fun depth => ⟨'[', by decide, _, printed depth⟩, fun depth fuel rest enough => ?_⟩
    rw [printed] at enough ⊢
    cases fuel with
    | zero => simp at enough
    | succ fuel => rfl
  | cons w items =>
    obtain ⟨first, later⟩ := List.forall_mem_cons.mp each
    constructor
    · intro depth
      exact ⟨'[', by decide, _, printed_list depth w items⟩
    · intro depth fuel rest enough
      rw [printed_list] at enough ⊢
      cases fuel with
      | zero => simp at enough
      | succ fuel =>
        have filled : ∀ more, skip (itemText (depth + 1) w ++
            (behindCommas (itemText (depth + 1)) items ++
              ((lineStart depth).toList ++ ']' :: rest))) ≠ ']' :: more := by
          intro more same
          obtain ⟨c, opening, cs, starts⟩ := first.starts (depth + 1)
          rw [first.skip_item, starts] at same
          exact (openings_filled c opening).2.1 (List.cons.inj same).1
        simp only [itemText, List.length_append, List.length_cons] at enough
        have inner := first.readItems_text later (depth + 1) fuel depth [] rest
          (by simp only [List.length_append]; omega)
        simp only [List.cons_append, List.append_assoc, List.nil_append]
        rw [readValue_list filled, first.skip_item, inner]
        rfl

theorem skip_member (depth : Nat) (m : String × Value) (rest : List Char) :
    skip (memberText depth m ++ rest) =
      (quote m.1).toList ++ ':' :: ' ' :: ((printAt quote depth m.2).toList ++ rest) := by
  have filled : isPadding '"' = false := rfl
  rw [memberText, List.append_assoc, skip_lineStart, List.append_assoc, quote_append,
    skip_of_head filled, quote_append]
  rfl

/-- The members from the first on, behind those seen before. -/
theorem readMembers_text {m : String × Value} {members : List (String × Value)}
    (readable : Readable m.2) (each : ∀ n ∈ members, Readable n.2) (depth fuel outer : Nat)
    (seen : List (String × Value)) (rest : List Char)
    (apart : ((seen ++ m :: members).map (·.1)).Nodup)
    (enough : 2 * (memberText depth m ++ behindCommas (memberText depth) members).length < fuel) :
    readMembers fuel (memberEntries seen) (skip (memberText depth m ++
      (behindCommas (memberText depth) members ++ ((lineStart outer).toList ++ '}' :: rest)))) =
        .ok (.object (seen ++ m :: members), rest) := by
  have new : ∀ {before : List (String × Value)} {n : String × Value} {behind},
      ((before ++ n :: behind).map (·.1)).Nodup → n.1 ∉ before.map (·.1) := by
    intro before n behind apart member
    rw [List.map_append, List.map_cons, List.nodup_append] at apart
    exact apart.2.2 _ member _ List.mem_cons_self rfl
  induction members generalizing m fuel seen with
  | nil =>
    cases fuel with
    | zero => omega
    | succ fuel =>
      simp only [behindCommas, memberText, List.flatMap_nil, List.append_nil, List.length_append,
        List.length_cons] at enough
      have closes : skip (behindCommas (memberText depth) [] ++
          ((lineStart outer).toList ++ '}' :: rest)) = '}' :: rest := by
        rw [behindCommas, List.flatMap_nil, List.nil_append, skip_lineStart,
          skip_of_head (by decide)]
      rw [skip_member, readMembers_last (readable.reads depth fuel _ (by omega)) closes
        (readable.skip_blank depth _), Entries.put_new (new apart)]
      rfl
  | cons n members ih =>
    cases fuel with
    | zero => omega
    | succ fuel =>
      obtain ⟨next, later⟩ := List.forall_mem_cons.mp each
      rw [behindCommas_cons] at enough ⊢
      simp only [memberText, List.length_append, List.length_cons] at enough
      have goes := skip_of_head (c := ',') (by decide) (memberText depth n ++
        behindCommas (memberText depth) members ++ ((lineStart outer).toList ++ '}' :: rest))
      have others : ((seen ++ [m] ++ n :: members).map (·.1)).Nodup := by
        rwa [List.append_assoc]
      rw [skip_member, List.cons_append, readMembers_next
          (readable.reads depth fuel _ (by omega)) goes (readable.skip_blank depth _),
        Entries.put_new (new apart), List.append_assoc,
        ih next later fuel (seen ++ [m]) others
          (by simp only [memberText, List.length_append, List.length_cons]; omega),
        List.append_assoc]
      rfl

theorem object {members : List (String × Value)} (apart : (members.map (·.1)).Nodup)
    (each : ∀ m ∈ members, Readable m.2) : Readable (.object members) := by
  cases members with
  | nil =>
    have printed : ∀ depth, (printAt quote depth (.object [])).toList = ['{', '}'] := by
      intro depth
      rw [Value.object_eq, memberEntries, List.map_nil, printAt]
      rfl
    refine ⟨fun depth => ⟨'{', by decide, _, printed depth⟩, fun depth fuel rest enough => ?_⟩
    rw [printed] at enough ⊢
    cases fuel with
    | zero => simp at enough
    | succ fuel => rfl
  | cons m members =>
    obtain ⟨first, later⟩ := List.forall_mem_cons.mp each
    constructor
    · intro depth
      exact ⟨'{', by decide, _, printed_object depth m members⟩
    · intro depth fuel rest enough
      rw [printed_object] at enough ⊢
      cases fuel with
      | zero => simp at enough
      | succ fuel =>
        have filled : ∀ more, skip (memberText (depth + 1) m ++
            (behindCommas (memberText (depth + 1)) members ++
              ((lineStart depth).toList ++ '}' :: rest))) ≠ '}' :: more := by
          intro more same
          rw [skip_member, quote_append] at same
          cases same
        simp only [List.length_append, List.length_cons] at enough
        have inner := first.readMembers_text later (depth + 1) fuel depth [] rest apart
          (by simp only [List.length_append]; omega)
        simp only [List.cons_append, List.append_assoc, List.nil_append]
        rw [readValue_object filled]
        exact inner

end Readable

theorem readable_of_isTextual {v : Value} (textual : v.IsTextual) : Readable v := by
  induction textual with
  | null =>
    have printed : ∀ depth, (printAt quote depth .null).toList = "null".toList := by
      intro depth
      rw [printAt, scalarText]
    refine ⟨fun depth => ⟨'n', by decide, _, printed depth⟩, fun depth fuel rest enough => ?_⟩
    rw [printed] at enough ⊢
    cases fuel with
    | zero => simp at enough
    | succ fuel => exact readValue.eq_5 fuel rest
  | text s =>
    have printed : ∀ depth, (printAt quote depth (.text s)).toList = (quote s).toList := by
      intro depth
      rw [printAt, scalarText]
    have opens : (quote s).toList = '"' :: (s.toList.flatMap Text.Quoted.encodeChar ++ ['"']) := by
      simpa using quote_append s []
    refine ⟨fun depth => ⟨'"', by decide, _, (printed depth).trans opens⟩,
      fun depth fuel rest enough => ?_⟩
    rw [printed] at enough ⊢
    cases fuel with
    | zero => simp [opens] at enough
    | succ fuel => exact readValue_text fuel s rest
  | list each readable => exact .list readable
  | object apart each readable => exact .object apart readable

/-! ### Documents -/

/-- A printed value is a document, with blanks behind it or without. -/
theorem read_printed {v : Value} (textual : v.IsTextual) (trail : String)
    (blank : ∀ c ∈ trail.toList, isPadding c = true) :
    read (printAt quote 0 v ++ trail) = .ok v := by
  have readable := readable_of_isTextual textual
  obtain ⟨c, opening, rest, starts⟩ := readable.starts 0
  have unmarked : c.toNat ≠ 0xfeff := (openings_filled c opening).2.2
  have behind : skip trail.toList = [] := by
    have all : skip (trail.toList ++ []) = [] := List.dropWhile_append_of_pos blank
    rwa [List.append_nil] at all
  have document : readDocument ((printAt quote 0 v).toList ++ trail.toList) = .ok v := by
    have value := readable.reads 0 (2 * ((printAt quote 0 v).toList ++ trail.toList).length + 1)
      trail.toList (by rw [List.length_append]; omega)
    have start := readable.skip_value 0 trail.toList
    rw [starts, List.cons_append] at value start ⊢
    simp only [readDocument, if_neg unmarked, start, value, bind, Except.bind, behind]
  rw [read, String.toList_append, document]

/-! ### Members in the order of their names -/

def byName {α : Type} (a b : String × α) : Bool := !(b.1 < a.1)

theorem sortedItems_eq (items : List Value) : sortedItems items = items.map sorted := by
  induction items with
  | nil => rfl
  | cons v rest ih => rw [sortedItems, ih, List.map_cons]

theorem sortedEntries_eq (members : List (String × Value)) :
    sortedEntries (memberEntries members) =
      memberEntries (members.map fun m => (m.1, sorted m.2)) := by
  induction members with
  | nil => rfl
  | cons m rest ih =>
    have split : memberEntries (m :: rest) = (.text m.1, m.2) :: memberEntries rest := rfl
    rw [split, sortedEntries, ih]
    rfl

theorem sorted_list (items : List Value) : sorted (.list items) = .list (items.map sorted) := by
  rw [sorted, sortedItems_eq]

theorem sorted_object (members : List (String × Value)) :
    sorted (.object members) =
      .object ((members.map fun m => (m.1, sorted m.2)).mergeSort byName) := by
  have order : ∀ entries : List (String × Value), memberEntries (entries.mergeSort byName) =
      (memberEntries entries).mergeSort fun a b => !(keyText b.1 < keyText a.1) :=
    fun entries => List.map_mergeSort fun a _ b _ => rfl
  rw [Value.object_eq, sorted, sortedEntries_eq, Value.object_eq, order]

theorem isTextual_sorted {v : Value} (textual : v.IsTextual) : (sorted v).IsTextual := by
  induction textual with
  | null =>
    rw [sorted]
    exact .null
  | text s =>
    rw [sorted]
    exact .text s
  | @list items each ih =>
    rw [sorted_list]
    apply Value.IsTextual.list
    intro v member
    obtain ⟨w, listed, rfl⟩ := List.mem_map.mp member
    exact ih w listed
  | @object members apart each ih =>
    have order := List.mergeSort_perm (members.map fun m => (m.1, sorted m.2)) byName
    have names : (members.map fun m => (m.1, sorted m.2)).map (·.1) = members.map (·.1) := by
      rw [List.map_map]
      rfl
    rw [sorted_object]
    apply Value.IsTextual.object
    · rw [(order.map _).nodup_iff, names]
      exact apart
    · intro m member
      obtain ⟨n, listed, rfl⟩ := List.mem_map.mp (order.mem_iff.mp member)
      exact ih n listed

/-- What is printed in the order of names is read as the value in this order. -/
theorem read_printSorted {v : Value} (textual : v.IsTextual) :
    read (printSorted v ++ "\n") = .ok (sorted v) := by
  refine read_printed (isTextual_sorted textual) "\n" fun c feed => ?_
  obtain rfl : c = '\n' := by simpa using feed
  rfl

end Json

end ApiLoom
