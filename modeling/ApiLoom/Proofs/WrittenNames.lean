import ApiLoom.Proofs.Admission
import ApiLoom.Proofs.Names
import Mathlib.Data.List.Infix

/-!
# Written names

The names of a model are letters and digits, and so are those that are made of them.  Only at
its end may a name have a line feed.
-/

namespace ApiLoom

/-! ### Letters and digits -/

namespace Text

def isNameChar (c : Char) : Bool := isLetterOrDigit c || c = '_' || c = '\n'

def IsName (s : String) : Prop := ∀ c ∈ s.toList, isNameChar c = true

instance (s : String) : Decidable (IsName s) :=
  decidable_of_iff (s.toList.all isNameChar = true) List.all_eq_true

theorem isName_of_isIdentifier {s : String} (identifier : isIdentifier s = true) : IsName s :=
  fun _ member => isIdentifier_char identifier member

namespace IsName

variable {s t : String}

theorem append (first : IsName s) (second : IsName t) : IsName (s ++ t) := by
  intro c member
  rw [String.toList_append] at member
  rcases List.mem_append.mp member with left | right
  · exact first c left
  · exact second c right

theorem notMem {c : Char} (name : IsName s) (other : isNameChar c = false) : c ∉ s.toList :=
  fun member => absurd (name c member) (by simp [other])

theorem isNameChar_small {c : Char} (name : isNameChar c = true) : c.toNat < 128 := by
  simp only [isNameChar, isLetterOrDigit, isLetter, isUpperLetter, Bool.or_eq_true,
    Bool.and_eq_true, decide_eq_true_eq] at name
  have below {d : Char} (le : c ≤ d) (small : d.toNat < 128) : c.toNat < 128 :=
    Nat.lt_of_le_of_lt (UInt32.le_iff_toNat_le.mp le) small
  rcases name with (((⟨_, upper⟩ | ⟨_, lower⟩) | ⟨_, digit⟩) | rfl) | rfl
  · exact below upper (by decide)
  · exact below lower (by decide)
  · exact below digit (by decide)
  · decide
  · decide

theorem isNameChar_toLower {c : Char} (name : isNameChar c = true) :
    isNameChar (lowerChar c) = true := by
  have small := isNameChar_small name
  have all : ∀ n < 128, isNameChar (Char.ofNat n) = true →
      isNameChar (Char.ofNat n).toLower = true := by decide
  have ascii : c.toNat < 0x80 := small
  rw [lowerChar, if_pos ascii]
  have held := all c.toNat small
  rw [Char.ofNat_toNat] at held
  exact held name

theorem lower (name : IsName s) : IsName (Text.lower s) := by
  have mapped : ∀ seen cs, (∀ c ∈ cs, isNameChar c = true) →
      ∀ c ∈ lowerFrom seen cs, isNameChar c = true := by
    intro seen cs
    induction cs generalizing seen with
    | nil => simp [lowerFrom]
    | cons c rest ih =>
      intro each d member
      have first := each c List.mem_cons_self
      have small := isNameChar_small first
      rw [lowerFrom, if_neg (by omega), if_neg (by omega)] at member
      rcases List.mem_append.mp member with here | later
      · rw [List.mem_singleton.mp here]
        exact isNameChar_toLower first
      · exact ih _ (fun e listed => each e (List.mem_cons_of_mem _ listed)) d later
  rw [Text.lower, IsName, String.toList_ofList]
  exact mapped [] _ name

theorem plural (name : IsName s) : IsName (Naming.plural s) := by
  have irregular : ∀ p ∈ Naming.irregularPlurals, IsName p.2 ∧ IsName (Naming.capitalize p.2) := by
    decide
  have ended {ending : String} (letters : IsName ending) : IsName (s ++ ending) :=
    name.append letters
  unfold Naming.plural
  split
  · exact fun c member => absurd member (by simp)
  · dsimp only
    split
    · next found =>
      have listed := irregular _ (List.mem_of_find?_eq_some found)
      split
      · exact listed.2
      · exact listed.1
    · split
      · exact ended (by decide)
      · split
        · split
          · refine append (fun c member => ?_) (by decide)
            rw [String.toList_ofList] at member
            exact name c (List.mem_of_mem_dropLast member)
          · exact ended (by decide)
        · exact ended (by decide)

end IsName

end Text

/-! ### Names of models -/

namespace Model.IsDecoded

variable {m : Model} {config : Config} {operation : Operation}

theorem name_isName (decoded : m.IsDecoded) : Text.IsName m.name :=
  Text.isName_of_isIdentifier decoded.parts.1

theorem rootField_isName (decoded : m.IsDecoded) (field : RootField) :
    Text.IsName (Naming.rootField m.name field) := by
  have word : Text.IsName field.word := by
    cases field <;> decide
  rw [Naming.rootField_eq]
  refine word.append ?_
  unfold Naming.rootStem
  split
  · exact decoded.name_isName.plural
  · exact decoded.name_isName

theorem property_isName (decoded : m.IsDecoded) {p : Property} (member : p ∈ m.properties) :
    Text.IsName p.name :=
  Text.isName_of_isIdentifier (decoded.property_identifier member)

theorem declared_isName (decoded : m.IsDecoded) {name : String}
    (declared : m.hasProperty name = true) : Text.IsName name :=
  Text.isName_of_isIdentifier (decoded.declared_identifier declared)

theorem owner_isName (decoded : m.IsDecoded) {owner : String}
    (owned : m.ownerField = some owner) : Text.IsName owner :=
  Text.isName_of_isIdentifier (decoded.owner_identifier owned)

theorem timestamps_isName (decoded : m.IsDecoded) (config : Config) :
    ∀ t ∈ m.timestamps config, Text.IsName t := by
  intro t member
  exact decoded.declared_isName (List.mem_filter.mp member).2

theorem writableFields_isName (decoded : m.IsDecoded) (config : Config) :
    ∀ t ∈ m.writableFields config, Text.IsName t := by
  intro t member
  obtain ⟨p, listed, rfl⟩ := List.mem_map.mp member
  exact decoded.property_isName (List.mem_of_mem_filter listed)

theorem localTimeFields_isName (decoded : m.IsDecoded) (config : Config) :
    ∀ t ∈ m.localTimeFields config, Text.IsName t := by
  intro t member
  unfold localTimeFields at member
  split at member
  · obtain ⟨p, listed, rfl⟩ := List.mem_map.mp member
    exact decoded.property_isName (List.mem_of_mem_filter listed)
  · cases member

theorem ownerGuard_isName (decoded : m.IsDecoded) (gated : Bool) :
    ∀ owner ∈ m.ownerGuard gated, Text.IsName owner := by
  intro owner guarded
  unfold ownerGuard at guarded
  split at guarded
  · exact decoded.owner_isName guarded
  · cases guarded

theorem guardedOwner_isName (decoded : m.IsDecoded) :
    ∀ owner ∈ m.guardedOwner operation, Text.IsName owner := by
  intro owner guarded
  obtain ⟨_, owned, _⟩ := guardedOwner_eq_some_iff.mp guarded
  exact decoded.owner_isName owned

end Model.IsDecoded

end ApiLoom
