import ApiLoom.Naming

/-!
# Generated names

Which names that are made from the names of models can meet.  Two root fields have
one name only where they are the same field of models with one name, or with one
plural; a field for the results of queued requests also has the name of the read of
a model that is named for it.
-/

namespace ApiLoom

/-! ### Words -/

namespace RootField

variable {f g : RootField} {s t : String}

/-- No two words start with the same letter. -/
theorem eq_of_word_append (same : f.word ++ s = g.word ++ t) : f = g := by
  have first (f : RootField) (s : String) : (f.word ++ s).toList.head? = f.word.toList.head? := by
    cases f <;> simp [word]
  have heads : f.word.toList.head? = g.word.toList.head? := by
    rw [← first f s, same, first]
  revert heads
  cases f <;> cases g <;> decide

theorem eq_of_capitalized_append (same : f.capitalized ++ s = g.capitalized ++ t) : f = g := by
  have first (f : RootField) (s : String) :
      (f.capitalized ++ s).toList.head? = f.capitalized.toList.head? := by
    cases f <;> simp [capitalized]
  have heads : f.capitalized.toList.head? = g.capitalized.toList.head? := by
    rw [← first f s, same, first]
  revert heads
  cases f <;> cases g <;> decide

end RootField

namespace Naming

variable {a b : String} {f g : RootField}

/-! ### Fields -/

/-- What the name of a root field says about its model. -/
def rootStem (model : String) (field : RootField) : String :=
  match field with
  | .list => plural model
  | _ => model

theorem rootField_eq (model : String) (field : RootField) :
    rootField model field = field.word ++ rootStem model field := by
  cases field <;> rfl

theorem rootField_inj : rootField a f = rootField b g ↔ f = g ∧ rootStem a f = rootStem b g := by
  rw [rootField_eq, rootField_eq]
  constructor
  · intro same
    obtain rfl := RootField.eq_of_word_append same
    exact ⟨rfl, (String.append_right_inj _).mp same⟩
  · rintro ⟨rfl, stems⟩
    rw [stems]

theorem rootField_eq_jobResultField :
    rootField a f = jobResultField b ↔ f = .get ∧ a = b ++ "JobResult" := by
  have read : jobResultField b = rootField (b ++ "JobResult") .get := String.append_assoc ..
  rw [read, rootField_inj]
  constructor
  · rintro ⟨rfl, stems⟩
    exact ⟨rfl, stems⟩
  · rintro ⟨rfl, stems⟩
    exact ⟨rfl, stems⟩

theorem jobResultField_inj : jobResultField a = jobResultField b ↔ a = b := by
  rw [jobResultField, jobResultField, String.append_left_inj, String.append_right_inj]

theorem rootField_ne_publish : rootField a f ≠ publishJobResultField := by
  rw [rootField_eq]
  intro same
  have letters := congrArg String.toList same
  cases f <;> simp [RootField.word, publishJobResultField] at letters

theorem subscriptionField_inj : subscriptionField a f = subscriptionField b g ↔ f = g ∧ a = b := by
  constructor
  · intro same
    have tails : f.capitalized ++ a = g.capitalized ++ b := by
      rwa [subscriptionField, subscriptionField, String.append_assoc, String.append_assoc,
        String.append_right_inj] at same
    obtain rfl := RootField.eq_of_capitalized_append tails
    exact ⟨rfl, (String.append_right_inj _).mp tails⟩
  · rintro ⟨rfl, rfl⟩
    rfl

theorem subscriptionField_ne_completed : subscriptionField a f ≠ jobCompletedField := by
  intro same
  have letters := congrArg String.toList same
  cases f <;> simp [subscriptionField, RootField.capitalized, jobCompletedField] at letters

theorem localTimeField_inj : localTimeField a = localTimeField b ↔ a = b :=
  String.append_left_inj _

/-! ### Types -/

theorem connectionType_inj : connectionType a = connectionType b ↔ a = b :=
  String.append_left_inj _

theorem inputType_inj : inputType a f = inputType b g ↔ f = g ∧ a = b := by
  constructor
  · intro same
    have starts : f.capitalized ++ a = g.capitalized ++ b :=
      (String.append_left_inj _).mp same
    obtain rfl := RootField.eq_of_capitalized_append starts
    exact ⟨rfl, (String.append_right_inj _).mp starts⟩
  · rintro ⟨rfl, rfl⟩
    rfl

theorem inputType_ne_connectionType : inputType a f ≠ connectionType b := by
  intro same
  have ends := congrArg (fun s => s.toList.reverse) same
  simp [inputType, connectionType] at ends

end Naming

end ApiLoom
