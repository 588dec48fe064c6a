import ApiLoom.Document.Value

/-!
# Looking up entries

`put` changes what stands at its key and nothing else.
-/

namespace ApiLoom.Entries

theorem sameKey_text {k : Scalar} {key : String} :
    k.sameKey (.text key) = true ↔ k = .text key := by
  cases k with
  | float x => cases h : x.toInt? <;> simp [Scalar.sameKey, Scalar.keyForm, h]
  | _ => simp [Scalar.sameKey, Scalar.keyForm]

theorem find?_replace {key other : String} (apart : other ≠ key) (value : Value)
    (entries : Entries) :
    (entries.map fun e => if e.1.sameKey (.text key) then (e.1, value) else e).find?
      (fun e => e.1 = .text other) = entries.find? fun e => e.1 = .text other := by
  induction entries with
  | nil => rfl
  | cons e rest ih =>
    by_cases h : e.1 = .text key
    · have other_ne : e.1 ≠ .text other := fun same => apart (by simpa [h] using same.symm)
      rw [List.map_cons, if_pos (sameKey_text.mpr h),
        List.find?_cons_of_neg (by simpa using other_ne), ih,
        List.find?_cons_of_neg (by simpa using other_ne)]
    · rw [List.map_cons, if_neg (fun same => h (sameKey_text.mp same)), List.find?_cons,
        List.find?_cons, ih]

theorem get?_put_self (entries : Entries) (key : String) (value : Value) :
    (entries.put (.text key) value).get? key = some value := by
  unfold put get?
  split
  · next present =>
    induction entries with
    | nil => simp at present
    | cons e rest ih =>
      by_cases h : e.1 = .text key
      · simp [h, sameKey_text]
      · have later : (rest.any fun e => e.1.sameKey (.text key)) = true := by
          simpa [sameKey_text, h] using present
        simp only [List.map_cons]
        rw [if_neg (by simpa [sameKey_text] using h), List.find?_cons_of_neg (by simpa using h)]
        exact ih later
  · next absent =>
    simp only [List.any_eq_true, sameKey_text, not_exists, not_and] at absent
    rw [List.find?_append, List.find?_eq_none.mpr (by simpa using absent)]
    simp

theorem get?_put_of_ne {key other : String} (apart : other ≠ key) (entries : Entries)
    (value : Value) : (entries.put (.text key) value).get? other = entries.get? other := by
  unfold put get?
  split
  · rw [find?_replace apart]
  · simp [List.find?_append, Ne.symm apart]

end ApiLoom.Entries
