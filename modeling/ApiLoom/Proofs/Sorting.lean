import Mathlib.Data.List.Nodup

/-!
# Sorting

A list that is sorted by a key does not tell in which order its elements came, as long as no two
of them share their key.
-/

namespace ApiLoom

variable {α : Type}

/-- Sorting undoes a change of order where no two elements are tied. -/
theorem mergeSort_eq_of_perm {le : α → α → Bool}
    (trans : ∀ a b c, le a b = true → le b c = true → le a c = true)
    (total : ∀ a b, (le a b || le b a) = true) {xs ys : List α} (order : xs.Perm ys)
    (untied : ∀ a ∈ xs, ∀ b ∈ xs, le a b = true → le b a = true → a = b) :
    xs.mergeSort le = ys.mergeSort le := by
  refine List.Perm.eq_of_pairwise (fun a b first second => ?_)
    (List.pairwise_mergeSort trans total xs) (List.pairwise_mergeSort trans total ys)
    ((List.mergeSort_perm xs le).trans (order.trans (List.mergeSort_perm ys le).symm))
  exact untied a (List.mem_mergeSort.mp first) b
    (order.mem_iff.mpr (List.mem_mergeSort.mp second))

/-- The case of a key that is a text. -/
theorem mergeSort_key_eq_of_perm (key : α → String) {xs ys : List α} (order : xs.Perm ys)
    (apart : (xs.map key).Nodup) :
    (xs.mergeSort fun a b => decide (key a ≤ key b)) =
      ys.mergeSort fun a b => decide (key a ≤ key b) := by
  refine mergeSort_eq_of_perm (fun a b c => ?_) (fun a b => ?_) order fun a first b second => ?_
  · simpa using String.le_trans
  · simpa using String.le_total (key a) (key b)
  · intro below above
    exact List.inj_on_of_nodup_map apart first second
      (String.le_antisymm (of_decide_eq_true below) (of_decide_eq_true above))

theorem mergeSort_key_sorted (key : α → String) (xs : List α) :
    (xs.mergeSort fun a b => decide (key a ≤ key b)).Pairwise fun a b => key a ≤ key b := by
  have sorted : (xs.mergeSort fun a b => decide (key a ≤ key b)).Pairwise
      fun a b => decide (key a ≤ key b) = true :=
    List.pairwise_mergeSort (fun a b c => by simpa using String.le_trans)
      (fun a b => by simpa using String.le_total (key a) (key b)) xs
  exact sorted.imp of_decide_eq_true

end ApiLoom
