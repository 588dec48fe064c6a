import ApiLoom.Proofs.ModelOrder

/-!
# Schemas in another order

The schema lists the models in the order of their names.  As long as the names are apart there
is only one such order, so that the text of the schema does not tell in which order the models
came.
-/

namespace ApiLoom

namespace Schema

variable {config : Config} {models others : List Model}

theorem sortedModels_perm (models : List Model) : (sortedModels models).Perm models :=
  List.mergeSort_perm models _

theorem sortedModels_sorted (models : List Model) :
    (sortedModels models).Pairwise fun a b => a.name ≤ b.name :=
  mergeSort_key_sorted (·.name) models

/-- Names that are apart are strictly ordered. -/
theorem sortedModels_strict (names : (models.map (·.name)).Nodup) :
    (sortedModels models).Pairwise fun a b => a.name < b.name := by
  have apart : ((sortedModels models).map (·.name)).Nodup :=
    ((sortedModels_perm models).map _).nodup_iff.mpr names
  have distinct : (sortedModels models).Pairwise fun a b => a.name ≠ b.name :=
    List.pairwise_map.mp apart
  exact (sortedModels_sorted models).imp₂ (fun _ _ le ne => Std.lt_of_le_of_ne le ne) distinct

/-- There is one way only to put models in the order of their names. -/
theorem sortedModels_unique {sorted : List Model} (order : sorted.Perm models)
    (strict : sorted.Pairwise fun a b => a.name < b.name) : sortedModels models = sorted := by
  have names : (sorted.map (·.name)).Nodup := by
    refine List.pairwise_map.mpr (strict.imp fun {a b} less same => ?_)
    rw [same] at less
    exact String.lt_irrefl _ less
  have also : (models.map (·.name)).Nodup := (order.map _).nodup_iff.mp names
  refine List.Perm.eq_of_pairwise (fun a b _ _ less more => ?_) (sortedModels_strict also) strict
    ((sortedModels_perm models).trans order.symm)
  exact absurd (String.lt_trans less more) (String.lt_irrefl _)

/-- Models in order are left as they are. -/
theorem sortedModels_eq_self (sorted : models.Pairwise fun a b => a.name ≤ b.name) :
    sortedModels models = models :=
  List.mergeSort_of_pairwise (sorted.imp fun le => decide_eq_true le)

/-- Models whose names are apart amount to one text, in whichever order they come: that of the
models in the order of their names. -/
theorem schema_order_irrelevant (config : Config) (names : (models.map (·.name)).Nodup) :
    (∀ others, models.Perm others →
      (document config models).text = (document config others).text) ∧
    ∃ sorted, sorted.Perm models ∧ (sorted.Pairwise fun a b => a.name < b.name) ∧
      ∀ others, models.Perm others →
        (document config others).text = (documentOf config sorted).text := by
  have strict := sortedModels_strict names
  have listed {others : List Model} (order : models.Perm others) :
      document config others = documentOf config (sortedModels models) := by
    rw [document, sortedModels_unique ((sortedModels_perm models).trans order) strict]
  refine ⟨fun others order => ?_, sortedModels models, sortedModels_perm models, strict,
    fun others order => congrArg Document.text (listed order)⟩
  rw [listed order, listed (List.Perm.refl models)]

end Schema

/-- A model with a queue, which adds to all root types. -/
def queuedMail : Value := .object [
  ("name", .text "Mail"), ("properties", .object [("text", .object [("type", .text "String")])]),
  ("dataSource", .object [
    ("type", .text "thirdPartyApi"), ("endpoint", .text "https://mail.example"),
    ("limits", .object [("limit", .int 1), ("frequencyInSeconds", .int 1)])]),
  ("enableSubscriptions", .bool true)]

/-- Two models, one of which the review would not let through, have one text; if they had one
name, the text would tell their order. -/
theorem schema_order_irrelevant_queuedMail :
    ∃ m n, Model.decode queuedMail = .ok m ∧ Model.decode folder = .ok n ∧
      (Schema.document .default [m, n]).text = (Schema.document .default [n, m]).text ∧
      (Schema.document .default [m, { n with name := "Mail" }]).text ≠
        (Schema.document .default [{ n with name := "Mail" }, m]).text := by
  obtain ⟨m, n, first, second, named, names, shows⟩ : ∃ m n, Model.decode queuedMail = .ok m ∧
      Model.decode folder = .ok n ∧ m.name = "Mail" ∧ ([m, n].map (·.name)).Nodup ∧
      (Schema.documentOf .default [m, { n with name := "Mail" }]).text ≠
        (Schema.documentOf .default [{ n with name := "Mail" }, m]).text :=
    ⟨_, _, rfl, rfl, rfl, by decide +kernel, by decide +kernel⟩
  have same := (Schema.schema_order_irrelevant .default names).1 [n, m] (List.Perm.swap n m [])
  refine ⟨m, n, first, second, same, ?_⟩
  rwa [Schema.document, Schema.document, Schema.sortedModels_eq_self (by simp [named]),
    Schema.sortedModels_eq_self (by simp [named])]

end ApiLoom
