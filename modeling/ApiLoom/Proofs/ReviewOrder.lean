import ApiLoom.Proofs.ModelOrder

/-!
# Reviews in another order

A review takes the models of a set one by one and looks at the others by their names.  As long
as the names are apart it finds the same in each order; where two models share a name it lets
the set through in no order.
-/

namespace ApiLoom

namespace Review

variable {config : Config} {models others : List Model} {seeds : SeedData}

/-! ### Names -/

theorem nameFindings_fresh {seen : List String} {m : Model} (fresh : m.name ∉ seen) :
    nameFindings seen m = nameFindings [] m := by
  simp [nameFindings, fresh]

/-- Where the names are apart, none is found because of those before it. -/
theorem namesFrom_eq (seen : List String) (names : (models.map (·.name)).Nodup)
    (fresh : ∀ m ∈ models, m.name ∉ seen) :
    namesFrom seen models = models.flatMap (nameFindings []) := by
  induction models generalizing seen with
  | nil => rfl
  | cons m rest ih =>
    obtain ⟨first, apart⟩ := List.nodup_cons.mp names
    have later : ∀ n ∈ rest, n.name ∉ m.name :: seen := by
      intro n member known
      rcases List.mem_cons.mp known with same | known
      · exact first (List.mem_map.mpr ⟨n, member, same⟩)
      · exact fresh n (List.mem_cons_of_mem _ member) known
    rw [namesFrom, nameFindings_fresh (fresh m List.mem_cons_self), ih _ apart later]
    rfl

theorem modelNames_perm (names : (models.map (·.name)).Nodup) (order : models.Perm others) :
    (modelNames models).Perm (modelNames others) := by
  have also : (others.map (·.name)).Nodup := (order.map _).nodup_iff.mp names
  have known (name : String) :
      (models.map (·.name)).contains name = (others.map (·.name)).contains name :=
    (order.map _).contains_eq
  rw [modelNames, modelNames, namesFrom_eq [] names (by simp), namesFrom_eq [] also (by simp)]
  simp only [known]
  exact (order.flatMap_right _).append (order.filterMap _)

/-! ### Stores -/

/-- Which cluster is the first depends on the order, but not whether there is one. -/
theorem sharedCluster_isNone_perm (config : Config) (order : models.Perm others) :
    (sharedCluster models config).isNone = (sharedCluster others config).isNone := by
  have undeclared : (models.findSome? fun m => m.dataSource.cluster?) = none ↔
      (others.findSome? fun m => m.dataSource.cluster?) = none := by
    simp only [List.findSome?_eq_none_iff, order.mem_iff]
  unfold sharedCluster
  cases first : models.findSome? fun m => m.dataSource.cluster? with
  | none => simp [undeclared.mp first]
  | some c =>
    cases second : others.findSome? fun m => m.dataSource.cluster? with
    | none => exact absurd (undeclared.mpr second) (by simp [first])
    | some d => rfl

theorem dataSources_perm (config : Config) (order : models.Perm others) :
    (dataSources config models).Perm (dataSources config others) := by
  rw [dataSources, dataSources, sharedCluster_isNone_perm config order]
  exact order.flatMap_right _

/-! ### Relationships and seeds -/

theorem relationships_perm (names : (models.map (·.name)).Nodup) (order : models.Perm others) :
    (relationships models).Perm (relationships others) := by
  have named := modelNamed_perm names order
  have issue : relationshipIssue models = relationshipIssue others := by
    funext m field r
    simp only [relationshipIssue, named]
  have target : targetFindings models = targetFindings others := by
    funext m field r
    simp only [targetFindings, named]
  rw [relationships, relationships, relationshipIssues, relationshipIssues, issue, target]
  exact ((order.flatMap_right _).map _).append (order.flatMap_right _)

theorem seedData_perm (config : Config) (seeds : SeedData) (names : (models.map (·.name)).Nodup)
    (order : models.Perm others) : seedData config models seeds = seedData config others seeds := by
  simp only [seedData, modelNamed_perm names order]

/-! ### All checks -/

theorem all_perm (config : Config) (seeds : SeedData) (names : (models.map (·.name)).Nodup)
    (order : models.Perm others) : (all config models seeds).Perm (all config others seeds) := by
  have sources := dataSources_perm config order
  have links := relationships_perm names order
  rw [all, all, allOfModels, allOfModels, seedData_perm config seeds names order]
  refine List.Perm.append_right _ ?_
  exact (((((modelNames_perm names order).append (order.filterMap _)).append
    (order.flatMap_right _)).append sources).append links |>.append
    (order.flatMap_right _)).append (order.flatMap_right _)

/-- The same outcome of two reviews: the same issues, each as often, or none because of the
same fault. -/
inductive SameIssues : Except MessageFault Report → Except MessageFault Report → Prop where
  | told {r s : Report} (issues : r.issues.Perm s.issues) : SameIssues (.ok r) (.ok s)
  | untold (fault : MessageFault) : SameIssues (.error fault) (.error fault)

/-- The review has a report, and the report no error. -/
def Accepts (config : Config) (models : List Model) (seeds : SeedData) : Prop :=
  ∃ r, report config models seeds = .ok r ∧ r.isValid = true

theorem written_perm {first second : List Finding} (order : first.Perm second) :
    SameIssues (Report.written first) (Report.written second) := by
  have writable : first.all Finding.isWritable = second.all Finding.isWritable := order.all_eq
  unfold Report.written
  rw [writable]
  split
  · exact .told (order.map _)
  · exact .untold _

theorem SameIssues.isValid_iff {first second : Except MessageFault Report}
    (same : SameIssues first second) :
    (∃ r, first = .ok r ∧ r.isValid = true) ↔ ∃ r, second = .ok r ∧ r.isValid = true := by
  cases same with
  | told issues =>
    simp [Report.isValid, Report.errors, Report.ofLevel, issues.mem_iff]
  | untold fault => simp

theorem Accepts.names (accepts : Accepts config models seeds) :
    (models.map (·.name)).Nodup := by
  obtain ⟨r, told, valid⟩ := accepts
  obtain ⟨_, rfl⟩ := Report.written_eq_ok_iff.mp told
  have passes : Passes config models seeds := valid
  exact passes.names.1

/-- Whether a set is accepted does not depend on the order of its models, nor, where their names
are apart, does what is reported of it. -/
theorem review_order_irrelevant (config : Config) (seeds : SeedData)
    (order : models.Perm others) :
    (Accepts config models seeds ↔ Accepts config others seeds) ∧
      ((models.map (·.name)).Nodup →
        SameIssues (report config models seeds) (report config others seeds)) := by
  have same (names : (models.map (·.name)).Nodup) :
      SameIssues (report config models seeds) (report config others seeds) :=
    written_perm (all_perm config seeds names order)
  refine ⟨⟨fun accepts => ?_, fun accepts => ?_⟩, same⟩
  · exact (same accepts.names).isValid_iff.mp accepts
  · have names := (order.map (·.name)).nodup_iff.mpr accepts.names
    exact (same names).isValid_iff.mpr accepts

end Review

/-- A model whose records are in a relational store that nobody declares. -/
def looseBook : Value := .object [
  ("name", .text "book"), ("properties", .object [("id", .object [("type", .text "ID")])]),
  ("dataSource", .object [("type", .text "database"), ("engine", .text "sql")])]

/-- A model with a relationship whose key is not where it is looked for. -/
def bookShelf : Value := .object [
  ("name", .text "shelf"), ("properties", .object [("id", .object [("type", .text "ID")])]),
  ("dataSource", .object [("type", .text "database"), ("engine", .text "nosql")]),
  ("relationships", .object [
    ("books", .object [("type", .text "hasMany"), ("target", .text "book")])])]

def pagedBook : Review.SeedData := [("book", [[(.text "pages", .int 12)]])]

/-- The report of the two models tells of them in their order, and of the same in both. -/
theorem review_order_irrelevant_bookShelf :
    ∃ m n r s, Model.decode looseBook = .ok m ∧ Model.decode bookShelf = .ok n ∧
      Review.report .default [m, n] pagedBook = .ok r ∧
      Review.report .default [n, m] pagedBook = .ok s ∧
      r.issues.map (·.message) ≠ s.issues.map (·.message) ∧ r.issues.Perm s.issues ∧
      ¬ Review.Accepts .default [m, n] pagedBook ∧ ¬ Review.Accepts .default [n, m] pagedBook := by
  obtain ⟨m, n, first, second, names, told, differ, invalid⟩ : ∃ m n,
      Model.decode looseBook = .ok m ∧ Model.decode bookShelf = .ok n ∧
      ([m, n].map (·.name)).Nodup ∧
      (Review.all .default [m, n] pagedBook).all Finding.isWritable = true ∧
      (Review.all .default [m, n] pagedBook).map Finding.message ≠
        (Review.all .default [n, m] pagedBook).map Finding.message ∧
      (Report.ofFindings (Review.all .default [m, n] pagedBook)).isValid = false :=
    ⟨_, _, rfl, rfl, by decide +kernel, by decide +kernel, by decide +kernel, by decide +kernel⟩
  have order : [m, n].Perm [n, m] := List.Perm.swap n m []
  obtain ⟨verdict, issues⟩ := Review.review_order_irrelevant .default pagedBook order
  have written : Review.report .default [m, n] pagedBook =
      .ok (.ofFindings (Review.all .default [m, n] pagedBook)) :=
    Report.written_eq_ok_iff.mpr ⟨List.all_eq_true.mp told, rfl⟩
  have rejected : ¬ Review.Accepts .default [m, n] pagedBook := by
    rintro ⟨r, also, valid⟩
    obtain rfl := Except.ok.inj (written.symm.trans also)
    exact absurd (invalid.symm.trans valid) (by decide)
  have same := issues names
  rw [written] at same
  generalize other : Review.report .default [n, m] pagedBook = outcome at same
  cases same with
  | told issues =>
    obtain ⟨_, rfl⟩ := Report.written_eq_ok_iff.mp other
    refine ⟨m, n, _, _, first, second, written, other, ?_, issues, rejected,
      mt verdict.mpr rejected⟩
    simpa [Report.ofFindings, Finding.issue, Function.comp_def] using differ

end ApiLoom
