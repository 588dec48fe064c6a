import ApiLoom.Proofs.ModelOrder

/-!
# Locality

Of the other models in its set, a model that is compiled looks at the targets of its
relationships and at the cluster that they share.  Whatever else becomes of them shows in its
indexes alone.
-/

namespace ApiLoom

/-- Two sets in which a model finds the same cluster and the same targets. -/
structure SameContext (m : Model) (config : Config) (models others : List Model) : Prop where
  cluster : sharedCluster models config = sharedCluster others config
  targets : ∀ r ∈ m.relationships, modelNamed models r.2.target = modelNamed others r.2.target

section Contexts

variable {m n : Model} {config : Config} {models others before after : List Model}

theorem SameContext.refl (m : Model) (config : Config) (models : List Model) :
    SameContext m config models models :=
  ⟨rfl, fun _ _ => rfl⟩

theorem SameContext.symm (same : SameContext m config models others) :
    SameContext m config others models :=
  ⟨same.cluster.symm, fun r related => (same.targets r related).symm⟩

theorem SameContext.trans {more : List Model} (first : SameContext m config models others)
    (second : SameContext m config others more) : SameContext m config models more :=
  ⟨first.cluster.trans second.cluster,
    fun r related => (first.targets r related).trans (second.targets r related)⟩

/-! ### Changes of other models -/

/-- A model that `m` does not lead to, and that has no cluster to share. -/
structure Bystander (m n : Model) : Prop where
  untargeted : ∀ r ∈ m.relationships, r.2.target ≠ n.name
  clusterless : n.dataSource.cluster? = none

theorem sharedCluster_bystander (apart : Bystander m n) :
    sharedCluster (before ++ n :: after) config = sharedCluster (before ++ after) config := by
  simp only [sharedCluster, List.findSome?_append, List.findSome?_cons, apart.clusterless]

theorem modelNamed_bystander {name : String} (other : name ≠ n.name) :
    modelNamed (before ++ n :: after) name = modelNamed (before ++ after) name := by
  have skipped : decide (n.name = name) = false := decide_eq_false (Ne.symm other)
  simp [modelNamed, List.find?_append, skipped]

theorem Bystander.sameContext (apart : Bystander m n) :
    SameContext m config (before ++ n :: after) (before ++ after) :=
  ⟨sharedCluster_bystander apart, fun r related =>
    modelNamed_bystander (apart.untargeted r related)⟩

/-- Bystanders are added and removed, one after the other. -/
inductive Edited (m : Model) (models : List Model) : List Model → Prop where
  | unchanged : Edited m models models
  | added {before after : List Model} {n : Model} (edited : Edited m models (before ++ after))
      (apart : Bystander m n) : Edited m models (before ++ n :: after)
  | removed {before after : List Model} {n : Model}
      (edited : Edited m models (before ++ n :: after)) (apart : Bystander m n) :
      Edited m models (before ++ after)

theorem Edited.sameContext (edited : Edited m models others) :
    SameContext m config models others := by
  induction edited with
  | unchanged => exact .refl m config models
  | added _ apart ih => exact ih.trans apart.sameContext.symm
  | removed _ apart ih => exact ih.trans apart.sameContext

/-! ### What is compiled -/

theorem mapM_congr_of_mem {α β ε : Type} {f g : α → Except ε β} {xs : List α}
    (same : ∀ x ∈ xs, f x = g x) : xs.mapM f = xs.mapM g := by
  induction xs with
  | nil => rfl
  | cons x rest ih =>
    rw [List.mapM_cons, List.mapM_cons, same x List.mem_cons_self,
      ih fun y member => same y (List.mem_cons_of_mem _ member)]

/-- The look-up is asked for the targets only. -/
theorem Model.traversals_congr {cluster : Option Cluster} {lookup other : String → Option Model}
    (targets : ∀ r ∈ m.relationships, lookup r.2.target = other r.2.target) :
    m.traversals config cluster lookup = m.traversals config cluster other := by
  refine mapM_congr_of_mem fun r related => ?_
  simp only [Model.traversal, targets r related]

theorem Model.compileWith_congr {cluster : Option Cluster} {lookup other : String → Option Model}
    (targets : ∀ r ∈ m.relationships, lookup r.2.target = other r.2.target)
    (first second : List SecondaryIndex) :
    m.compileWith config cluster other second =
      (m.compileWith config cluster lookup first).map fun k => { k with indexes := second } := by
  unfold Model.compileWith
  rw [Model.traversals_congr targets]
  cases RootField.all.mapM fun field => m.resolver config cluster field with
  | error e => rfl
  | ok resolvers =>
    cases m.traversals config cluster other with
    | error e => rfl
    | ok traversals => rfl

theorem SameContext.compile (same : SameContext m config models others) :
    m.compile config others =
      (m.compile config models).map fun k => { k with indexes := planIndexes others m.name } := by
  unfold Model.compile
  rw [← same.cluster]
  exact Model.compileWith_congr same.targets _ _

theorem Model.compile_indexes {k : CompiledModel} (compiled : m.compile config models = .ok k) :
    k.indexes = planIndexes models m.name := by
  have again := (SameContext.refl m config models).compile
  rw [compiled] at again
  exact congrArg CompiledModel.indexes (Except.ok.inj again)

theorem Edited.compile (edited : Edited m models others) :
    m.compile config others =
      (m.compile config models).map fun k => { k with indexes := planIndexes others m.name } :=
  edited.sameContext.compile

theorem Compilation.build_compile {c : Compilation}
    (built : Compilation.build config models = .ok c) (member : m ∈ models) :
    ∃ k ∈ c.models, m.compile config models = .ok k :=
  exists_of_mapM_ok (build_ok built).1 m member

/-- In two sets that give it the same cluster and targets a model is refused with the same error
or compiles to the same but for its indexes, and has the same templates at the same places. -/
theorem compile_local (listed : m ∈ models) (kept : m ∈ others)
    (same : SameContext m config models others) :
    m.compile config others =
        (m.compile config models).map (fun k => { k with indexes := planIndexes others m.name }) ∧
      ∀ c d, Compilation.build config models = .ok c → Compilation.build config others = .ok d →
        ∃ k ∈ c.models, ∃ l ∈ d.models,
          m.compile config models = .ok k ∧ m.compile config others = .ok l ∧
          l = { k with indexes := l.indexes } ∧
          Compilation.modelExchanges l = Compilation.modelExchanges k := by
  refine ⟨same.compile, fun c d first second => ?_⟩
  obtain ⟨k, present, compiled⟩ := Compilation.build_compile first listed
  obtain ⟨l, found, again⟩ := Compilation.build_compile second kept
  have changed : l = { k with indexes := planIndexes others m.name } := by
    have both := same.compile
    rw [compiled, again] at both
    exact Except.ok.inj both
  exact ⟨k, present, l, found, compiled, again, by rw [changed], by rw [changed]; rfl⟩

end Contexts

/-- A note is indexed for the folder that lists it, and is the same without that folder. -/
theorem compile_local_folder :
    ∃ m n k l, Model.decode folder = .ok m ∧ Model.decode nestedNote = .ok n ∧
      SameContext n .default [m, n] [n] ∧ n.compile .default [m, n] = .ok k ∧
      n.compile .default [n] = .ok l ∧ k.indexes ≠ l.indexes ∧ l = { k with indexes := l.indexes } ∧
      Compilation.modelExchanges l = Compilation.modelExchanges k := by
  obtain ⟨m, n, first, second, apart, differ, harmless, written⟩ : ∃ m n,
      Model.decode folder = .ok m ∧ Model.decode nestedNote = .ok n ∧
      ((n.relationships.all fun r => r.2.target ≠ m.name) = true ∧ m.dataSource.cluster? = none) ∧
      planIndexes [m, n] n.name ≠ planIndexes [n] n.name ∧
      ((∀ f ∈ Review.all .default [m, n] [], f.level ≠ .error) ∧
        ∀ f ∈ Review.all .default [n] [], f.level ≠ .error) ∧
      ∀ x ∈ [m, n], ¬ x.HasLongLimit :=
    ⟨_, _, rfl, rfl, ⟨rfl, rfl⟩, by decide +kernel, ⟨by decide +kernel, by decide +kernel⟩,
      by decide +kernel⟩
  have bystander : Bystander n m :=
    ⟨fun r related => by simpa using List.all_eq_true.mp apart.1 r related, apart.2⟩
  have same : SameContext n .default ([] ++ m :: [n]) ([] ++ [n]) := bystander.sameContext
  obtain ⟨c, built⟩ :=
    Review.Passes.builds_of_written (Report.isValid_ofFindings.mpr harmless.1) written
  obtain ⟨d, rebuilt⟩ := Review.Passes.builds_of_written
    (Report.isValid_ofFindings.mpr harmless.2) fun x member => written x (.tail _ member)
  obtain ⟨k, _, l, _, compiled, again, kept, exchanges⟩ :=
    (compile_local (by simp) (by simp) same).2 c d built rebuilt
  refine ⟨m, n, k, l, first, second, same, compiled, again, ?_, kept, exchanges⟩
  rw [Model.compile_indexes compiled, Model.compile_indexes again]
  exact differ

end ApiLoom
