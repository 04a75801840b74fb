import BatchFlow.Proofs.Engine.StageStores
import BatchFlow.Proofs.Engine.StageTasks

/-!
# Stages with the same work

Two stages have the same work when their plans agree in what tasks read of them
and their loads read the same files.  Their tasks compute the same, and what the
tasks of a stage compute is determined.  Stages that differ in parallelism only
have the same work.
-/

namespace BatchFlow

section Pairs

variable {α β γ : Type} {related : α → β → Prop} {first : List α} {second : List β}

/-- Lists whose elements pass tests together and expand alike. -/
theorem flatMap_filter_congr {firstTest : α → Bool} {secondTest : β → Bool} {expand : α → List γ}
    {expandOther : β → List γ} (paired : List.Forall₂ related first second)
    (sameTest : ∀ element other, related element other → firstTest element = secondTest other)
    (same : ∀ element other, related element other → firstTest element = true →
      expand element = expandOther other) :
    (first.filter firstTest).flatMap expand = (second.filter secondTest).flatMap expandOther := by
  induction paired with
  | nil => rfl
  | @cons element other _ _ headRelated _ ih =>
      cases passes : firstTest element with
      | false =>
          have fails := sameTest element other headRelated ▸ passes
          rw [List.filter_cons_of_neg (by simp [passes]), List.filter_cons_of_neg (by simp [fails]),
            ih]
      | true =>
          have passesToo := sameTest element other headRelated ▸ passes
          rw [List.filter_cons_of_pos passes, List.filter_cons_of_pos passesToo, List.flatMap_cons,
            List.flatMap_cons, same element other headRelated passes, ih]

end Pairs

namespace SubPlan

/-- Two operators that tasks do not tell apart. -/
def Interchangeable (first second : Operator) : Prop :=
  first.relabel Operation.core = second.relabel Operation.core

theorem Interchangeable.id {first second : Operator} (alike : Interchangeable first second) :
    first.id = second.id := by
  have same : (first.relabel Operation.core).id = (second.relabel Operation.core).id :=
    congrArg Operator.id alike
  exact same

theorem Interchangeable.isLoad {first second : Operator} (alike : Interchangeable first second) :
    first.operation.isLoad = second.operation.isLoad := by
  have same := congrArg (fun operator => operator.operation.isLoad) alike
  simpa [Operator.relabel] using same

theorem Interchangeable.target? {first second : Operator} (alike : Interchangeable first second) :
    first.operation.target? = second.operation.target? := by
  have same := congrArg (fun operator => operator.operation.target?) alike
  simpa [Operator.relabel] using same

theorem forall₂_of_relabel {change : Operation → Operation} {first second : SubPlan}
    (same : first.relabel change = second.relabel change) :
    List.Forall₂ (fun operator other => operator.relabel change = other.relabel change)
      first.operators second.operators := by
  have sameOperators : first.operators.map (Operator.relabel change) =
      second.operators.map (Operator.relabel change) := by
    rw [← operators_relabel, ← operators_relabel]
    exact congrArg operators same
  rwa [← List.forall₂_eq_eq_eq, List.forall₂_map_left_iff, List.forall₂_map_right_iff]
    at sameOperators

end SubPlan

namespace Stage

variable {first second : Stage} {graph graph' : StageGraph} {store store' : FileStore}

theorem rowsOfLoads_congr {related : Operator → Operator → Prop} {test test' : Operator → Bool}
    (paired : List.Forall₂ related first.plan.operators second.plan.operators)
    (sameId : ∀ operator other, related operator other → operator.id = other.id)
    (sameTest : ∀ operator other, related operator other → test operator = test' other)
    (sameRows : ∀ operator other, related operator other → test operator = true →
      graph.loadedRows store operator = graph'.loadedRows store' other) :
    first.rowsOfLoads graph store test = second.rowsOfLoads graph' store' test' := by
  rw [rowsOfLoads, rowsOfLoads, List.map_eq_flatMap, List.map_eq_flatMap]
  refine congrArg OrderedMap.ofList (flatMap_filter_congr paired sameTest ?_)
  intro operator other isRelated passes
  rw [sameId operator other isRelated, sameRows operator other isRelated passes]

/-- The tasks of both stages do the same work on the store. -/
structure SameWork (first second : Stage) (graph graph' : StageGraph) (store : FileStore) :
    Prop where
  core : first.plan.core = second.plan.core
  loads : List.Forall₂ (fun operator other => SubPlan.Interchangeable operator other ∧
    (graph.Resolves operator ↔ graph'.Resolves other) ∧
      graph.loadedFiles store operator = graph'.loadedFiles store other)
    first.plan.operators second.plan.operators

theorem replicates_congr (sameCore : first.plan.core = second.plan.core)
    {operator other : Operator} (alike : SubPlan.Interchangeable operator other) :
    first.replicates operator = second.replicates other := by
  rw [replicates, replicates, alike.isLoad, alike.id, ← first.plan.broadcastLoads_core, sameCore,
    second.plan.broadcastLoads_core]

theorem spreads_congr (sameCore : first.plan.core = second.plan.core)
    {operator other : Operator} (alike : SubPlan.Interchangeable operator other) :
    first.spreads operator = second.spreads other := by
  rw [spreads, spreads, alike.isLoad, alike.id, ← first.plan.broadcastLoads_core, sameCore,
    second.plan.broadcastLoads_core]

theorem packages_congr (sameCore : first.plan.core = second.plan.core) :
    first.plan.packages = second.plan.packages := by
  rw [← first.plan.packages_core, sameCore, second.plan.packages_core]

theorem proceed_congr (sameCore : first.plan.core = second.plan.core) :
    Share.proceed first.plan = Share.proceed second.plan := by
  rw [← first.plan.proceed_core, sameCore, second.plan.proceed_core]

namespace SameWork

variable (same : SameWork first second graph graph' store)

include same

theorem symm : SameWork second first graph' graph store where
  core := same.core.symm
  loads := by
    refine List.Forall₂.flip (same.loads.imp ?_)
    rintro operator other ⟨alike, resolves, files⟩
    exact ⟨alike.symm, resolves.symm, files.symm⟩

theorem rowsOfLoads {test test' : Operator → Bool}
    (sameTest : ∀ operator other, SubPlan.Interchangeable operator other →
      test operator = test' other) :
    first.rowsOfLoads graph store test = second.rowsOfLoads graph' store test' := by
  refine rowsOfLoads_congr same.loads ?_ ?_ ?_
  · exact fun operator other isRelated => isRelated.1.id
  · exact fun operator other isRelated => sameTest operator other isRelated.1
  · intro operator other isRelated _
    rw [StageGraph.loadedRows, StageGraph.loadedRows, isRelated.2.2]

theorem hasFiles (hasFiles : first.HasFiles graph store) : second.HasFiles graph' store := by
  obtain ⟨operator, inPlan, spread, some⟩ := hasFiles
  obtain ⟨other, inOther, alike, -, files⟩ := exists_mem_of_forall₂ same.loads inPlan
  exact ⟨other, inOther, spreads_congr same.core alike ▸ spread, files ▸ some⟩

theorem wholeMapTask : first.wholeMapTask graph store = second.wholeMapTask graph' store := by
  rw [Stage.wholeMapTask, Stage.wholeMapTask,
    same.rowsOfLoads fun _ _ alike => alike.isLoad]

theorem keyedOf (map : Option TaskState) : first.keyedOf map = second.keyedOf map := by
  funext package
  rw [Stage.keyedOf, Stage.keyedOf, ← first.plan.shuffleOf_core, same.core,
    second.plan.shuffleOf_core]

theorem wholeReduceTask (keyed : OpId → List Row) :
    first.wholeReduceTask graph store keyed = second.wholeReduceTask graph' store keyed := by
  have sameGroups : first.groupsOf keyed = second.groupsOf keyed := by
    funext package
    rw [groupsOf, groupsOf, packages_congr same.core]
  rw [Stage.wholeReduceTask, Stage.wholeReduceTask, sameGroups,
    same.rowsOfLoads fun _ _ alike => replicates_congr same.core alike]

/-- Stages with the same work compute the same. -/
theorem yields {phases : Phases} {map reduce : Option TaskState}
    (yields : first.Yields graph store phases map reduce) :
    second.Yields graph' store phases map reduce where
  split := by
    rw [← second.plan.phases_core, ← same.core, first.plan.phases_core]
    exact yields.split
  resolves := by
    intro other inOther
    obtain ⟨operator, inPlan, -, resolves, -⟩ := exists_mem_of_forall₂ same.symm.loads inOther
    exact resolves.mpr (yields.resolves operator inPlan)
  idle none := yields.idle (mt same.hasFiles none)
  mapped some := by
    rw [← same.wholeMapTask, ← proceed_congr same.core]
    exact yields.mapped (same.symm.hasFiles some)
  unreduced := yields.unreduced
  grouped some package member := by
    rw [← same.keyedOf]
    exact yields.grouped some package (packages_congr same.core ▸ member)
  reduced some := by
    rw [← same.keyedOf, ← same.wholeReduceTask, ← proceed_congr same.core]
    exact yields.reduced some

end SameWork

/-- What the tasks of a stage compute is determined. -/
theorem Yields.unique {stage : Stage} {phases : Phases} {map reduce map' reduce' : Option TaskState}
    (yields : stage.Yields graph store phases map reduce)
    (yields' : stage.Yields graph store phases map' reduce') : map = map' ∧ reduce = reduce' := by
  have sameMap : map = map' := by
    by_cases hasFiles : stage.HasFiles graph store
    · obtain ⟨final, finished, rfl⟩ := yields.mapped hasFiles
      obtain ⟨final', finished', rfl⟩ := yields'.mapped hasFiles
      rw [Except.ok.inj (finished.symm.trans finished')]
    · rw [yields.idle hasFiles, yields'.idle hasFiles]
  refine ⟨sameMap, ?_⟩
  by_cases noReduce : phases.reduce = []
  · rw [yields.unreduced noReduce, yields'.unreduced noReduce]
  · obtain ⟨final, finished, rfl⟩ := yields.reduced noReduce
    obtain ⟨final', finished', rfl⟩ := yields'.reduced noReduce
    rw [← sameMap] at finished'
    rw [Except.ok.inj (finished.symm.trans finished')]

end Stage

end BatchFlow
