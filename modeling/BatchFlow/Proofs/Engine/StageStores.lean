import BatchFlow.Proofs.Engine.MapTasks
import BatchFlow.Proofs.Steps

/-!
# What a stage writes

A stage that runs replaces the targets of its stores and leaves everything else
as it is.  If no target is, contains or lies within another, each holds the rows
of its tasks afterwards.
-/

namespace BatchFlow

open Steps

namespace FileStore

variable {store : FileStore} {writes : List (String × List (List Row))} {directory path : String}
  {parts : List (List Row)}

/-- The store after some directories are written anew, one after another. -/
def replaceAll (store : FileStore) (writes : List (String × List (List Row))) : FileStore :=
  writes.foldl (fun store write => store.replace write.1 write.2) store

theorem get?_replaceAll_of_not_within
    (outside : ∀ write ∈ writes, ¬ Within write.1 path) :
    (store.replaceAll writes).files.get? path = store.files.get? path := by
  induction writes generalizing store with
  | nil => rfl
  | cons write rest ih =>
      obtain ⟨notWithin, outsideRest⟩ := List.forall_mem_cons.mp outside
      exact (ih outsideRest).trans (get?_replace_of_not_within notWithin)

/-- What is within some directory written anew does not depend on the store before. -/
theorem get?_replaceAll_congr {store' : FileStore}
    (inside : ∃ write ∈ writes, Within write.1 path) :
    (store.replaceAll writes).files.get? path = (store'.replaceAll writes).files.get? path := by
  induction writes generalizing store store' with
  | nil => simp at inside
  | cons write rest ih =>
      by_cases insideRest : ∃ other ∈ rest, Within other.1 path
      · exact ih insideRest
      · have outsideRest : ∀ other ∈ rest, ¬ Within other.1 path := by simpa using insideRest
        have within : Within write.1 path := by
          obtain ⟨other, member, within⟩ := inside
          rcases List.mem_cons.mp member with rfl | inRest
          · exact within
          · exact absurd within (outsideRest other inRest)
        show ((store.replace write.1 write.2).replaceAll rest).files.get? path =
          ((store'.replace write.1 write.2).replaceAll rest).files.get? path
        rw [get?_replaceAll_of_not_within outsideRest, get?_replaceAll_of_not_within outsideRest]
        exact get?_replace_of_within within

/-- What is written last under a directory is what it holds. -/
theorem get?_replaceAll_of_last
    (last : ∀ write ∈ writes, write = (directory, parts) ∨ Apart directory write.1)
    (within : Within directory path) :
    ((store.replace directory parts).replaceAll writes).files.get? path =
      (empty.replace directory parts).files.get? path := by
  have atStart : (store.replace directory parts).files.get? path =
      (empty.replace directory parts).files.get? path := get?_replace_of_within within
  generalize store.replace directory parts = current at atStart ⊢
  induction writes generalizing current with
  | nil => exact atStart
  | cons write rest ih =>
      obtain ⟨here, lastRest⟩ := List.forall_mem_cons.mp last
      refine ih lastRest _ ?_
      rcases here with rfl | apart
      · exact get?_replace_of_within within
      · rw [get?_replace_of_not_within (within.not_within apart), atStart]

/-- Directories written anew do not disturb each other if they are apart. -/
theorem get?_replaceAll_of_within
    (separate : (writes.map Prod.fst).Pairwise Apart) (written : (directory, parts) ∈ writes)
    (within : Within directory path) :
    (store.replaceAll writes).files.get? path =
      (empty.replace directory parts).files.get? path := by
  induction writes generalizing store with
  | nil => simp at written
  | cons write rest ih =>
      obtain ⟨apartRest, separateRest⟩ := List.pairwise_cons.mp separate
      rcases List.mem_cons.mp written with rfl | inRest
      · exact get?_replaceAll_of_last
          (fun other inRest => .inr (apartRest other.1 (List.mem_map_of_mem inRest))) within
      · exact ih separateRest inRest

theorem rowsOf_replaceAll
    (separate : (writes.map Prod.fst).Pairwise Apart) (written : (directory, parts) ∈ writes) :
    ((store.replaceAll writes).rowsOf directory).Perm parts.flatten := by
  rw [rowsOf_congr fun path within => get?_replaceAll_of_within separate written within]
  exact rowsOf_replace empty directory parts

end FileStore

namespace SubPlan

/-- The targets of the stores of a plan. -/
def targets (plan : SubPlan) : List String :=
  plan.operators.filterMap fun operator => operator.operation.target?

theorem mem_targets {plan : SubPlan} {target : String} :
    target ∈ plan.targets ↔
      ∃ operator ∈ plan.operators, operator.operation = .store target := by
  simp only [targets, List.mem_filterMap, Operation.target?_eq_some]

theorem targets_core (plan : SubPlan) : plan.core.targets = plan.targets := by
  rw [targets, core, operators_relabel, List.filterMap_map, targets]
  congr
  funext operator
  exact Operation.target?_core operator.operation

end SubPlan

namespace StageTasks

/-- The directories that the stores of a plan write, with their parts. -/
def writes (tasks : StageTasks) (plan : SubPlan) : List (String × List (List Row)) :=
  plan.operators.filterMap fun operator =>
    operator.operation.target?.map fun target => (target, tasks.partsOf operator.id target)

theorem map_fst_writes (tasks : StageTasks) (plan : SubPlan) :
    (tasks.writes plan).map Prod.fst = plan.targets := by
  rw [writes, List.map_filterMap, SubPlan.targets]
  congr
  funext operator
  cases operator.operation.target? <;> rfl

theorem writes_core (tasks : StageTasks) (plan : SubPlan) :
    tasks.writes plan.core = tasks.writes plan := by
  rw [writes, SubPlan.core, SubPlan.operators_relabel, List.filterMap_map, writes]
  congr
  funext operator
  simp [Operator.relabel]

theorem mem_writes (tasks : StageTasks) {plan : SubPlan} {operator : Operator} {target : String}
    (member : operator ∈ plan.operators) (isStore : operator.operation = .store target) :
    (target, tasks.partsOf operator.id target) ∈ tasks.writes plan := by
  refine List.mem_filterMap.mpr ⟨operator, member, ?_⟩
  rw [isStore]
  rfl

theorem fst_foldl_writeTarget (tasks : StageTasks) (operators : List Operator)
    (state : FileStore × JobStats) :
    (operators.foldl tasks.writeTarget state).1 =
      state.1.replaceAll (operators.filterMap fun operator =>
        operator.operation.target?.map fun target =>
          (target, tasks.partsOf operator.id target)) := by
  induction operators generalizing state with
  | nil => rfl
  | cons operator operators ih =>
      rw [List.foldl_cons, ih, List.filterMap_cons]
      cases kind : operator.operation <;>
        simp [writeTarget, kind, Operation.target?, FileStore.replaceAll, FileStore.replace]

/-- The numbers of a job do not depend on what was in the store. -/
theorem snd_foldl_writeTarget (tasks : StageTasks) (operators : List Operator)
    (store store' : FileStore) (stats : JobStats) :
    (operators.foldl tasks.writeTarget (store, stats)).2 =
      (operators.foldl tasks.writeTarget (store', stats)).2 := by
  induction operators generalizing store store' stats with
  | nil => rfl
  | cons operator operators ih =>
      rw [List.foldl_cons, List.foldl_cons, writeTarget, writeTarget]
      cases operator.operation <;> exact ih ..

/-- The parts of a store hold what the tasks of its phase stored. -/
theorem flatten_partsOf (tasks : StageTasks) (id : OpId) (target : String) :
    (tasks.partsOf id target).flatten =
      TaskOutput.stored (if tasks.phases.reduce.contains id then tasks.reduceOutputs
        else tasks.mapOutputs) target := by
  rw [partsOf, ← List.flatMap_def, TaskOutput.stored]

end StageTasks

namespace Stage

variable {stage : Stage} {graph : StageGraph} {config : EngineConfig} {store after : FileStore}
  {stats : JobStats}

/-- A stage runs its tasks and then writes what they stored; one that fails leaves
the store as it is. -/
theorem run_apply (stage : Stage) (graph : StageGraph) (config : EngineConfig)
    (store : FileStore) :
    stage.run graph config store =
      match stage.runTasks graph config store with
      | .ok tasks =>
          .ok (stage.plan.operators.foldl tasks.writeTarget (store, tasks.initialStats)).2
            (store.replaceAll (tasks.writes stage.plan))
      | .error error => .error error store := by
  rw [run, get_bind_apply, bind_apply]
  cases stage.runTasks graph config store with
  | error error => rfl
  | ok tasks => exact congrArg (EStateM.Result.ok _) (tasks.fst_foldl_writeTarget ..)

/-- A stage runs exactly when its tasks do; then it writes what they stored. -/
theorem run_eq_ok :
    stage.run graph config store = .ok stats after ↔
      ∃ tasks, stage.runTasks graph config store = .ok tasks ∧
        stats = (stage.plan.operators.foldl tasks.writeTarget (store, tasks.initialStats)).2 ∧
          after = store.replaceAll (tasks.writes stage.plan) := by
  rw [run_apply]
  cases stage.runTasks graph config store with
  | error error => simp
  | ok tasks => simp [@eq_comm _ stats, @eq_comm _ after]

/-- A stage fails exactly when one of its tasks does, and then writes nothing. -/
theorem run_eq_error {error : RunError} :
    stage.run graph config store = .error error after ↔
      stage.runTasks graph config store = .error error ∧ after = store := by
  rw [run_apply]
  cases stage.runTasks graph config store with
  | error failure => simp [@eq_comm _ after]
  | ok tasks => simp

end Stage

end BatchFlow
