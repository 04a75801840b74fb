import BatchFlow.Proofs.Engine.Parallelism
import BatchFlow.Proofs.Optimizer.Annotation
import Mathlib.Algebra.Order.BigOperators.Group.List
import Mathlib.Algebra.Order.Ring.Nat

/-!
# Estimated and executed tasks

Before a run, the tasks of a stage are estimated from the number of files behind
its loads.  If these numbers are those of the store, the map tasks estimated are
the splits of the input, one by one, and the reduce tasks estimated are the
reducers that the groups are dealt to.
-/

namespace BatchFlow

open Results

namespace StageGraph

/-- Every load of a plan has a directory, and its file count is the number of
files that the store lists there. -/
def CountsFiles (graph : StageGraph) (store : FileStore) (plan : SubPlan)
    (filesOf : LoadSource → FileCount) : Prop :=
  ∀ operator ∈ plan.operators, ∀ source, operator.operation = .load source →
    ∃ directory files, graph.directoryOf source = .ok directory ∧
      filesOf source = .known files ∧ files.toNat = (store.list directory).length

/-- The file counts of a store are right for datasets with files, unless they have too many. -/
theorem countsFiles_fileCount {graph : StageGraph} {store : FileStore} {plan : SubPlan}
    (present : ∀ operator ∈ plan.operators, operator.operation.isLoad = true →
      ∃ path ∈ operator.operation.loadedDataset?, store.list path ≠ [] ∧
        (store.list path).length < UInt32.size) :
    graph.CountsFiles store plan (graph.filesOf store.fileCount?) := by
  intro operator inPlan source isLoad
  obtain ⟨path, isDataset, some, few⟩ :=
    present operator inPlan (Operation.isLoad_iff.mpr ⟨source, isLoad⟩)
  obtain rfl : source = .dataset path :=
    Operation.load.inj (isLoad.symm.trans (Operation.loadedDataset?_eq_some.mp isDataset))
  refine ⟨path, UInt32.ofNat (store.list path).length, rfl, ?_, UInt32.toNat_ofNat_of_lt' few⟩
  rw [filesOf, FileStore.fileCount?]
  split
  case h_1 none => exact absurd none some
  case h_2 => rfl

end StageGraph

theorem toNat_min (first second : UInt32) :
    (min first second).toNat = min first.toNat second.toNat := by
  show (if first ≤ second then first else second).toNat = _
  simp only [UInt32.le_iff_toNat_le, Nat.min_def]
  split <;> rfl

theorem toNat_max (first second : UInt32) :
    (max first second).toNat = max first.toNat second.toNat := by
  show (if first ≤ second then second else first).toNat = _
  simp only [UInt32.le_iff_toNat_le, Nat.max_def]
  split <;> rfl

/-- A number too large for half a word counts as the greatest one. -/
theorem toNat_saturated (count : Nat) :
    (UInt32.ofNat (min count (UInt32.size - 1))).toNat = min count (UInt32.size - 1) := by
  have size : UInt32.size = 4294967296 := rfl
  exact UInt32.toNat_ofNat_of_lt' (by omega)

theorem toNat_loadSplits (files : UInt32) (disabled : Bool) :
    (loadSplits files disabled).toNat = if disabled then files.toNat else min files.toNat 1 := by
  rw [loadSplits]
  split
  · rfl
  · exact toNat_min files 1

namespace SubPlan

variable {plan : SubPlan} {phases : Phases}

theorem hasReducePhase_eq_false_iff : plan.hasReducePhase = false ↔ plan.packages = [] := by
  rw [hasReducePhase, packages, List.map_eq_nil_iff, List.filter_eq_nil_iff, List.any_eq_false]

theorem reduce_of_phases (split : plan.phases = .ok phases) :
    ∃ order, plan.topologicalOrder = .ok order ∧
      phases.reduce = order.filter fun id => plan.reduceSide.contains id := by
  rw [SubPlan.phases] at split
  cases ordered : plan.topologicalOrder with
  | error fault => simp [ordered] at split
  | ok order =>
      rw [ordered] at split
      obtain rfl := Except.ok.inj split
      exact ⟨order, rfl, rfl⟩

theorem reduce_eq_nil_of_packages (split : plan.phases = .ok phases) (none : plan.packages = []) :
    phases.reduce = [] := by
  obtain ⟨order, -, reduce⟩ := reduce_of_phases split
  have noSide : plan.reduceSide = [] := by rw [reduceSide, none, List.flatMap_nil]
  rw [reduce, noSide]
  simp

/-- A plan has a reduce phase exactly when it groups. -/
theorem OwnIds.reduce_eq_nil_iff (ownIds : plan.OwnIds) (split : plan.phases = .ok phases) :
    phases.reduce = [] ↔ plan.packages = [] := by
  refine ⟨fun noReduce => ?_, reduce_eq_nil_of_packages split⟩
  obtain ⟨order, ordered, reduce⟩ := reduce_of_phases split
  refine List.eq_nil_iff_forall_not_mem.mpr fun package isPackage => ?_
  obtain ⟨operator, found, -⟩ := ownIds.mem_packages.mp isPackage
  have placed : package ∈ order :=
    (ownIds.topologicalOrder_sound ordered).1.mem_iff.mpr (ownIds.mem_ids.mpr ⟨operator, found⟩)
  have inSide : package ∈ plan.reduceSide := ownIds.mem_reduceSide.mpr ⟨package, isPackage, .refl⟩
  rw [reduce, List.filter_eq_nil_iff] at noReduce
  exact noReduce package placed (by simpa using inSide)

end SubPlan

/-- Writing the targets of a stage leaves the numbers of its tasks as they are. -/
theorem StageTasks.taskCounts_foldl_writeTarget (tasks : StageTasks) (operators : List Operator)
    (state : FileStore × JobStats) :
    (operators.foldl tasks.writeTarget state).2.mapTasks = state.2.mapTasks ∧
      (operators.foldl tasks.writeTarget state).2.reduceTasks = state.2.reduceTasks := by
  induction operators generalizing state with
  | nil => exact ⟨rfl, rfl⟩
  | cons operator operators ih =>
      rw [List.foldl_cons, (ih _).1, (ih _).2, writeTarget]
      split <;> exact ⟨rfl, rfl⟩

namespace Stage

variable {stage : Stage} {graph : StageGraph} {config : EngineConfig} {store after : FileStore}
  {filesOf : LoadSource → FileCount} {tasks : StageTasks} {stats : JobStats}

theorem length_splitsOf (ordinary : stage.kind = .ordinary) (load : OpId) (files : List String) :
    (stage.splitsOf config load files).length =
      if config.splitCombinationDisabled then files.length else min files.length 1 := by
  rw [splitsOf, ordinary]
  cases config.splitCombinationDisabled <;> cases files <;> simp

/-- The splits that an operator of the stage contributes. -/
def splitCount (stage : Stage) (graph : StageGraph) (config : EngineConfig) (store : FileStore)
    (operator : Operator) : Nat :=
  if stage.spreads operator then
    (stage.splitsOf config operator.id (graph.loadedFiles store operator)).length
  else 0

theorem length_allSplits :
    (stage.allSplits graph config store).length =
      (stage.plan.operators.map (stage.splitCount graph config store)).sum := by
  rw [allSplits]
  induction stage.plan.operators with
  | nil => rfl
  | cons operator operators ih =>
      rw [List.filter_cons, List.map_cons, List.sum_cons, ← ih, splitCount]
      split <;> simp

/-- No stage has more splits than its loads have files. -/
theorem length_allSplits_le (ordinary : stage.kind = .ordinary) (config : EngineConfig) :
    (stage.allSplits graph config store).length ≤
      (stage.plan.operators.map fun operator =>
        (graph.loadedFiles store operator).length).sum := by
  rw [length_allSplits]
  refine List.sum_le_sum fun operator _ => ?_
  rw [splitCount, length_splitsOf ordinary]
  split
  · split <;> omega
  · exact Nat.zero_le _

section Counted

variable (ordinary : stage.kind = .ordinary)
  (counted : graph.CountsFiles store stage.plan filesOf)

include counted

theorem exists_input_of_countsFiles (config : EngineConfig) :
    ∃ input, stage.input graph config store = .ok input ∧
      input.splits = stage.allSplits graph config store := by
  obtain ⟨input, isInput⟩ : ∃ input, stage.input graph config store = .ok input := by
    refine ⟨_, input_eq_ok.mpr ⟨fun operator inPlan source isLoad => ?_, rfl⟩⟩
    obtain ⟨directory, -, resolved, -⟩ := counted operator inPlan source isLoad
    exact ⟨directory, resolved⟩
  exact ⟨input, isInput, (input_parts isInput).2.2⟩

include ordinary

theorem splits?_of_countsFiles (config : EngineConfig) {operator : Operator}
    (inPlan : operator ∈ stage.plan.operators) :
    stage.splits? config filesOf operator =
      some (stage.splitCount graph config store operator) := by
  rw [splits?, splitCount, spreads, length_splitsOf ordinary]
  cases isLoad : operator.operation with
  | load source =>
      obtain ⟨directory, files, resolved, known, isCount⟩ := counted operator inPlan source isLoad
      rw [StageGraph.loadedFiles_of_directory isLoad resolved]
      cases stage.plan.broadcastLoads.contains operator.id <;>
        simp [Operation.isLoad, known, FileCount.known?, toNat_loadSplits, isCount]
  | _ => simp [Operation.isLoad]

/-- The map tasks estimated are the splits, as far as their number can be told. -/
theorem mapTasks_of_countsFiles (config : EngineConfig) :
    stage.mapTasks config filesOf = .known (UInt32.ofNat
      (min (stage.allSplits graph config store).length (UInt32.size - 1))) := by
  have counts : stage.plan.operators.mapM (stage.splits? config filesOf) =
      some (stage.plan.operators.map (stage.splitCount graph config store)) := by
    refine (mapM_of_forall₂ (List.forall₂_same.mpr fun operator inPlan =>
      splits?_of_countsFiles ordinary counted config inPlan)).trans ?_
    exact List.mapM_pure
  have notConcatenate : stage.isConcatenate = false := by simp [isConcatenate, ordinary]
  rw [mapTasks_eq, notConcatenate, counts, length_allSplits, List.sum_eq_foldl]
  rfl

end Counted

theorem reduceTasks_eq_zero_iff (ordinary : stage.kind = .ordinary) (config : EngineConfig) :
    stage.reduceTasks config = 0 ↔ stage.plan.packages = [] := by
  have notConcatenate : stage.isConcatenate = false := by simp [isConcatenate, ordinary]
  rw [reduceTasks, notConcatenate, Bool.false_or, ← SubPlan.hasReducePhase_eq_false_iff]
  cases stage.plan.hasReducePhase with
  | false => simp
  | true =>
      have positive (parallelism : UInt32) : max 1 parallelism ≠ 0 := by
        rw [ne_eq, ← UInt32.toNat_inj, toNat_max, UInt32.toNat_one, UInt32.toNat_zero]
        omega
      simpa using positive _

theorem length_mapOutputs (run : stage.runTasks graph config store = .ok tasks) :
    tasks.mapOutputs.length = (stage.allSplits graph config store).length := by
  obtain ⟨-, -, mapped, -⟩ := runTasks_eq_ok.mp run
  exact (mapM_eq_ok.mp mapped).length_eq.symm

/-- A stage with a reduce phase runs at least one reduce task. -/
theorem length_reduceOutputs_eq (run : stage.runTasks graph config store = .ok tasks) :
    tasks.reduceOutputs.length =
      if tasks.phases.reduce = [] then 0 else max (stage.reduceTasks config).toNat 1 := by
  obtain ⟨-, -, -, unreduced, reduced⟩ := runTasks_eq_ok.mp run
  split
  case isTrue none => rw [unreduced none, List.length_nil]
  case isFalse some =>
    obtain ⟨dealt, shuffled, ran⟩ := reduced some
    rw [← (mapM_eq_ok.mp ran).length_eq, (shuffle_eq_ok.mp shuffled).2, List.length_map,
      List.length_range]

/-- An ordinary stage with a reduce phase runs as many reduce tasks as estimated. -/
theorem length_reduceOutputs (ordinary : stage.kind = .ordinary)
    (run : stage.runTasks graph config store = .ok tasks) :
    tasks.reduceOutputs.length =
      if tasks.phases.reduce = [] then 0 else (stage.reduceTasks config).toNat := by
  rw [length_reduceOutputs_eq run]
  split
  case isTrue => rfl
  case isFalse some =>
    have grouping : stage.plan.packages ≠ [] := fun none =>
      some (SubPlan.reduce_eq_nil_of_packages (runTasks_eq_ok.mp run).1 none)
    have positive : (stage.reduceTasks config).toNat ≠ 0 := fun isZero =>
      grouping ((reduceTasks_eq_zero_iff ordinary config).mp (UInt32.toNat_inj.mp isZero))
    omega

/-- The numbers of a job that succeeds are those of its tasks. -/
theorem taskCounts_of_run (run : stage.run graph config store = .ok stats after) :
    ∃ tasks, stage.runTasks graph config store = .ok tasks ∧
      stats.mapTasks = UInt32.ofNat tasks.mapOutputs.length ∧
        stats.reduceTasks = UInt32.ofNat tasks.reduceOutputs.length := by
  obtain ⟨tasks, ran, rfl, -⟩ := run_eq_ok.mp run
  obtain ⟨map, reduce⟩ := tasks.taskCounts_foldl_writeTarget stage.plan.operators
    (store, tasks.initialStats)
  exact ⟨tasks, ran, map, reduce⟩

theorem countsFiles_regionGraph :
    (regionGraph (some 3)).CountsFiles salesStore (regionTotals (some 3))
      ((regionGraph (some 3)).filesOf salesStore.fileCount?) :=
  StageGraph.countsFiles_fileCount (by decide +kernel)

/-- An ordinary stage runs the tasks that are estimated from the file counts of the store,
provided there are not too many files to count.  It has a map task for every split of its input,
and reduce tasks exactly when its plan groups. -/
theorem runs_estimated_tasks (ordinary : stage.kind = .ordinary)
    (counted : graph.CountsFiles store stage.plan filesOf)
    (few : (stage.plan.operators.map fun operator =>
      (graph.loadedFiles store operator).length).sum < UInt32.size) (config : EngineConfig) :
    ∃ mapTasks, stage.mapTasks config filesOf = .known mapTasks ∧
      (∃ input, stage.input graph config store = .ok input ∧
        input.splits.length = mapTasks.toNat) ∧
      (stage.reduceTasks config = 0 ↔ stage.plan.packages = []) ∧
      ∀ stats after, stage.run graph config store = .ok stats after →
        stats.mapTasks = mapTasks ∧
          (stage.plan.OwnIds → stats.reduceTasks = stage.reduceTasks config) ∧
        ∃ tasks, stage.runTasks graph config store = .ok tasks ∧
          tasks.mapOutputs.length = mapTasks.toNat ∧
            (stage.plan.OwnIds →
              tasks.reduceOutputs.length = (stage.reduceTasks config).toNat) := by
  have bound := (length_allSplits_le ordinary config).trans_lt few
  have counts : (UInt32.ofNat (stage.allSplits graph config store).length).toNat =
      (stage.allSplits graph config store).length := UInt32.toNat_ofNat_of_lt' bound
  obtain ⟨input, isInput, splits⟩ := exists_input_of_countsFiles counted config
  refine ⟨UInt32.ofNat (stage.allSplits graph config store).length, ?_,
    ⟨input, isInput, by rw [splits, counts]⟩, reduceTasks_eq_zero_iff ordinary config,
    fun stats after run => ?_⟩
  · rw [mapTasks_of_countsFiles ordinary counted, Nat.min_eq_left (Nat.le_sub_one_of_lt bound)]
  · obtain ⟨tasks, ran, mapTasks, reduceTasks⟩ := taskCounts_of_run run
    have mapCount := length_mapOutputs ran
    have reduceCount (ownIds : stage.plan.OwnIds) :
        tasks.reduceOutputs.length = (stage.reduceTasks config).toNat := by
      rw [length_reduceOutputs ordinary ran]
      split
      case isTrue noReduce =>
        have noPackage := (ownIds.reduce_eq_nil_iff (runTasks_eq_ok.mp ran).1).mp noReduce
        rw [(reduceTasks_eq_zero_iff ordinary config).mpr noPackage, UInt32.toNat_zero]
      case isFalse => rfl
    refine ⟨by rw [mapTasks, mapCount], fun ownIds => ?_, tasks, ran, by rw [mapCount, counts],
      reduceCount⟩
    rw [reduceTasks, reduceCount ownIds, UInt32.ofNat_toNat]

theorem runs_estimated_tasks_regionStage :
    (regionGraph (some 3)).CountsFiles salesStore (regionTotals (some 3))
        ((regionGraph (some 3)).filesOf salesStore.fileCount?) ∧
      (regionTotals (some 3)).OwnIds ∧
      ∃ stats after, (regionStage (some 3)).run (regionGraph (some 3)) ⟨4, true, 2⟩ salesStore =
          .ok stats after ∧ stats.mapTasks = 2 ∧ stats.reduceTasks = 3 := by
  have ownIds : (regionTotals (some 3)).OwnIds :=
    ((((((SubPlan.OwnIds.empty.insert _).insert _).insert _).insert _).insert _).insert _).insert _
  obtain ⟨tasks, tasksRan⟩ := exists_runTasks_regionStage
  have ran := run_eq_ok.mpr ⟨tasks, tasksRan, rfl, rfl⟩
  obtain ⟨mapTasks, estimated, -, -, executed⟩ := runs_estimated_tasks
    (rfl : (regionStage (some 3)).kind = .ordinary) countsFiles_regionGraph (by decide +kernel)
    ⟨4, true, 2⟩
  have twoTasks : (regionStage (some 3)).mapTasks ⟨4, true, 2⟩
      ((regionGraph (some 3)).filesOf salesStore.fileCount?) = .known 2 := by decide +kernel
  obtain rfl := FileCount.known.inj (estimated.symm.trans twoTasks)
  obtain ⟨sameMap, sameReduce, -⟩ := executed _ _ ran
  exact ⟨countsFiles_regionGraph, ownIds, _, _, ran, sameMap,
    (sameReduce ownIds).trans (by decide +kernel)⟩

/-- A plan with two joins of one identifier.  Its order lists this identifier three times, in the
place of the grouping operator too, so it is as long as the plan. -/
def sharedIdPlan : SubPlan where
  operatorMap := (((((((∅ : OrderedMap OpId Operator).insert ⟨0⟩
    ⟨⟨0⟩, .load (.dataset "regions"), []⟩).insert ⟨1⟩
    ⟨⟨1⟩, .join [0, 0] 0, [⟨0⟩, ⟨0⟩]⟩).insert ⟨2⟩
    ⟨⟨1⟩, .join [0, 0] 1, [⟨0⟩, ⟨3⟩]⟩).insert ⟨3⟩
    ⟨⟨3⟩, .limit 5, [⟨0⟩]⟩).insert ⟨4⟩
    ⟨⟨4⟩, .package none false, [⟨2⟩]⟩).insert ⟨5⟩
    ⟨⟨5⟩, .load (.dataset "sales"), []⟩).insert ⟨6⟩
    ⟨⟨6⟩, .store "copy", [⟨5⟩]⟩
  nextId := 7

/-- The stage with this plan. -/
def sharedIdStage : Stage :=
  ⟨⟨0⟩, .ordinary, sharedIdPlan, {}⟩

/-- The graph with this stage alone. -/
def sharedIdGraph : StageGraph :=
  ⟨(∅ : OrderedMap StageId Stage).insert ⟨0⟩ sharedIdStage, ∅, 1⟩

/-- The plan passes validation, but its grouping operator is never placed. -/
theorem sharedIdStage_never_reduces :
    sharedIdPlan.validate = .ok () ∧
      sharedIdGraph.CountsFiles salesStore sharedIdPlan
        (sharedIdGraph.filesOf salesStore.fileCount?) ∧
      sharedIdPlan.packages = [⟨4⟩] ∧ sharedIdStage.reduceTasks {} = 1 ∧
      ∃ stats after, sharedIdStage.run sharedIdGraph {} salesStore = .ok stats after ∧
        stats.reduceTasks = 0 := by
  have counted : sharedIdGraph.CountsFiles salesStore sharedIdPlan
      (sharedIdGraph.filesOf salesStore.fileCount?) :=
    StageGraph.countsFiles_fileCount (by decide +kernel)
  have phasesAre : sharedIdPlan.phases = .ok ⟨[⟨0⟩, ⟨3⟩, ⟨1⟩, ⟨1⟩, ⟨1⟩, ⟨5⟩, ⟨6⟩], []⟩ := by cbv
  have tasksRun : (sharedIdStage.runTasks sharedIdGraph {} salesStore).isOk = true := by
    rw [runTasks, show sharedIdStage.plan = sharedIdPlan from rfl, phasesAre]
    decide +kernel
  obtain ⟨tasks, ran⟩ := exists_of_isOk tasksRun
  have noReduce : tasks.reduceOutputs = [] := by
    obtain ⟨split, -, -, unreduced, -⟩ := runTasks_eq_ok.mp ran
    have samePhases := Except.ok.inj (phasesAre.symm.trans split)
    exact unreduced (by rw [← samePhases])
  have run := run_eq_ok.mpr ⟨tasks, ran, rfl, rfl⟩
  refine ⟨rfl, counted, rfl, by decide +kernel, _, _, run, ?_⟩
  obtain ⟨-, reduceTasks⟩ := tasks.taskCounts_foldl_writeTarget sharedIdPlan.operators
    (salesStore, tasks.initialStats)
  exact reduceTasks.trans (by rw [StageTasks.initialStats, noReduce]; rfl)

end Stage

end BatchFlow
