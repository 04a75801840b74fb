import BatchFlow.Proofs.Engine.SameWork

/-!
# Stages that read the same

What the tasks of a stage write depends on the rows of its replicated loads and
on the files of its other loads, and on nothing else of the store.  Two stages
that agree in these, and in what tasks read of their plans, write the same.
-/

namespace BatchFlow

open Results

namespace Stage

variable {first second : Stage} {graph graph' : StageGraph} {config : EngineConfig}
  {store store' : FileStore}

/-- The load reads the same files with the same contents. -/
def SameFiles (graph graph' : StageGraph) (store store' : FileStore) (operator other : Operator) :
    Prop :=
  graph.loadedFiles store operator = graph'.loadedFiles store' other ∧
    ∀ path ∈ graph.loadedFiles store operator, store.files.get? path = store'.files.get? path

theorem SameFiles.loadedRows {operator other : Operator}
    (same : SameFiles graph graph' store store' operator other) :
    graph.loadedRows store operator = graph'.loadedRows store' other := by
  rw [StageGraph.loadedRows, StageGraph.loadedRows, ← same.1, StageGraph.rowsOfFiles,
    StageGraph.rowsOfFiles]
  refine List.flatMap_congr fun path listed => ?_
  rw [same.2 path listed]

theorem SameFiles.symm {operator other : Operator}
    (same : SameFiles graph graph' store store' operator other) :
    SameFiles graph' graph store' store other operator :=
  ⟨same.1.symm, fun path listed => (same.2 path (same.1 ▸ listed)).symm⟩

/-- A load reads the same files from two stores that agree within its directory. -/
theorem sameFiles_of_directory {operator : Operator}
    (sameDirectory : ∀ source, operator.operation = .load source →
      graph.directoryOf source = graph'.directoryOf source)
    (agree : ∀ source directory, operator.operation = .load source →
      graph.directoryOf source = .ok directory → ∀ path, FileStore.Within directory path →
        store.files.get? path = store'.files.get? path) :
    SameFiles graph graph' store store' operator operator := by
  rw [SameFiles, StageGraph.loadedFiles, StageGraph.loadedFiles]
  cases kind : operator.operation with
  | load source =>
      simp only [← sameDirectory source kind]
      cases found : graph.directoryOf source with
      | error error => simp
      | ok directory =>
          have agreeThere := agree source directory kind found
          refine ⟨FileStore.list_congr agreeThere, fun path listed => ?_⟩
          exact agreeThere path (FileStore.mem_list listed).1
  | _ => simp

/-- Both stages have tasks of the same form, which read the same rows. -/
structure SameReads (first second : Stage) (graph graph' : StageGraph)
    (store store' : FileStore) : Prop where
  kind : first.kind = second.kind
  core : first.plan.core = second.plan.core
  reduceTasks : ∀ config, first.reduceTasks config = second.reduceTasks config
  loads : List.Forall₂ (fun operator other => SubPlan.Interchangeable operator other ∧
    (first.spreads operator = true → SameFiles graph graph' store store' operator other) ∧
      (first.replicates operator = true →
        graph.loadedRows store operator = graph'.loadedRows store' other))
    first.plan.operators second.plan.operators

namespace SameReads

variable (same : SameReads first second graph graph' store store')

include same

theorem symm : SameReads second first graph' graph store' store where
  kind := same.kind.symm
  core := same.core.symm
  reduceTasks config := (same.reduceTasks config).symm
  loads := by
    refine List.Forall₂.flip (same.loads.imp ?_)
    rintro operator other ⟨alike, sameFiles, sameRows⟩
    refine ⟨alike.symm, fun spread => ?_, fun replicated => ?_⟩
    · exact (sameFiles (spreads_congr same.core alike ▸ spread)).symm
    · exact (sameRows (replicates_congr same.core alike ▸ replicated)).symm

theorem replicatedRows :
    first.rowsOfLoads graph store first.replicates =
      second.rowsOfLoads graph' store' second.replicates := by
  refine rowsOfLoads_congr same.loads ?_ ?_ ?_
  · exact fun operator other isRelated => isRelated.1.id
  · exact fun operator other isRelated => replicates_congr same.core isRelated.1
  · exact fun operator other isRelated => isRelated.2.2

theorem allSplits :
    first.allSplits graph config store = second.allSplits graph' config store' := by
  refine flatMap_filter_congr same.loads ?_ ?_
  · exact fun operator other isRelated => spreads_congr same.core isRelated.1
  · intro operator other isRelated spread
    rw [isRelated.1.id, (isRelated.2.1 spread).1, splitsOf, splitsOf, same.kind]

/-- Every file of a split holds the same rows. -/
theorem splitFiles {split : Split} (member : split ∈ first.allSplits graph config store) :
    ∀ path ∈ split.files, store.files.get? path = store'.files.get? path := by
  obtain ⟨operator, inFilter, inSplits⟩ := List.mem_flatMap.mp member
  obtain ⟨inPlan, spread⟩ := List.mem_filter.mp inFilter
  obtain ⟨other, -, -, sameFiles, -⟩ := exists_mem_of_forall₂ same.loads inPlan
  intro path isFile
  exact (sameFiles spread).2 path ((splitsOf_load inSplits).2 path isFile)

theorem runSplit {phases : Phases} (broadcast : Bindings) {split : Split}
    (member : split ∈ first.allSplits graph config store) :
    first.runSplit phases store broadcast split =
      second.runSplit phases store' broadcast split := by
  have sameRead : store.readFiles split.files = store'.readFiles split.files :=
    FileStore.readFiles_congr (same.splitFiles member)
  rw [Stage.runSplit, Stage.runSplit, sameRead, ← first.plan.runMapTask_core, same.core,
    second.plan.runMapTask_core]

theorem shuffle (reducers : Nat) (outputs : List TaskOutput) :
    first.shuffle reducers outputs = second.shuffle reducers outputs := by
  rw [Stage.shuffle, Stage.shuffle, packages_congr same.core]

/-- Tasks that read the same compute the same. -/
theorem runTasks (resolves : ∀ operator ∈ second.plan.operators, graph'.Resolves operator)
    {tasks : StageTasks} (ran : first.runTasks graph config store = .ok tasks) :
    ∃ files, second.runTasks graph' config store' = .ok { tasks with broadcastFiles := files } := by
  obtain ⟨split, -, mapped, unreduced, reduced⟩ := runTasks_eq_ok.mp ran
  rw [same.replicatedRows] at mapped reduced
  refine ⟨_, runTasks_eq_ok.mpr ⟨?_, ⟨_, input_eq_ok.mpr ⟨resolves, rfl⟩, rfl⟩, ?_, unreduced, ?_⟩⟩
  · rw [← second.plan.phases_core, ← same.core, first.plan.phases_core]
    exact split
  · rw [← same.allSplits, ← mapM_congr fun split member => same.runSplit _ member]
    exact mapped
  · intro some
    obtain ⟨dealt, shuffled, ran⟩ := reduced some
    rw [same.shuffle, same.reduceTasks config] at shuffled
    refine ⟨dealt, shuffled, ?_⟩
    rw [← second.plan.runReduceTask_core, ← same.core, first.plan.runReduceTask_core]
    exact ran

theorem writes (tasks : StageTasks) (files : Nat) :
    { tasks with broadcastFiles := files }.writes second.plan = tasks.writes first.plan := by
  rw [← StageTasks.writes_core, ← same.core, StageTasks.writes_core]
  rfl

end SameReads

/-- A stage reads the same from two stores that agree within the directories of
its loads. -/
theorem sameReads_of_directories {stage : Stage}
    (agree : ∀ operator ∈ stage.plan.operators, ∀ source directory,
      operator.operation = .load source → graph.directoryOf source = .ok directory →
        ∀ path, FileStore.Within directory path →
          store.files.get? path = store'.files.get? path) :
    SameReads stage stage graph graph store store' where
  kind := rfl
  core := rfl
  reduceTasks _ := rfl
  loads := by
    refine List.forall₂_same.mpr fun operator inPlan => ?_
    have same : SameFiles graph graph store store' operator operator :=
      sameFiles_of_directory (fun _ _ => rfl) (agree operator inPlan)
    exact ⟨rfl, fun _ => same, fun _ => same.loadedRows⟩

theorem addInput_congr {stage : Stage} {operator : Operator}
    (same : SameFiles graph graph store store' operator operator) (input : StageInput) :
    stage.addInput graph config store input operator =
      stage.addInput graph config store' input operator := by
  rw [addInput, addInput]
  cases kind : operator.operation with
  | load source =>
      cases resolved : graph.directoryOf source with
      | error error => simp only [resolved, bind, Except.bind]
      | ok directory =>
          have sameList : store.list directory = store'.list directory := by
            have sameFiles := same.1
            rwa [StageGraph.loadedFiles_of_directory kind resolved,
              StageGraph.loadedFiles_of_directory kind resolved] at sameFiles
          have sameRead : store.readFiles (store'.list directory) =
              store'.readFiles (store'.list directory) :=
            FileStore.readFiles_congr fun path listed => same.2 path
              (by rwa [StageGraph.loadedFiles_of_directory kind resolved, sameList])
          simp only [resolved, bind, Except.bind, sameRead, sameList]
  | _ => rfl

/-- The tasks of a stage do the same, or fail in the same way, on two stores that
agree within the directories of its loads. -/
theorem runTasks_congr {stage : Stage}
    (agree : ∀ operator ∈ stage.plan.operators, ∀ source directory,
      operator.operation = .load source → graph.directoryOf source = .ok directory →
        ∀ path, FileStore.Within directory path →
          store.files.get? path = store'.files.get? path) :
    stage.runTasks graph config store = stage.runTasks graph config store' := by
  have sameInput : stage.input graph config store = stage.input graph config store' :=
    foldlM_congr fun operator inPlan input =>
      addInput_congr (sameFiles_of_directory (fun _ _ => rfl) (agree operator inPlan)) input
  have sameSplits (phases : Phases) (input : StageInput)
      (isInput : stage.input graph config store = .ok input) :
      input.splits.mapM (stage.runSplit phases store input.broadcast) =
        input.splits.mapM (stage.runSplit phases store' input.broadcast) := by
    obtain ⟨-, -, splits⟩ := input_parts isInput
    rw [splits]
    exact mapM_congr fun split member => (sameReads_of_directories agree).runSplit _ member
  rw [runTasks, runTasks, ← sameInput]
  cases stage.plan.phases with
  | error error => rfl
  | ok phases =>
      cases isInput : stage.input graph config store with
      | error error => rfl
      | ok input => simp only [bind, Except.bind, sameSplits phases input isInput]

end Stage

end BatchFlow
