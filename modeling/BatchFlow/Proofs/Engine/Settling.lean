import Mathlib.Data.List.Pairwise
import BatchFlow.Proofs.Engine.GraphRun
import BatchFlow.Proofs.Engine.SameReads

/-!
# Settled stores

A store is settled for a graph when running any of its stages again would store
what is already there, and no loaded dataset has changed.  If no store target
disturbs another stage or a dataset, a run leaves a settled store, whatever the
order of its stages; and if there is a settled store, the run succeeds and agrees
with it on every target.
-/

namespace BatchFlow

open FileStore ReadyQueue

namespace SubPlan

variable {plan : SubPlan}

/-- The plan loads the dataset. -/
def LoadsDataset (plan : SubPlan) (path : String) : Prop :=
  ∃ operator ∈ plan.operators, operator.operation = .load (.dataset path)

/-- The plan loads the output of the stage. -/
def LoadsStage (plan : SubPlan) (source : StageId) : Prop :=
  ∃ operator ∈ plan.operators, operator.operation = .load (.stage source)

theorem mem_targets_of_storeTarget? {target : String} (first : plan.storeTarget? = some target) :
    target ∈ plan.targets := by
  obtain ⟨operator, inPlan, isTarget⟩ := List.exists_of_findSome?_eq_some first
  exact List.mem_filterMap.mpr ⟨operator, inPlan, isTarget⟩

end SubPlan

namespace StageGraph

variable {graph : StageGraph} {config : EngineConfig} {start store final : FileStore}
  {done : List StageId}

/-- No store target disturbs a target of another stage or a loaded dataset. -/
structure Separate (graph : StageGraph) : Prop where
  targets : ∀ id stage id' stage', graph.stage? id = some stage → graph.stage? id' = some stage' →
    id ≠ id' → ∀ target ∈ stage.plan.targets, ∀ target' ∈ stage'.plan.targets, Apart target target'
  datasets : ∀ id stage id' stage', graph.stage? id = some stage → graph.stage? id' = some stage' →
    ∀ target ∈ stage.plan.targets, ∀ path, stage'.plan.LoadsDataset path → Apart target path

/-- The targets of all stores. -/
def storeTargets (graph : StageGraph) : List String :=
  graph.stages.flatMap fun stage => stage.plan.targets

/-- The datasets that some stage loads. -/
def loadedDatasets (graph : StageGraph) : List String :=
  graph.stages.flatMap fun stage => stage.plan.operators.filterMap fun operator =>
    operator.operation.loadedDataset?

/-- No store target is, contains or lies within another one or a loaded dataset. -/
def SeparatePaths (graph : StageGraph) : Prop :=
  graph.storeTargets.Pairwise Apart ∧
    ∀ target ∈ graph.storeTargets, ∀ path ∈ graph.loadedDatasets, Apart target path

instance (graph : StageGraph) : Decidable graph.SeparatePaths :=
  inferInstanceAs (Decidable (_ ∧ _))

theorem mem_loadedDatasets {stage : Stage} {id : StageId} {path : String}
    (found : graph.stage? id = some stage) (loads : stage.plan.LoadsDataset path) :
    path ∈ graph.loadedDatasets := by
  obtain ⟨operator, inPlan, isLoad⟩ := loads
  refine List.mem_flatMap.mpr ⟨stage, OrderedMap.mem_values_iff.mpr ⟨id, found⟩, ?_⟩
  exact List.mem_filterMap.mpr ⟨operator, inPlan, Operation.loadedDataset?_eq_some.mpr isLoad⟩

/-- Separate paths make for stages that do not disturb each other. -/
theorem SeparatePaths.separate (paths : graph.SeparatePaths)
    (ownId : ∀ id stage, graph.stage? id = some stage → stage.id = id) : graph.Separate := by
  have isStage {id : StageId} {stage : Stage} (found : graph.stage? id = some stage) :
      stage ∈ graph.stages := OrderedMap.mem_values_iff.mpr ⟨id, found⟩
  refine ⟨?_, ?_⟩
  · intro id stage id' stage' found found' different
    have between := (List.pairwise_flatMap.mp paths.1).2
    have symmetric : Std.Symm fun stage stage' : Stage => ∀ target ∈ stage.plan.targets,
        ∀ target' ∈ stage'.plan.targets, Apart target target' :=
      ⟨fun _ _ apart target isTarget target' isTarget' =>
        (apart target' isTarget' target isTarget).symm⟩
    refine between.forall (isStage found) (isStage found') fun same => different ?_
    rw [← ownId id stage found, ← ownId id' stage' found', same]
  · intro id stage id' stage' found found' target isTarget path loads
    exact paths.2 target (List.mem_flatMap.mpr ⟨stage, isStage found, isTarget⟩) path
      (mem_loadedDatasets found' loads)

/-- Every stage waits for the stages it loads from. -/
def Backed (graph : StageGraph) : Prop :=
  ∀ id stage, graph.stage? id = some stage → ∀ source, stage.plan.LoadsStage source →
    source ∈ graph.predecessors id

theorem directoryOf_stage_eq_ok {source : StageId} {directory : String} :
    graph.directoryOf (.stage source) = .ok directory ↔
      ∃ stage, graph.stage? source = some stage ∧ stage.plan.storeTarget? = some directory := by
  rw [directoryOf]
  cases graph.stage? source with
  | none => simp
  | some stage => cases target : stage.plan.storeTarget? <;> simp [target]

/-- A path lies within a target of one of the stages. -/
def Written (graph : StageGraph) (done : List StageId) (path : String) : Prop :=
  ∃ id ∈ done, ∃ stage, graph.stage? id = some stage ∧
    ∃ target ∈ stage.plan.targets, Within target path

/-- The targets of a stage hold what its tasks store when they read the store. -/
def Holds (graph : StageGraph) (config : EngineConfig) (store : FileStore) (stage : Stage) : Prop :=
  ∃ tasks, stage.runTasks graph config store = .ok tasks ∧
    ∀ target ∈ stage.plan.targets, ∀ path, Within target path →
      store.files.get? path =
        (FileStore.empty.replaceAll (tasks.writes stage.plan)).files.get? path

/-- The store holds what every stage stores, and the datasets are as they were. -/
structure Settled (graph : StageGraph) (config : EngineConfig) (start store : FileStore) :
    Prop where
  datasets : ∀ id stage directory, graph.stage? id = some stage →
    stage.plan.LoadsDataset directory → ∀ path, Within directory path →
      store.files.get? path = start.files.get? path
  stages : ∀ id stage, graph.stage? id = some stage → graph.Holds config store stage

theorem inside_writes {stage : Stage} {tasks : StageTasks} {path : String}
    (inside : ∃ target ∈ stage.plan.targets, Within target path) :
    ∃ write ∈ tasks.writes stage.plan, Within write.1 path := by
  obtain ⟨target, isTarget, within⟩ := inside
  obtain ⟨operator, inPlan, isStore⟩ := SubPlan.mem_targets.mp isTarget
  exact ⟨_, tasks.mem_writes inPlan isStore, within⟩

theorem get?_writes_of_outside {stage : Stage} {tasks : StageTasks} {path : String}
    (outside : ∀ target ∈ stage.plan.targets, ¬ Within target path) :
    (store.replaceAll (tasks.writes stage.plan)).files.get? path = store.files.get? path := by
  refine get?_replaceAll_of_not_within fun write written => outside write.1 ?_
  rw [← tasks.map_fst_writes]
  exact List.mem_map_of_mem written

theorem written_concat {id : StageId} {stage : Stage} {path : String}
    (found : graph.stage? id = some stage) :
    graph.Written (done ++ [id]) path ↔
      graph.Written done path ∨ ∃ target ∈ stage.plan.targets, Within target path := by
  simp [Written, or_and_right, exists_or, found]

section Separate

variable (separate : graph.Separate) (backed : graph.Backed)

include separate backed

/-- What a stage reads is not within the targets of a stage it does not load from. -/
theorem not_within_of_reads {id other : StageId} {stage writer : Stage} {operator : Operator}
    {source : LoadSource} {directory path target : String}
    (found : graph.stage? id = some stage) (foundWriter : graph.stage? other = some writer)
    (notPredecessor : other ∉ graph.predecessors id) (inPlan : operator ∈ stage.plan.operators)
    (isLoad : operator.operation = .load source)
    (resolved : graph.directoryOf source = .ok directory) (within : Within directory path)
    (isTarget : target ∈ writer.plan.targets) : ¬ Within target path := by
  refine within.not_within (Apart.symm ?_)
  cases source with
  | dataset dataset =>
      obtain rfl := Except.ok.inj resolved
      exact separate.datasets other writer id stage foundWriter found target isTarget _
        ⟨operator, inPlan, isLoad⟩
  | stage source =>
      obtain ⟨feeder, foundFeeder, isDirectory⟩ := directoryOf_stage_eq_ok.mp resolved
      have isPredecessor := backed id stage found source ⟨operator, inPlan, isLoad⟩
      have different : other ≠ source := fun same => notPredecessor (same ▸ isPredecessor)
      exact separate.targets other writer source feeder foundWriter foundFeeder different target
        isTarget directory (SubPlan.mem_targets_of_storeTarget? isDirectory)

variable {id other : StageId} {stage writer : Stage} {tasks written : StageTasks}

variable (written) in
/-- Running a stage does not change what the stages that do not load from it compute. -/
theorem runTasks_after (found : graph.stage? id = some stage)
    (foundWriter : graph.stage? other = some writer)
    (notPredecessor : other ∉ graph.predecessors id)
    (ran : stage.runTasks graph config store = .ok tasks) :
    ∃ files, stage.runTasks graph config (store.replaceAll (written.writes writer.plan)) =
      .ok { tasks with broadcastFiles := files } := by
  refine Stage.SameReads.runTasks (Stage.sameReads_of_directories ?_)
    (Stage.resolves_of_runTasks ran) ran
  intro operator inPlan source directory isLoad resolved path within
  exact (get?_writes_of_outside fun target isTarget => not_within_of_reads separate backed found
    foundWriter notPredecessor inPlan isLoad resolved within isTarget).symm

theorem Holds.after (holds : graph.Holds config store stage) (found : graph.stage? id = some stage)
    (foundWriter : graph.stage? other = some writer) (different : other ≠ id)
    (notPredecessor : other ∉ graph.predecessors id) :
    graph.Holds config (store.replaceAll (written.writes writer.plan)) stage := by
  obtain ⟨tasks, ran, content⟩ := holds
  obtain ⟨files, ranAfter⟩ :=
    runTasks_after separate backed written found foundWriter notPredecessor ran
  refine ⟨_, ranAfter, fun target isTarget path within => ?_⟩
  rw [get?_writes_of_outside fun target' isTarget' => within.not_within
    (separate.targets id stage other writer found foundWriter (Ne.symm different) target isTarget
      target' isTarget')]
  exact content target isTarget path within

/-- Some stages have been run on the store, one after another. -/
structure Ran (graph : StageGraph) (config : EngineConfig) (start : FileStore)
    (done : List StageId) (store : FileStore) : Prop where
  outside : ∀ path, ¬ graph.Written done path → store.files.get? path = start.files.get? path
  holds : ∀ id ∈ done, ∀ stage, graph.stage? id = some stage → graph.Holds config store stage

theorem Ran.step (ran : graph.Ran config start done store) (found : graph.stage? id = some stage)
    (fresh : id ∉ done) (ordered : graph.PredecessorsFirst (done ++ [id]))
    (tasksRan : stage.runTasks graph config store = .ok tasks) :
    graph.Ran config start (done ++ [id]) (store.replaceAll (tasks.writes stage.plan)) := by
  have notPredecessor {other : StageId} (member : other ∈ done ++ [id]) :
      id ∉ graph.predecessors other := by
    intro isPredecessor
    rcases List.mem_append.mp member with isDone | isLast
    · exact fresh (ordered.left.closed isDone isPredecessor)
    · rw [List.mem_singleton.mp isLast] at isPredecessor
      exact fresh (ordered done id [] rfl id isPredecessor)
  refine ⟨fun path outside => ?_, fun other member reader foundReader => ?_⟩
  · rw [written_concat found, not_or] at outside
    rw [get?_writes_of_outside fun target isTarget within => outside.2 ⟨target, isTarget, within⟩]
    exact ran.outside path outside.1
  · by_cases same : other = id
    · subst same
      obtain rfl := Option.some.inj (found.symm.trans foundReader)
      obtain ⟨files, ranAfter⟩ := runTasks_after separate backed tasks found found
        (notPredecessor member) tasksRan
      refine ⟨_, ranAfter, fun target isTarget path within => ?_⟩
      exact get?_replaceAll_congr (inside_writes ⟨target, isTarget, within⟩)
    · have isDone : other ∈ done := by simpa [same] using member
      exact (ran.holds other isDone reader foundReader).after separate backed foundReader found
        (Ne.symm same) (notPredecessor member)

theorem Ran.through {rest : List StageId} {after : FileStore}
    (ran : graph.Ran config start done store) (nodup : (done ++ rest).Nodup)
    (ordered : graph.PredecessorsFirst (done ++ rest))
    (through : graph.RunsThrough config rest store after) :
    graph.Ran config start (done ++ rest) after := by
  induction rest generalizing done store with
  | nil =>
      obtain rfl := through
      rwa [List.append_nil]
  | cons id rest ih =>
      obtain ⟨stage, tasks, found, tasksRan, through⟩ := through
      rw [List.append_cons] at nodup ordered ⊢
      have fresh : id ∉ done := fun member =>
        (List.nodup_append.mp (List.nodup_append.mp nodup).1).2.2 id member id
          List.mem_cons_self rfl
      exact ih (ran.step separate backed found fresh ordered.left tasksRan) nodup ordered through

/-- Running all stages leaves a settled store. -/
theorem settled_of_runsThrough {order : List StageId} {after : FileStore}
    (all : order.Perm graph.stageIds) (ordered : graph.PredecessorsFirst order)
    (through : graph.RunsThrough config order start after) :
    graph.Settled config start after := by
  have initial : graph.Ran config start [] start := ⟨fun _ _ => rfl, by simp⟩
  have ran := initial.through separate backed (all.nodup_iff.mpr graph.nodup_stageIds) ordered
    through
  refine ⟨fun id stage directory found isDataset path within => ?_, fun id stage found => ?_⟩
  · refine ran.outside path ?_
    rintro ⟨other, -, writer, foundWriter, target, isTarget, inside⟩
    exact within.not_within
      (separate.datasets other writer id stage foundWriter found target isTarget directory
        isDataset).symm inside
  · exact ran.holds id (all.mem_iff.mpr (mem_stageIds.mpr ⟨stage, found⟩)) stage found

/-- A store on the way to another one: the targets of the stages already run hold
what they hold there. -/
structure Approaches (graph : StageGraph) (start final : FileStore) (done : List StageId)
    (store : FileStore) : Prop where
  outside : ∀ path, ¬ graph.Written done path → store.files.get? path = start.files.get? path
  inside : ∀ path, graph.Written done path → store.files.get? path = final.files.get? path

theorem Approaches.step (settled : graph.Settled config start final)
    (approaches : graph.Approaches start final done store)
    (found : graph.stage? id = some stage)
    (predecessorsDone : ∀ predecessor ∈ graph.predecessors id, predecessor ∈ done) :
    ∃ tasks, stage.runTasks graph config store = .ok tasks ∧
      graph.Approaches start final (done ++ [id]) (store.replaceAll (tasks.writes stage.plan)) := by
  obtain ⟨tasks, ran, content⟩ := settled.stages id stage found
  have same : Stage.SameReads stage stage graph graph final store := by
    refine Stage.sameReads_of_directories fun operator inPlan source directory isLoad resolved
      path within => ?_
    cases source with
    | dataset dataset =>
        obtain rfl := Except.ok.inj resolved
        have isDataset : stage.plan.LoadsDataset dataset := ⟨operator, inPlan, isLoad⟩
        rw [settled.datasets id stage dataset found isDataset path within]
        refine (approaches.outside path ?_).symm
        rintro ⟨other, -, writer, foundWriter, target, isTarget, inside⟩
        exact within.not_within
          (separate.datasets other writer id stage foundWriter found target isTarget dataset
            isDataset).symm inside
    | stage source =>
        obtain ⟨feeder, foundFeeder, isDirectory⟩ := directoryOf_stage_eq_ok.mp resolved
        have isDone := predecessorsDone source
          (backed id stage found source ⟨operator, inPlan, isLoad⟩)
        refine (approaches.inside path ⟨source, isDone, feeder, foundFeeder, directory, ?_⟩).symm
        exact ⟨SubPlan.mem_targets_of_storeTarget? isDirectory, within⟩
  obtain ⟨files, ranHere⟩ := same.runTasks (Stage.resolves_of_runTasks ran) ran
  refine ⟨_, ranHere, fun path outside => ?_, fun path written => ?_⟩
  · rw [written_concat found, not_or] at outside
    rw [get?_writes_of_outside fun target isTarget within => outside.2 ⟨target, isTarget, within⟩]
    exact approaches.outside path outside.1
  · by_cases inside : ∃ target ∈ stage.plan.targets, Within target path
    · obtain ⟨target, isTarget, within⟩ := inside
      rw [content target isTarget path within]
      exact get?_replaceAll_congr (inside_writes ⟨target, isTarget, within⟩)
    · rw [get?_writes_of_outside fun target isTarget within => inside ⟨target, isTarget, within⟩]
      rw [written_concat found] at written
      exact approaches.inside path (written.resolve_right inside)

theorem Approaches.through (settled : graph.Settled config start final) {rest : List StageId}
    (approaches : graph.Approaches start final done store)
    (ordered : graph.PredecessorsFirst (done ++ rest))
    (exist : ∀ id ∈ rest, id ∈ graph.stageIds) :
    ∃ after, graph.RunsThrough config rest store after ∧
      graph.Approaches start final (done ++ rest) after := by
  induction rest generalizing done store with
  | nil => exact ⟨store, rfl, by rwa [List.append_nil]⟩
  | cons id rest ih =>
      obtain ⟨stage, found⟩ := mem_stageIds.mp (exist id List.mem_cons_self)
      obtain ⟨tasks, ran, next⟩ := approaches.step separate backed settled found
        (ordered done id rest rfl)
      rw [List.append_cons] at ordered ⊢
      obtain ⟨after, through, arrived⟩ :=
        ih next ordered fun other member => exist other (List.mem_cons_of_mem _ member)
      exact ⟨after, ⟨stage, tasks, found, ran, through⟩, arrived⟩

/-- If there is a settled store, all stages run, and leave the same in every target. -/
theorem runsThrough_of_settled (settled : graph.Settled config start final)
    {order : List StageId} (all : order.Perm graph.stageIds)
    (ordered : graph.PredecessorsFirst order) :
    ∃ after, graph.RunsThrough config order start after ∧
      ∀ id stage, graph.stage? id = some stage → ∀ target ∈ stage.plan.targets,
        after.rowsOf target = final.rowsOf target := by
  have initial : graph.Approaches start final [] start := ⟨fun _ _ => rfl, by simp [Written]⟩
  obtain ⟨after, through, arrived⟩ := initial.through separate backed settled ordered
    fun id member => all.mem_iff.mp member
  refine ⟨after, through, fun id stage found target isTarget => rowsOf_congr fun path within => ?_⟩
  have isDone := all.mem_iff.mpr (mem_stageIds.mpr ⟨stage, found⟩)
  exact arrived.inside path ⟨id, isDone, stage, found, target, isTarget, within⟩

end Separate

theorem backed_of_valid (checked : ∀ id ∈ graph.stageIds, graph.checkStage id = .ok ()) :
    graph.Backed := by
  rintro id stage found source ⟨operator, inPlan, isLoad⟩
  obtain ⟨other, foundOther, -, edges⟩ :=
    checkStage_eq_ok.mp (checked id (mem_stageIds.mpr ⟨stage, found⟩))
  obtain rfl := Option.some.inj (found.symm.trans foundOther)
  exact mem_predecessors.mpr (edges operator inPlan source isLoad)

theorem mem_leafTargets {target : String} :
    target ∈ graph.leafTargets ↔ ∃ id ∈ graph.leaves, ∃ stage, graph.stage? id = some stage ∧
      stage.plan.storeTarget? = some target := by
  simp only [leafTargets, List.mem_filterMap, Option.bind_eq_some_iff]

theorem leafRows_congr {other : StageGraph} {first second : FileStore}
    (sameTargets : graph.leafTargets = other.leafTargets)
    (same : ∀ target ∈ graph.leafTargets, first.rowsOf target = second.rowsOf target) :
    graph.leafRows first = other.leafRows second := by
  rw [leafRows, leafRows, ← sameTargets]
  refine congrArg OrderedMap.ofList (List.map_congr_left fun target isTarget => ?_)
  rw [same target isTarget]

/-- A valid graph whose targets do not disturb each other runs exactly when there
is a settled store, and its outputs are the rows of that store. -/
theorem runOutputs?_eq_some_iff_settled (separate : graph.Separate)
    (valid : ∃ count, graph.validate = .ok count) {outputs : OrderedMap String (List Row)} :
    graph.runOutputs? config start = some outputs ↔
      ∃ final, graph.Settled config start final ∧ outputs = graph.leafRows final := by
  obtain ⟨exist, ⟨rank, ranked⟩, checked⟩ := validate_eq_ok_iff.mp valid
  have backed := backed_of_valid checked
  obtain ⟨all, ordered, -⟩ := releaseOrder_covers ranked exist
  rw [runOutputs?_eq_some_iff]
  constructor
  · rintro ⟨-, after, through, rfl⟩
    exact ⟨after, settled_of_runsThrough separate backed all ordered through, rfl⟩
  · rintro ⟨final, settled, rfl⟩
    obtain ⟨after, through, same⟩ := runsThrough_of_settled separate backed settled all ordered
    refine ⟨valid, after, through, leafRows_congr rfl fun target isLeafTarget => ?_⟩
    obtain ⟨id, -, stage, found, isTarget⟩ := mem_leafTargets.mp isLeafTarget
    exact (same id stage found target (SubPlan.mem_targets_of_storeTarget? isTarget)).symm

end StageGraph

end BatchFlow
