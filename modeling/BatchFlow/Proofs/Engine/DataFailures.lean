import BatchFlow.Proofs.Engine.DataFlow
import BatchFlow.Proofs.Task.Availability

/-!
# Runs that fail on data only

The check of a graph rules out every failure of a run but one: an operator may
meet data it cannot work on.  Plans have phases, loads have directories, listed
files exist, tasks find the rows of their inputs, and every stage is released.
The one thing that the check does not look at is whether a stage that is loaded
from stores anything.  An operator reports data it cannot work on, unless it sorts
ambiguous values.
-/

namespace BatchFlow

open ReadyQueue Results Steps

namespace Stage

variable {stage : Stage} {graph : StageGraph} {config : EngineConfig} {store : FileStore}

/-- Every index that the tasks of a stage use lies in its list: those of the key
columns and of the fragment side of a join, and those of the reducers that groups
are dealt to. -/
structure IndicesInRange (stage : Stage) (config : EngineConfig) : Prop where
  joinSides : ∀ id operator keys fragment, stage.plan.get? id = some operator →
    operator.operation = .join keys fragment → ∀ state sides,
      (List.range operator.inputs.length).mapM (TaskState.input state operator) = .ok sides →
        keys.length = sides.length ∧ fragment.toNat < sides.length
  reducerSlots : ∀ groups : Groups,
    (groups.deal (stage.reduceTasks config).toNat).length =
      max (stage.reduceTasks config).toNat 1

theorem length_deal (groups : Groups) (reducers : Nat) :
    (groups.deal reducers).length = max reducers 1 := by
  simp [Groups.deal]

theorem shuffle_failsOnlyOnData (reducers : Nat) (outputs : List TaskOutput) :
    FailsWith RunError.IsOnData (stage.shuffle reducers outputs) :=
  .bind (.mapM fun _ _ => .bind (liftOperator_failsOnlyOnData _) fun _ _ => .ok _) fun _ _ => .ok _

section WellFormed

variable (wellFormed : stage.plan.WellFormed)

include wellFormed

theorem indicesInRange (config : EngineConfig) : stage.IndicesInRange config where
  joinSides id operator keys fragment found isJoin state sides read := by
    have wellFormedOperator := wellFormed.operators id operator found
    have sameLength := (mapM_eq_ok.mp read).length_eq
    rw [List.length_range] at sameLength
    rw [← sameLength]
    exact ⟨wellFormedOperator.keyCount keys fragment isJoin,
      wellFormedOperator.fragmentSide keys fragment isJoin⟩
  reducerSlots groups := length_deal groups _

theorem exists_rowsOfLoads_replicated {id : OpId} (replicated : stage.plan.Replicated id) :
    ∃ rows, (stage.rowsOfLoads graph store stage.replicates).get? id = some rows := by
  obtain ⟨_, _, _, _, _, _, _, _, source, found, isLoad⟩ :=
    SubPlan.replicated_iff.mp replicated
  exact ⟨_, (get?_rowsOfLoads wellFormed.ownIds).mpr ⟨source, found,
    (replicates_iff wellFormed.ownIds found).mpr ⟨isLoad, replicated⟩, rfl⟩⟩

/-- A map task finds its files, and rows for every operator of its phase. -/
theorem runSplit_failsOnlyOnData {phases : Phases} (phased : stage.plan.phases = .ok phases)
    (broadcast : Bindings) {split : Split}
    (member : split ∈ stage.allSplits graph config store) :
    FailsWith RunError.IsOnData (stage.runSplit phases store broadcast split) := by
  have read := FileStore.readFiles_eq_ok.mpr ⟨(mem_allSplits wellFormed.ownIds member).2, rfl⟩
  exact .bind (.of_eq_ok read) fun rows _ => wellFormed.runMapTask_failsOnlyOnData phased _

theorem runTasks_failsOnlyOnData
    (resolves : ∀ operator ∈ stage.plan.operators, graph.Resolves operator) :
    FailsWith RunError.IsOnData (stage.runTasks graph config store) := by
  obtain ⟨phases, phased⟩ := wellFormed.exists_phases
  refine .bind (.of_eq_ok phased) fun phases phased => ?_
  refine .bind (.of_eq_ok (input_eq_ok.mpr ⟨resolves, rfl⟩)) fun input isInput => ?_
  obtain ⟨-, broadcast, splits⟩ := input_parts isInput
  rw [broadcast, splits]
  -- Only the tasks and the shuffle between them are left, and these work on rows.
  refine .bind (.mapM fun split member =>
    runSplit_failsOnlyOnData wellFormed phased _ member) fun mapOutputs _ => ?_
  split
  · exact .ok _
  · refine .bind (shuffle_failsOnlyOnData _ _) fun dealt _ => .bind (.mapM fun groups _ => ?_)
      fun reduceOutputs _ => .ok _
    exact wellFormed.runReduceTask_failsOnlyOnData phased
      (fun _ => exists_rowsOfLoads_replicated wellFormed) groups

theorem run_failsOnlyOnData
    (resolves : ∀ operator ∈ stage.plan.operators, graph.Resolves operator) :
    FailsWith RunError.IsOnData (resultOf (stage.run graph config store)) :=
  stage.run_failsWith_of_runTasks graph config store (runTasks_failsOnlyOnData wellFormed resolves)

end WellFormed

end Stage

namespace StageGraph

variable {graph : StageGraph} {config : EngineConfig} {store : FileStore}

/-- Every stage that is loaded from stores something. -/
def LoadedStagesStore (graph : StageGraph) : Prop :=
  ∀ id stage, graph.stage? id = some stage → ∀ source, stage.plan.LoadsStage source →
    ∀ feeder, graph.stage? source = some feeder → ∃ target, feeder.plan.storeTarget? = some target

theorem resolves_of_loadedStagesStore (stores : graph.LoadedStagesStore)
    (exist : graph.EdgesExist) (backed : graph.Backed) {id : StageId} {stage : Stage}
    (found : graph.stage? id = some stage) :
    ∀ operator ∈ stage.plan.operators, graph.Resolves operator := by
  intro operator inPlan source isLoad
  cases source with
  | dataset path => exact ⟨path, rfl⟩
  | stage source =>
      have loads : stage.plan.LoadsStage source := ⟨operator, inPlan, isLoad⟩
      have edge := mem_predecessors.mp (backed id stage found source loads)
      obtain ⟨feeder, foundFeeder⟩ := mem_stageIds.mp (exist _ edge).1
      obtain ⟨target, isTarget⟩ := stores id stage found source loads feeder foundFeeder
      exact ⟨target, directoryOf_stage_eq_ok.mpr ⟨feeder, foundFeeder, isTarget⟩⟩

theorem wellFormed_of_valid
    (ownIds : ∀ id stage, graph.stage? id = some stage → stage.plan.OwnIds)
    (valid : ∃ count, graph.validate = .ok count) {id : StageId} {stage : Stage}
    (found : graph.stage? id = some stage) : stage.plan.WellFormed := by
  obtain ⟨-, -, checked⟩ := validate_eq_ok_iff.mp valid
  obtain ⟨other, foundOther, validPlan, -⟩ :=
    checkStage_eq_ok.mp (checked id (mem_stageIds.mpr ⟨stage, found⟩))
  obtain rfl := Option.some.inj (found.symm.trans foundOther)
  exact (ownIds id stage found).wellFormed validPlan

theorem runReady_failsOnlyOnData
    (reliable : ∀ id stage, graph.stage? id = some stage → ∀ store,
      FailsWith RunError.IsOnData (resultOf (stage.run graph config store)))
    {done : List StageId} {queue : ReadyQueue} (releasing : Releasing graph done queue)
    {fuel : Nat} {jobs : List Job} :
    FailsWith RunError.IsOnData (resultOf (graph.runReady config fuel queue jobs store)) := by
  -- By the invariant of the queue every released stage exists.
  induction fuel generalizing done queue jobs store with
  | zero => exact .ok _
  | succ fuel ih =>
      cases isReady : queue.ready with
      | nil =>
          rw [runReady_of_stuck isReady]
          exact .ok _
      | cons next rest =>
          obtain ⟨isStage, -, -⟩ := releasing.next_released isReady
          obtain ⟨stage, found⟩ := mem_stageIds.mp isStage
          rw [runReady_of_ready isReady found]
          exact .bindStep (reliable next stage found store) fun stats after =>
            ih (releasing.step isReady)

theorem run_failsOnlyOnData
    (ownIds : ∀ id stage, graph.stage? id = some stage → stage.plan.OwnIds)
    (valid : ∃ count, graph.validate = .ok count) (stores : graph.LoadedStagesStore) :
    FailsWith RunError.IsOnData (resultOf (graph.run config store)) := by
  have ⟨exist, _, checked⟩ := validate_eq_ok_iff.mp valid
  have reliable (id : StageId) (stage : Stage) (found : graph.stage? id = some stage)
      (store : FileStore) : FailsWith RunError.IsOnData (resultOf (stage.run graph config store)) :=
    Stage.run_failsOnlyOnData (wellFormed_of_valid ownIds valid found)
      (resolves_of_loadedStagesStore stores exist (backed_of_valid checked) found)
  have readyFails : FailsWith RunError.IsOnData
      (resultOf (graph.runReady config graph.size (ofGraph graph) [] store)) :=
    runReady_failsOnlyOnData reliable (Releasing.initial exist)
  rw [run_of_valid valid]
  cases ran : graph.runReady config graph.size (ofGraph graph) [] store with
  | ok final after => exact .ok _
  | error error after => exact .error (readyFails error (congrArg resultOf ran))

/-- A graph that passes its check, with every operator under its own identifier and
a store in every stage that is loaded from, runs, or fails because some operator
cannot work on its data.  The operator reports this, unless it sorts ambiguous values:
then it may stop the program.  That stages have their own identifiers and that edges run
between different ones need not be assumed. -/
theorem run_fails_only_on_data
    (ownIds : ∀ id stage, graph.stage? id = some stage → stage.plan.OwnIds)
    (valid : ∃ count, graph.validate = .ok count) (stores : graph.LoadedStagesStore)
    (config : EngineConfig) (store : FileStore) :
    ((∃ outcome after, graph.run config store = .ok outcome after) ∨
      (∃ cause after, graph.run config store = .error (.operator cause) after ∧
        cause.isReported = true) ∨
      ∃ values after, graph.run config store = .error (.operator (.noTotalOrder values)) after ∧
        ¬ Scalar.UnambiguousAmong values) ∧
    ∀ id stage, graph.stage? id = some stage → stage.IndicesInRange config := by
  refine ⟨?_, fun id stage found =>
    Stage.indicesInRange (wellFormed_of_valid ownIds valid found) config⟩
  have onData : FailsWith RunError.IsOnData (resultOf (graph.run config store)) :=
    run_failsOnlyOnData ownIds valid stores
  have justified := graph.run_failsWith config store
  cases ran : graph.run config store with
  | ok outcome after => exact .inl ⟨outcome, after, rfl⟩
  | error error after =>
      rw [ran] at onData justified
      obtain ⟨cause, rfl⟩ := onData _ rfl
      cases cause with
      | noTotalOrder values => exact .inr (.inr ⟨values, after, rfl, justified _ rfl⟩)
      | _ => exact .inr (.inl ⟨_, after, rfl, rfl⟩)

/-- A plan that adds up the sales of each region as another stage stored them, and
joins the totals with the regions. -/
def joinedTotals : SubPlan :=
  ((((((SubPlan.empty.insert ⟨⟨0⟩, .load (.stage ⟨0⟩), []⟩).insert
    ⟨⟨1⟩, .rearrange 0, [⟨0⟩]⟩).insert
    ⟨⟨2⟩, .package none false, [⟨1⟩]⟩).insert
    ⟨⟨3⟩, .forEach [.groupKey, .aggregate .sum 1 false], [⟨2⟩]⟩).insert
    ⟨⟨4⟩, .load (.dataset "regions"), []⟩).insert
    ⟨⟨5⟩, .join [0, 0] 0, [⟨3⟩, ⟨4⟩]⟩).insert
    ⟨⟨6⟩, .store "joined", [⟨5⟩]⟩

/-- A graph that copies the sales and joins their totals. -/
def joinedGraph : StageGraph :=
  ⟨(OrderedMap.insert ∅ ⟨0⟩ ⟨⟨0⟩, .ordinary, copyPlan (.dataset "sales") "copy", {}⟩).insert
    ⟨1⟩ ⟨⟨1⟩, .ordinary, joinedTotals, {}⟩, OrderedSet.insert ∅ ⟨⟨0⟩, ⟨1⟩⟩, 2⟩

theorem stage?_joinedGraph {id : StageId} {stage : Stage}
    (found : joinedGraph.stage? id = some stage) :
    stage = ⟨⟨1⟩, .ordinary, joinedTotals, {}⟩ ∨
      stage = ⟨⟨0⟩, .ordinary, copyPlan (.dataset "sales") "copy", {}⟩ := by
  simp only [joinedGraph, stage?, OrderedMap.get?_insert] at found
  split at found
  · exact .inl (Option.some.inj found).symm
  · split at found
    · exact .inr (Option.some.inj found).symm
    · cases found

theorem valid_joinedGraph : joinedGraph.validate = .ok 2 := by
  have order : joinedGraph.order = .ok [⟨0⟩, ⟨1⟩] := by cbv
  rw [validate, order]
  rfl

theorem loadedStagesStore_joinedGraph : joinedGraph.LoadedStagesStore := by
  intro _ _ _ _ _ feeder found
  rcases stage?_joinedGraph found with rfl | rfl
  · exact ⟨"joined", rfl⟩
  · exact ⟨"copy", rfl⟩

/-- The totals are joined in the reduce phase, with regions that every reduce task
reads in full. -/
theorem run_fails_only_on_data_joinedGraph :
    (∀ id stage, joinedGraph.stage? id = some stage → stage.plan.OwnIds) ∧
      joinedGraph.validate = .ok 2 ∧ joinedGraph.LoadedStagesStore ∧
      ((∃ outcome after, joinedGraph.run {} Stage.salesStore = .ok outcome after) ∨
        (∃ cause after, joinedGraph.run {} Stage.salesStore = .error (.operator cause) after ∧
          cause.isReported = true) ∨
        ∃ values after,
          joinedGraph.run {} Stage.salesStore = .error (.operator (.noTotalOrder values)) after ∧
            ¬ Scalar.UnambiguousAmong values) ∧
      ∀ id stage, joinedGraph.stage? id = some stage → stage.IndicesInRange {} := by
  have ownIds : ∀ id stage, joinedGraph.stage? id = some stage → stage.plan.OwnIds := by
    intro id stage found
    rcases stage?_joinedGraph found with rfl | rfl
    · exact ((((((SubPlan.OwnIds.empty.insert _).insert _).insert _).insert _).insert _).insert
        _).insert _
    · exact (SubPlan.OwnIds.empty.insert _).insert _
  exact ⟨ownIds, valid_joinedGraph, loadedStagesStore_joinedGraph,
    run_fails_only_on_data ownIds ⟨2, valid_joinedGraph⟩ loadedStagesStore_joinedGraph {}
      Stage.salesStore⟩

/-- A graph that passes its check, with nothing loaded from a stage, may stop the program. -/
theorem sortingGraph_stops :
    (∀ id stage, Stage.sortingGraph.stage? id = some stage → stage.plan.OwnIds) ∧
      Stage.sortingGraph.validate = .ok 1 ∧ Stage.sortingGraph.LoadedStagesStore ∧
      ∃ error after, Stage.sortingGraph.run {} Stage.readingsStore = .error error after ∧
        error.stopsProgram = true := by
  have onlyStage {id : StageId} {stage : Stage}
      (found : Stage.sortingGraph.stage? id = some stage) : stage = Stage.sortingStage := by
    simp only [Stage.sortingGraph, stage?, OrderedMap.get?_insert] at found
    split at found
    · exact (Option.some.inj found).symm
    · cases found
  have valid : Stage.sortingGraph.validate = .ok 1 := by
    have order : Stage.sortingGraph.order = .ok [⟨0⟩] := by cbv
    rw [validate, order]
    rfl
  refine ⟨fun id stage found => ?_, valid, fun _ _ _ _ _ feeder found => ?_, ?_⟩
  · rw [onlyStage found]
    exact ((SubPlan.OwnIds.empty.insert _).insert _).insert _
  · rw [onlyStage found]
    exact ⟨"sorted", rfl⟩
  · obtain ⟨values, after, stopped⟩ := Stage.stopsOver_sortingStage
    have isReady : (ofGraph Stage.sortingGraph).ready = [⟨0⟩] := rfl
    have found : Stage.sortingGraph.stage? ⟨0⟩ = some Stage.sortingStage := rfl
    refine ⟨.operator (.noTotalOrder values), after, ?_, rfl⟩
    rw [run_of_valid ⟨1, valid⟩, show Stage.sortingGraph.size = 0 + 1 from rfl,
      runReady_of_ready isReady found, bind_apply, stopped]

end StageGraph

end BatchFlow
