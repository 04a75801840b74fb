import BatchFlow.Proofs.Engine.GraphRun
import BatchFlow.Proofs.Task.Stops
import Mathlib.Data.List.Permutation

/-!
# Runs that a sort stops

A run sorts within its tasks only.  So a sort that stops the run of a stage or of a
graph stops one of the tasks, and the values that it sorts are ambiguous.
-/

namespace BatchFlow

open Results Steps

namespace Results.FailsWith

variable {α β : Type} {allowed : RunError → Prop} {store : FileStore}

theorem bindStep {first : StoreStep α} {next : α → StoreStep β}
    (firstFails : FailsWith allowed (resultOf (first store)))
    (nextFails : ∀ value between, FailsWith allowed (resultOf (next value between))) :
    FailsWith allowed (resultOf ((first >>= next) store)) := by
  rw [bind_apply]
  cases stepped : first store with
  | ok value between => exact nextFails value between
  | error error between =>
      rw [stepped] at firstFails
      exact .error (firstFails error rfl)

theorem ofExcept {result : Except RunError α} (fails : FailsWith allowed result) :
    FailsWith allowed (resultOf (StoreStep.ofExcept result store)) := by
  cases result with
  | ok value => exact .ok value
  | error error => exact .error (fails error rfl)

end Results.FailsWith

theorem FileStore.readFiles_failsWith (store : FileStore) (paths : List String) :
    FailsWith RunError.IsJustified (store.readFiles paths) := by
  refine .map _ (.mapM fun path _ => ?_)
  rw [read]
  split
  · exact .ok _
  · exact .error trivial

theorem StageGraph.directoryOf_failsWith (graph : StageGraph) (source : LoadSource) :
    FailsWith RunError.IsJustified (graph.directoryOf source) := by
  cases source with
  | dataset path => exact .ok path
  | stage id =>
      rw [directoryOf]
      split
      · exact .error trivial
      · split
        · exact .ok _
        · exact .error trivial

theorem SubPlan.phases_failsWith (plan : SubPlan) :
    FailsWith RunError.IsJustified plan.phases := by
  rw [phases]
  split
  · exact .error trivial
  · exact .ok _

theorem liftPlan_failsWith {α : Type} (result : Except PlanError α) :
    FailsWith RunError.IsJustified (liftPlan result) := by
  cases result with
  | ok value => exact .ok value
  | error error => exact .error trivial

namespace Stage

variable (stage : Stage) (graph : StageGraph) (config : EngineConfig) (store : FileStore)

theorem addInput_failsWith (input : StageInput) (operator : Operator) :
    FailsWith RunError.IsJustified (stage.addInput graph config store input operator) := by
  rw [addInput]
  cases operator.operation with
  | load source =>
      refine .bind (graph.directoryOf_failsWith source) fun directory _ => ?_
      dsimp only
      split
      · exact .bind (store.readFiles_failsWith _) fun rows _ => .ok _
      · exact .ok _
  | _ => exact .ok _

theorem shuffle_failsWith (reducers : Nat) (mapOutputs : List TaskOutput) :
    FailsWith RunError.IsJustified (stage.shuffle reducers mapOutputs) :=
  .bind (.mapM fun _ _ => .bind (liftOperator_failsWith (Groups.ofKeyedRows_failsWith _))
    fun _ _ => .ok _) fun _ _ => .ok _

theorem runTasks_failsWith :
    FailsWith RunError.IsJustified (stage.runTasks graph config store) := by
  refine .bind stage.plan.phases_failsWith fun phases _ => .bind (.foldlM fun input operator _ =>
    stage.addInput_failsWith graph config store input operator) fun input _ => ?_
  refine .bind (.mapM fun split _ => .bind (store.readFiles_failsWith _) fun rows _ =>
    stage.plan.runMapTask_failsWith phases _) fun mapOutputs _ => ?_
  split
  · exact .ok _
  · exact .bind (stage.shuffle_failsWith _ _) fun dealt _ => .bind (.mapM fun groups _ =>
      stage.plan.runReduceTask_failsWith phases groups _) fun _ _ => .ok _

/-- The run of a stage fails with the errors of its tasks. -/
theorem run_failsWith_of_runTasks {allowed : RunError → Prop}
    (tasksFail : FailsWith allowed (stage.runTasks graph config store)) :
    FailsWith allowed (resultOf (stage.run graph config store)) := by
  rw [run_apply]
  cases ran : stage.runTasks graph config store with
  | ok tasks => exact .ok _
  | error error => exact .error (tasksFail error ran)

theorem run_failsWith :
    FailsWith RunError.IsJustified (resultOf (stage.run graph config store)) :=
  stage.run_failsWith_of_runTasks graph config store
    (stage.runTasks_failsWith graph config store)

/-- Sorting the values stops the run of the stage. -/
def StopsOver (values : List Scalar) : Prop :=
  ∃ after, stage.run graph config store = .error (.operator (.noTotalOrder values)) after

section Ambiguous

variable {stage graph config store}

theorem StopsOver.ambiguous {values : List Scalar}
    (stops : stage.StopsOver graph config store values) : ¬ Scalar.UnambiguousAmong values := by
  obtain ⟨after, stopped⟩ := stops
  exact stage.run_failsWith graph config store _ (congrArg resultOf stopped)

end Ambiguous

/-- A plan that sorts readings. -/
def sortedReadings : SubPlan :=
  ((SubPlan.empty.insert ⟨⟨0⟩, .load (.dataset "readings"), []⟩).insert
    ⟨⟨1⟩, .sort 0 false, [⟨0⟩]⟩).insert
    ⟨⟨2⟩, .store "sorted", [⟨1⟩]⟩

/-- The stage with this plan. -/
def sortingStage : Stage :=
  ⟨⟨0⟩, .ordinary, sortedReadings, {}⟩

/-- The graph with this stage alone. -/
def sortingGraph : StageGraph :=
  ⟨OrderedMap.insert ∅ ⟨0⟩ sortingStage, ∅, 1⟩

/-- The double 2^53 and two integers of which it is the value, four times in turn. -/
def ambiguousReadings : List Row :=
  (List.replicate 4 [[.float ⟨0x4340000000000000⟩], [.int 9007199254740993],
    [.int 9007199254740992]]).flatten

/-- Two files of readings. -/
def readingsStore : FileStore :=
  (FileStore.empty.write "readings/part-00000" ambiguousReadings).write "readings/part-00001"
    ambiguousReadings

theorem phases_sortedReadings : sortedReadings.phases = .ok ⟨[⟨0⟩, ⟨1⟩, ⟨2⟩], []⟩ := by
  cbv

/-- One task that sorts the readings of both files stops. -/
theorem stopsOver_sortingStage :
    ∃ values, sortingStage.StopsOver sortingGraph {} readingsStore values := by
  have stopped : ((sortingStage.runTasks sortingGraph {} readingsStore).mapError
      RunError.stopsProgram).map (fun _ => ()) = .error true := by
    rw [runTasks, show sortingStage.plan = sortedReadings from rfl, phases_sortedReadings]
    decide +kernel
  cases ran : sortingStage.runTasks sortingGraph {} readingsStore with
  | ok tasks => simp [ran, Except.mapError, Except.map] at stopped
  | error error =>
      simp only [ran, Except.mapError, Except.map, Except.error.injEq] at stopped
      obtain ⟨values, rfl⟩ := RunError.isStop_of_stopsProgram stopped
      exact ⟨values, readingsStore, by rw [run_apply, ran]⟩

end Stage

namespace StageGraph

variable (graph : StageGraph) (config : EngineConfig)

theorem runReady_failsWith (fuel : Nat) (queue : ReadyQueue) (jobs : List Job)
    (store : FileStore) :
    FailsWith RunError.IsJustified (resultOf (graph.runReady config fuel queue jobs store)) := by
  induction fuel generalizing queue jobs store with
  | zero => exact .ok _
  | succ fuel ih =>
      rw [runReady]
      cases queue.pop with
      | none => exact .ok _
      | some next =>
          exact .bindStep (.ofExcept (liftPlan_failsWith _)) fun stage between =>
            .bindStep (stage.run_failsWith graph config between) fun _ after => ih _ _ after

/-- Whatever the graph, a sort stops its run over ambiguous values only. -/
theorem run_failsWith (store : FileStore) :
    FailsWith RunError.IsJustified (resultOf (graph.run config store)) := by
  rw [run]
  refine .bindStep ?_ fun _ between => .bindStep
    (graph.runReady_failsWith config _ _ _ between) fun ran after => ?_
  · exact .bindStep (.ofExcept (liftPlan_failsWith _)) fun _ _ => .ok _
  · obtain ⟨queue, jobs⟩ := ran
    dsimp only
    split
    · exact .error trivial
    · refine .bindStep (.ok _) fun store after => .bindStep (.ofExcept ?_) fun _ _ => .ok _
      rw [outputs_eq_ok]
      exact .ok _

end StageGraph

end BatchFlow
