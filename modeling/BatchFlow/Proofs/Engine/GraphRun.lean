import BatchFlow.Proofs.Engine.ReadyQueue
import BatchFlow.Proofs.Engine.StageStores

/-!
# Runs of a graph

A run of a valid graph runs its stages one after another, in the order in which
they are released, and reads the targets of the leaves from the store it leaves.
-/

namespace BatchFlow

open ReadyQueue

namespace StageGraph

variable {graph : StageGraph} {config : EngineConfig} {store after : FileStore}

/-- Running the tasks of some stages one after another, and writing what each
stores, leads from one store to another. -/
def RunsThrough (graph : StageGraph) (config : EngineConfig) :
    List StageId → FileStore → FileStore → Prop
  | [], store, after => store = after
  | id :: rest, store, after =>
      ∃ stage tasks, graph.stage? id = some stage ∧
        stage.runTasks graph config store = .ok tasks ∧
          RunsThrough graph config rest (store.replaceAll (tasks.writes stage.plan)) after

theorem liftPlan_eq_ok {α : Type} {result : Except PlanError α} {value : α} :
    liftPlan result = .ok value ↔ result = .ok value := by
  cases result <;> simp [liftPlan]

theorem runReady_of_stuck {queue : ReadyQueue} (isReady : queue.ready = []) (fuel : Nat)
    (jobs : List Job) :
    graph.runReady config fuel queue jobs store = .ok (queue, jobs) store := by
  cases fuel with
  | zero => rfl
  | succ fuel =>
      rw [runReady, pop, isReady]
      rfl

/-- The next stage runs, and then the stages released when it is complete. -/
theorem runReady_of_ready {queue : ReadyQueue} {next : StageId} {rest : List StageId}
    {stage : Stage} (isReady : queue.ready = next :: rest) (found : graph.stage? next = some stage)
    (fuel : Nat) (jobs : List Job) :
    graph.runReady config (fuel + 1) queue jobs store =
      (stage.run graph config >>= fun stats =>
        graph.runReady config fuel ({ queue with ready := rest }.complete next)
          (⟨⟨UInt64.ofNat jobs.length⟩, next, stage.kind, stats⟩ :: jobs)) store := by
  have required : StoreStep.ofExcept (liftPlan (graph.require next)) store = .ok stage store :=
    Steps.ofExcept_eq_ok.mpr ⟨liftPlan_eq_ok.mpr (require_eq_ok.mpr found), rfl⟩
  rw [runReady, pop, isReady]
  dsimp only
  rw [Steps.bind_apply, required]

/-- The queue of a run does not depend on what the stages do. -/
theorem runReady_eq_ok {fuel : Nat} {queue queue' : ReadyQueue} {jobs : List Job} :
    (∃ jobs', graph.runReady config fuel queue jobs store = .ok (queue', jobs') after) ↔
      queue' = (queue.drain fuel).2 ∧
        graph.RunsThrough config (queue.drain fuel).1 store after := by
  induction fuel generalizing queue jobs store with
  | zero =>
      rw [runReady, drain]
      simp [RunsThrough, @eq_comm _ queue']
  | succ fuel ih =>
      cases isReady : queue.ready with
      | nil =>
          rw [drain_of_stuck _ isReady, runReady, pop, isReady]
          simp [RunsThrough, @eq_comm _ queue']
      | cons next rest =>
          rw [drain_of_ready _ isReady, runReady, pop, isReady]
          simp only [Steps.bind_eq_ok, Steps.ofExcept_eq_ok, liftPlan_eq_ok, require_eq_ok,
            Stage.run_eq_ok, RunsThrough]
          constructor
          · rintro ⟨jobs', stage, _, ⟨found, rfl⟩, stats, _, ⟨tasks, ran, -, rfl⟩, rest⟩
            obtain ⟨sameQueue, through⟩ := ih.mp ⟨jobs', rest⟩
            exact ⟨sameQueue, stage, tasks, found, ran, through⟩
          · rintro ⟨rfl, stage, tasks, found, ran, through⟩
            obtain ⟨jobs', rest⟩ := ih.mpr ⟨rfl, through⟩
            exact ⟨jobs', stage, store, ⟨found, rfl⟩, _, _, ⟨tasks, ran, rfl, rfl⟩, rest⟩

/-- The targets of the leaves that store something. -/
def leafTargets (graph : StageGraph) : List String :=
  graph.leaves.filterMap fun leaf => (graph.stage? leaf).bind fun stage => stage.plan.storeTarget?

/-- The rows under the targets of the leaves. -/
def leafRows (graph : StageGraph) (store : FileStore) : OrderedMap String (List Row) :=
  .ofList (graph.leafTargets.map fun target => (target, store.rowsOf target))

/-- Reading the outputs of a run never fails. -/
theorem outputs_eq_ok (graph : StageGraph) (store : FileStore) :
    graph.outputs store = .ok (graph.leafRows store) := by
  have read (targets : List String) : (targets.mapM fun target => do
      return (target, ← store.readDirectory target)) =
        Except.ok (targets.map fun target => (target, store.rowsOf target)) := by
    induction targets with
    | nil => rfl
    | cons target targets ih =>
        rw [List.mapM_cons, ih, FileStore.readDirectory_eq_ok]
        rfl
  show (graph.leafTargets.mapM _ >>= _) = _
  rw [read]
  rfl

section Valid

variable (valid : ∃ count, graph.validate = .ok count)

include valid

/-- When the stages of a valid graph have run, the queue is finished: it does not
depend on what they do. -/
theorem isFinished_of_runReady {queue : ReadyQueue} {jobs : List Job}
    (ran : graph.runReady config graph.size (ofGraph graph) [] store = .ok (queue, jobs) after) :
    queue.isFinished = true := by
  obtain ⟨exist, ⟨rank, ranked⟩, -⟩ := validate_eq_ok_iff.mp valid
  obtain ⟨-, -, finished⟩ := releaseOrder_covers ranked exist
  obtain ⟨rfl, -⟩ := runReady_eq_ok.mp ⟨jobs, ran⟩
  exact finished

/-- A run of a valid graph fails only where one of its stages does. -/
theorem run_of_valid :
    graph.run config store =
      match graph.runReady config graph.size (ofGraph graph) [] store with
      | .ok (_, jobs) after =>
          .ok ⟨.ofJobs jobs.reverse graph.edges.elements, graph.leafRows after,
            graph.fingerprint⟩ after
      | .error error after => .error error after := by
  have accepted : discard (StoreStep.ofExcept (liftPlan graph.validate)) store = .ok ⟨⟩ store := by
    obtain ⟨count, validated⟩ := valid
    exact Steps.discard_eq_ok.mpr
      ⟨count, Steps.ofExcept_eq_ok.mpr ⟨liftPlan_eq_ok.mpr validated, rfl⟩⟩
  rw [run, Steps.bind_apply, accepted]
  dsimp only
  rw [Steps.bind_apply]
  cases ran : graph.runReady config graph.size (ofGraph graph) [] store with
  | error error after => rfl
  | ok value after =>
      obtain ⟨queue, jobs⟩ := value
      dsimp only
      rw [isFinished_of_runReady valid ran, if_neg (by simp), Steps.get_bind_apply, outputs_eq_ok]
      rfl

theorem run_eq_error {error : RunError} :
    graph.run config store = .error error after ↔
      graph.runReady config graph.size (ofGraph graph) [] store = .error error after := by
  rw [run_of_valid valid]
  cases graph.runReady config graph.size (ofGraph graph) [] store <;> simp

end Valid

theorem run_of_not_valid {error : PlanError} (fails : graph.validate = .error error) :
    graph.run config store = .error (.plan error) store := by
  rw [run, fails]
  rfl

theorem run_unfold {outcome : RunOutcome} :
    graph.run config store = .ok outcome after ↔
      (∃ count, graph.validate = .ok count) ∧
        ∃ queue jobs, graph.runReady config graph.size (ofGraph graph) [] store =
            .ok (queue, jobs) after ∧
          queue.isFinished = true ∧
            outcome = ⟨.ofJobs jobs.reverse graph.edges.elements, graph.leafRows after,
              graph.fingerprint⟩ := by
  cases validated : graph.validate with
  | error error => simp [run_of_not_valid validated]
  | ok count =>
      have valid : ∃ count, graph.validate = .ok count := ⟨count, validated⟩
      rw [run_of_valid valid]
      constructor
      · intro ran
        split at ran
        case h_1 queue jobs between ready =>
          obtain ⟨rfl, rfl⟩ := EStateM.Result.ok.inj ran
          exact ⟨⟨count, rfl⟩, queue, jobs, ready, isFinished_of_runReady valid ready, rfl⟩
        case h_2 => exact nomatch ran
      · rintro ⟨-, queue, jobs, ready, -, rfl⟩
        rw [ready]

/-- A valid graph whose stages run through in the order of their release runs. -/
theorem exists_outcome_of_runsThrough (valid : ∃ count, graph.validate = .ok count)
    (through : graph.RunsThrough config (releaseOrder graph) store after) :
    ∃ outcome, graph.run config store = .ok outcome after ∧
      outcome.outputs = graph.leafRows after := by
  obtain ⟨exist, ⟨rank, ranked⟩, -⟩ := validate_eq_ok_iff.mp valid
  obtain ⟨-, -, finished⟩ := releaseOrder_covers ranked exist
  obtain ⟨jobs, ready⟩ : ∃ jobs, graph.runReady config graph.size (ofGraph graph) [] store =
      .ok (((ofGraph graph).drain graph.size).2, jobs) after :=
    runReady_eq_ok.mpr ⟨rfl, through⟩
  exact ⟨_, run_unfold.mpr ⟨valid, _, jobs, ready, finished, rfl⟩, rfl⟩

/-- The outputs of a run, if it succeeds. -/
def runOutputs? (graph : StageGraph) (config : EngineConfig) (start : FileStore) :
    Option (OrderedMap String (List Row)) :=
  match graph.run config start with
  | .ok outcome _ => some outcome.outputs
  | .error _ _ => none

theorem runOutputs?_eq_some {outputs : OrderedMap String (List Row)} :
    graph.runOutputs? config store = some outputs ↔
      ∃ outcome after, graph.run config store = .ok outcome after ∧ outcome.outputs = outputs := by
  rw [runOutputs?]
  cases graph.run config store <;> simp

/-- A graph runs exactly when it is valid and its stages run through in the order
in which they are released. -/
theorem runOutputs?_eq_some_iff {outputs : OrderedMap String (List Row)} :
    graph.runOutputs? config store = some outputs ↔
      (∃ count, graph.validate = .ok count) ∧
        ∃ after, graph.RunsThrough config (releaseOrder graph) store after ∧
          outputs = graph.leafRows after := by
  rw [runOutputs?_eq_some]
  constructor
  · rintro ⟨outcome, after, ran, rfl⟩
    obtain ⟨valid, queue, jobs, ready, -, rfl⟩ := run_unfold.mp ran
    exact ⟨valid, after, (runReady_eq_ok.mp ⟨jobs, ready⟩).2, rfl⟩
  · rintro ⟨valid, after, through, rfl⟩
    obtain ⟨outcome, ran, outputs⟩ := exists_outcome_of_runsThrough valid through
    exact ⟨outcome, after, ran, outputs⟩

end StageGraph

end BatchFlow
