import BatchFlow.Proofs.Engine.DataFlow

/-!
# Runs on stores with leftovers

A run reads the datasets that its graph loads and, besides these, only targets
that it has written itself: a stage is released after all stages that it loads
from, and each of these has cleared its targets before it wrote them.  So a run
does not depend on anything else that its store holds, such as files that earlier
runs left behind.
-/

namespace BatchFlow

open FileStore ReadyQueue Steps

/-- Two steps end alike: with the same error, or with the same value and stores
that are related. -/
inductive EndAlike {α : Type} (related : FileStore → FileStore → Prop) :
    EStateM.Result RunError FileStore α → EStateM.Result RunError FileStore α → Prop where
  | ok (value : α) {first second : FileStore} (stores : related first second) :
      EndAlike related (.ok value first) (.ok value second)
  | error (error : RunError) (first second : FileStore) :
      EndAlike related (.error error first) (.error error second)

namespace EndAlike

variable {α β : Type} {related between : FileStore → FileStore → Prop} {first second : FileStore}

theorem bind {step : StoreStep α} {next : α → StoreStep β}
    (alike : EndAlike between (step first) (step second))
    (rest : ∀ value first second, between first second →
      EndAlike related (next value first) (next value second)) :
    EndAlike related ((step >>= next) first) ((step >>= next) second) := by
  rw [bind_apply, bind_apply]
  generalize step first = result, step second = result' at alike
  cases alike with
  | ok value stores => exact rest value _ _ stores
  | error error first second => exact .error error first second

end EndAlike

namespace StageGraph

variable {graph : StageGraph} {config : EngineConfig} {first second : FileStore}
  {done : List StageId}

/-- The stores agree on all that a run may read once some stages are done: the
loaded datasets and the targets of these stages. -/
def AgreeOnReads (graph : StageGraph) (done : List StageId) (first second : FileStore) : Prop :=
  ∀ path, (∃ dataset ∈ graph.loadedDatasets, Within dataset path) ∨ graph.Written done path →
    first.files.get? path = second.files.get? path

namespace AgreeOnReads

variable (agree : graph.AgreeOnReads done first second) {id : StageId} {stage : Stage}
  (found : graph.stage? id = some stage)

include agree found

theorem runTasks (backed : graph.Backed)
    (predecessorsDone : ∀ predecessor ∈ graph.predecessors id, predecessor ∈ done) :
    stage.runTasks graph config first = stage.runTasks graph config second := by
  refine Stage.runTasks_congr fun operator inPlan source directory isLoad resolved path within => ?_
  refine agree path ?_
  -- A stage loaded from has written the directory in this run, before this stage was released.
  cases source with
  | dataset dataset =>
      obtain rfl := Except.ok.inj resolved
      exact .inl ⟨_, mem_loadedDatasets found ⟨operator, inPlan, isLoad⟩, within⟩
  | stage source =>
      obtain ⟨feeder, foundFeeder, isDirectory⟩ := directoryOf_stage_eq_ok.mp resolved
      have isDone := predecessorsDone source
        (backed id stage found source ⟨operator, inPlan, isLoad⟩)
      exact .inr ⟨source, isDone, feeder, foundFeeder, directory,
        SubPlan.mem_targets_of_storeTarget? isDirectory, within⟩

theorem writes (tasks : StageTasks) :
    graph.AgreeOnReads (done ++ [id]) (first.replaceAll (tasks.writes stage.plan))
      (second.replaceAll (tasks.writes stage.plan)) := by
  intro path isRead
  -- Within a target only what is written now counts, and outside nothing changes.
  by_cases inside : ∃ target ∈ stage.plan.targets, Within target path
  · exact get?_replaceAll_congr (inside_writes inside)
  · have outside : ∀ target ∈ stage.plan.targets, ¬ Within target path := by simpa using inside
    rw [get?_writes_of_outside outside, get?_writes_of_outside outside]
    refine agree path (isRead.imp_right fun written => ?_)
    exact ((written_concat found).mp written).resolve_right inside

theorem run (backed : graph.Backed)
    (predecessorsDone : ∀ predecessor ∈ graph.predecessors id, predecessor ∈ done) :
    EndAlike (graph.AgreeOnReads (done ++ [id])) (stage.run graph config first)
      (stage.run graph config second) := by
  rw [Stage.run_apply, Stage.run_apply, ← agree.runTasks found backed predecessorsDone]
  cases stage.runTasks graph config first with
  | error error => exact .error error first second
  | ok tasks =>
      dsimp only
      rw [tasks.snd_foldl_writeTarget _ first second]
      exact .ok _ (agree.writes found tasks)

end AgreeOnReads

theorem runReady_endAlike (config : EngineConfig) (backed : graph.Backed) {queue : ReadyQueue}
    (releasing : Releasing graph done queue) (agree : graph.AgreeOnReads done first second)
    (fuel : Nat) (jobs : List Job) :
    EndAlike (graph.AgreeOnReads (done ++ (queue.drain fuel).1))
      (graph.runReady config fuel queue jobs first)
      (graph.runReady config fuel queue jobs second) := by
  -- The stages done grow by one with each stage taken, and so does what the stores agree on.
  induction fuel generalizing done queue jobs first second with
  | zero =>
      rw [drain, List.append_nil]
      exact .ok _ agree
  | succ fuel ih =>
      cases isReady : queue.ready with
      | nil =>
          rw [drain_of_stuck _ isReady, List.append_nil, runReady, pop, isReady]
          exact .ok _ agree
      | cons next rest =>
          obtain ⟨isStage, -, predecessorsDone⟩ := releasing.next_released isReady
          obtain ⟨stage, found⟩ := mem_stageIds.mp isStage
          have required : liftPlan (graph.require next) = .ok stage :=
            liftPlan_eq_ok.mpr (require_eq_ok.mpr found)
          have shifted (after : List StageId) :
              done ++ next :: after = (done ++ [next]) ++ after := by
            simp
          rw [drain_of_ready _ isReady, runReady, pop, isReady, shifted]
          dsimp only
          rw [required]
          exact (agree.run found backed predecessorsDone).bind fun stats first second agree =>
            ih (releasing.step isReady) agree _

/-- A run does not depend on what its store holds outside the datasets that the
graph loads: on stores that agree within these it fails with the same error, or
succeeds with the same outputs and the same numbers for every job.  This holds even
if targets overlap datasets or each other, since both runs write the same there;
and a graph that fails its check fails it on any store. -/
theorem run_ignores_leftovers
    (agree : ∀ dataset ∈ graph.loadedDatasets, ∀ path, Within dataset path →
      first.files.get? path = second.files.get? path) (config : EngineConfig) :
    resultOf (graph.run config first) = resultOf (graph.run config second) := by
  cases validated : graph.validate with
  | error error => rw [run_of_not_valid validated, run_of_not_valid validated]; rfl
  | ok count =>
      have valid : ∃ count, graph.validate = .ok count := ⟨count, validated⟩
      obtain ⟨exist, ⟨rank, ranked⟩, checked⟩ := validate_eq_ok_iff.mp valid
      obtain ⟨all, -, -⟩ := releaseOrder_covers ranked exist
      have agreeAtStart : graph.AgreeOnReads [] first second := by
        rintro path (⟨dataset, isLoaded, within⟩ | ⟨_, none, -⟩)
        · exact agree dataset isLoaded path within
        · simp at none
      have alike := runReady_endAlike config (backed_of_valid checked) (Releasing.initial exist)
        agreeAtStart graph.size []
      rw [run_of_valid valid, run_of_valid valid]
      generalize graph.runReady config graph.size (ofGraph graph) [] first = ran,
        graph.runReady config graph.size (ofGraph graph) [] second = ran' at alike
      cases alike with
      | error error first second => rfl
      | @ok value firstAfter secondAfter stores =>
          have sameRows : graph.leafRows firstAfter = graph.leafRows secondAfter := by
            refine leafRows_congr rfl fun target isLeafTarget => rowsOf_congr fun path within => ?_
            obtain ⟨id, -, stage, found, isTarget⟩ := mem_leafTargets.mp isLeafTarget
            have isDone : id ∈ releaseOrder graph :=
              all.mem_iff.mpr (mem_stageIds.mpr ⟨stage, found⟩)
            exact stores path (.inr ⟨id, isDone, stage, found, target,
              SubPlan.mem_targets_of_storeTarget? isTarget, within⟩)
          dsimp only [resultOf]
          rw [sameRows]

/-- The sales and regions with two parts of an earlier copy. -/
def leftoverStore : FileStore :=
  (Stage.salesStore.write "out/part-00000" [[.int 9, .int 9]]).write
    "copy/part-00007" [[.int 9, .int 9]]

/-- The parts of the earlier copy do not show up again. -/
theorem run_ignores_leftovers_copyChain :
    (∀ dataset ∈ (copyChain "extra").loadedDatasets, ∀ path, Within dataset path →
      Stage.salesStore.files.get? path = leftoverStore.files.get? path) ∧
      leftoverStore.list "copy" = ["copy/part-00007"] ∧
      resultOf ((copyChain "extra").run {} Stage.salesStore) =
        resultOf ((copyChain "extra").run {} leftoverStore) := by
  have agree : ∀ dataset ∈ (copyChain "extra").loadedDatasets, ∀ path, Within dataset path →
      Stage.salesStore.files.get? path = leftoverStore.files.get? path := by
    intro dataset isLoaded path within
    have outside : ∀ dataset ∈ ["regions", "sales"],
        ¬ Within dataset "out/part-00000" ∧ ¬ Within dataset "copy/part-00007" := by decide
    obtain ⟨notOut, notCopy⟩ := outside dataset isLoaded
    have differsFromCopy : path ≠ "copy/part-00007" := fun same => notCopy (same ▸ within)
    have differsFromOut : path ≠ "out/part-00000" := fun same => notOut (same ▸ within)
    rw [leftoverStore, get?_write, if_neg differsFromCopy, get?_write, if_neg differsFromOut]
  exact ⟨agree, rfl, run_ignores_leftovers agree {}⟩

end StageGraph

end BatchFlow
