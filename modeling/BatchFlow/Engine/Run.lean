import BatchFlow.Engine.FileStore
import BatchFlow.Engine.JobGraph
import BatchFlow.Engine.ReadyQueue
import BatchFlow.Engine.Task
import BatchFlow.Graph.Estimate
import BatchFlow.Optimizer.Pipeline

/-!
# Running a stage graph

Every stage becomes one job, run once all its predecessors have completed.  A
job runs map tasks over its input splits, shuffles what reaches a grouping
operator to its reduce tasks, and writes one part file per task into each of
its store targets.  A run that fails keeps the files of the stages completed.
-/

namespace BatchFlow

/-- A step of a run; a failing step keeps the files written. -/
abbrev StoreStep :=
  EStateM RunError FileStore

namespace StoreStep

/-- A result as a step that writes nothing. -/
def ofExcept {α : Type} : Except RunError α → StoreStep α
  | .ok value => pure value
  | .error error => throw error

end StoreStep

/-- A faulty graph as a failing run. -/
def liftPlan {α : Type} : Except PlanError α → Except RunError α
  | .ok value => .ok value
  | .error error => .error (.plan error)

/-- One input split: a load and the files its map task reads. -/
structure Split where
  load : OpId
  files : List String

/-- The input of a stage: rows of the loads read in full by every task, the
number of their files, and the splits of the other loads. -/
structure StageInput where
  broadcast : Bindings
  broadcastFiles : Nat
  splits : List Split

/-- The tasks of a stage after they have run. -/
structure StageTasks where
  phases : Phases
  broadcastFiles : Nat
  mapOutputs : List TaskOutput
  reduceOutputs : List TaskOutput

namespace StageGraph

/-- The directory a load reads. -/
def directoryOf (graph : StageGraph) : LoadSource → Except RunError String
  | .dataset path => .ok path
  | .stage id =>
      match graph.stage? id with
      | none => .error (.plan (.atStage (.unknown id)))
      | some stage =>
          match stage.plan.storeTarget? with
          | some target => .ok target
          | none => .error (.invalid (.storesNothing id))

end StageGraph

namespace Stage

/-- The splits of a load over its files.  A concatenate stage reads all files in
one split, even if there are none. -/
def splitsOf (stage : Stage) (config : EngineConfig) (load : OpId) (files : List String) :
    List Split :=
  match stage.kind with
  | .concatenate => [⟨load, files⟩]
  | .ordinary =>
      if config.splitCombinationDisabled then files.map fun file => ⟨load, [file]⟩
      else if files.isEmpty then []
      else [⟨load, files⟩]

/-- Add the input of one operator. -/
def addInput (stage : Stage) (graph : StageGraph) (config : EngineConfig)
    (store : FileStore) (input : StageInput) (operator : Operator) :
    Except RunError StageInput := do
  match operator.operation with
  | .load source =>
      let files := store.list (← graph.directoryOf source)
      if stage.plan.broadcastLoads.contains operator.id then
        let rows ← store.readFiles files
        return { input with
          broadcast := input.broadcast.insert operator.id rows
          broadcastFiles := input.broadcastFiles + files.length }
      else
        return { input with
          splits := input.splits ++ stage.splitsOf config operator.id files }
  | _ => return input

/-- The input of a stage. -/
def input (stage : Stage) (graph : StageGraph) (config : EngineConfig)
    (store : FileStore) : Except RunError StageInput :=
  stage.plan.operators.foldlM (stage.addInput graph config store) ⟨∅, 0, []⟩

/-- Run one map task. -/
def runSplit (stage : Stage) (phases : Phases) (store : FileStore) (broadcast : Bindings)
    (split : Split) : Except RunError TaskOutput := do
  let rows ← store.readFiles split.files
  stage.plan.runMapTask phases (broadcast.insert split.load rows)

/-- The groups of each grouping operator for each reducer. -/
def shuffle (stage : Stage) (reducers : Nat) (mapOutputs : List TaskOutput) :
    Except RunError (List (OrderedMap OpId Groups)) := do
  let dealt ← stage.plan.packages.mapM fun package => do
    let keyed := mapOutputs.flatMap fun output => (output.shuffle.get? package).getD []
    let groups ← liftOperator (Groups.ofKeyedRows keyed)
    return (package, groups.deal reducers)
  return (List.range (max reducers 1)).map fun reducer =>
    .ofList (dealt.map fun (package, parts) => (package, parts.getD reducer []))

/-- Run all tasks of a stage. -/
def runTasks (stage : Stage) (graph : StageGraph) (config : EngineConfig)
    (store : FileStore) : Except RunError StageTasks := do
  let phases ← stage.plan.phases
  let input ← stage.input graph config store
  let mapOutputs ← input.splits.mapM (stage.runSplit phases store input.broadcast)
  let reduceOutputs ←
    if phases.reduce.isEmpty then pure []
    else
      (← stage.shuffle (stage.reduceTasks config).toNat mapOutputs).mapM fun groups =>
        stage.plan.runReduceTask phases groups input.broadcast
  return ⟨phases, input.broadcastFiles, mapOutputs, reduceOutputs⟩

end Stage

namespace StageTasks

/-- The numbers of a job before anything is written. -/
def initialStats (tasks : StageTasks) : JobStats where
  mapTasks := UInt32.ofNat tasks.mapOutputs.length
  reduceTasks := UInt32.ofNat tasks.reduceOutputs.length
  broadcastFiles := UInt32.ofNat tasks.broadcastFiles

/-- The parts that a store operator writes, one per task of its phase. -/
def partsOf (tasks : StageTasks) (id : OpId) (target : String) : List (List Row) :=
  (if tasks.phases.reduce.contains id then tasks.reduceOutputs else tasks.mapOutputs).map
    fun output => (output.stores.get? target).getD []

/-- Clear the target of one store operator and write its parts. -/
def writeTarget (tasks : StageTasks) (state : FileStore × JobStats) (operator : Operator) :
    FileStore × JobStats :=
  match operator.operation with
  | .store target =>
      let parts := tasks.partsOf operator.id target
      let (store, stats) := state
      ((store.clear target).putParts target parts,
        { stats with
          outputFiles := stats.outputFiles + UInt32.ofNat parts.length
          outputRows := stats.outputRows + UInt64.ofNat parts.flatten.length })
  | _ => state

end StageTasks

namespace Stage

/-- Run a stage: all its tasks first, then its stores.  A failing stage writes
nothing. -/
def run (stage : Stage) (graph : StageGraph) (config : EngineConfig) : StoreStep JobStats := do
  let store ← get
  let tasks ← StoreStep.ofExcept (stage.runTasks graph config store)
  let (store, stats) :=
    stage.plan.operators.foldl tasks.writeTarget (store, tasks.initialStats)
  set store
  return stats

end Stage

/-- What a run produced: its jobs, all rows under the store target of every leaf
stage, and the fingerprint of the graph. -/
structure RunOutcome where
  jobGraph : JobGraph
  outputs : OrderedMap String (List Row)
  planHash : Digest
deriving Inhabited

namespace RunOutcome

/-- The digest of all outputs in the order of their targets. -/
def outputsDigest (outcome : RunOutcome) : Digest :=
  .ofJson (.object (outcome.outputs.entries.map fun (target, rows) =>
    (target, .array (rows.map Row.toJson))))

end RunOutcome

namespace StageGraph

/-- Run released stages until none is left; yields the queue and the jobs, the
latest first.  The fuel is the number of stages that may still be run. -/
def runReady (graph : StageGraph) (config : EngineConfig) :
    (fuel : Nat) → ReadyQueue → List Job → StoreStep (ReadyQueue × List Job)
  | 0, queue, jobs => return (queue, jobs)
  | fuel + 1, queue, jobs =>
      match queue.pop with
      | none => return (queue, jobs)
      | some (id, queue) => do
          let stage ← StoreStep.ofExcept (liftPlan (graph.require id))
          let stats ← stage.run graph config
          let job : Job := ⟨⟨UInt64.ofNat jobs.length⟩, id, stage.kind, stats⟩
          runReady graph config fuel (queue.complete id) (job :: jobs)

/-- The outputs of the leaf stages that store something. -/
def outputs (graph : StageGraph) (store : FileStore) :
    Except RunError (OrderedMap String (List Row)) := do
  let targets := graph.leaves.filterMap fun leaf =>
    (graph.stage? leaf).bind fun stage => stage.plan.storeTarget?
  let read ← targets.mapM fun target => do
    return (target, ← store.readDirectory target)
  return .ofList read

/-- Run a graph as it is. -/
def run (graph : StageGraph) (config : EngineConfig) : StoreStep RunOutcome := do
  discard (StoreStep.ofExcept (liftPlan graph.validate))
  let (queue, jobs) ← graph.runReady config graph.size (.ofGraph graph) []
  if !queue.isFinished then throw (.invalid (.neverReady queue.remaining))
  let outputs ← StoreStep.ofExcept (graph.outputs (← get))
  return {
    jobGraph := .ofJobs jobs.reverse graph.edges.elements
    outputs := outputs
    planHash := graph.fingerprint }

/-- Fill in file counts and run the standard passes; the graph and what was
decided. -/
def optimized (graph : StageGraph) (catalog : String → Option UInt32)
    (config : EngineConfig) : Except PlanError (StageGraph × OptimizationReport) := do
  let (annotated, _) ← graph.annotateOutputFiles catalog config
  match (optimize config).run annotated with
  | .ok report optimized => return (optimized, report)
  | .error error _ => throw error

/-- Optimize a graph with the file counts of the store, and run the result. -/
def optimizeAndRun (graph : StageGraph) (config : EngineConfig) :
    StoreStep (StageGraph × OptimizationReport × RunOutcome) := do
  let store ← get
  let (graph, report) ← StoreStep.ofExcept (liftPlan (graph.optimized store.fileCount? config))
  return (graph, report, ← graph.run config)

end StageGraph

end BatchFlow
