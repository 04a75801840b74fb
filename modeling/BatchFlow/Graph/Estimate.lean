import BatchFlow.Config
import BatchFlow.Graph.Walk

/-!
# Task and file counts before a run

A load that is not read in full by every task contributes one map task per
file, or one in all when small files are combined.  A grouping stage writes one
file per reduce task, any other stage one per map task; a concatenate stage
always runs one map task and writes one file.
-/

namespace BatchFlow

/-- The map tasks of one load of so many files. -/
def loadSplits (files : UInt32) (splitCombinationDisabled : Bool) : UInt32 :=
  if splitCombinationDisabled then files else min files 1

namespace Stage

/-- The parallelism that the grouping operators ask for, where they do. -/
def packageParallelism (stage : Stage) : List UInt32 :=
  stage.plan.operators.filterMap fun operator =>
    match operator.operation with
    | .package parallelism _ => parallelism
    | _ => none

/-- The reduce tasks of a stage, none without a grouping operator.  The greatest
parallelism of a grouping operator counts, then that of the stage, then the
default. -/
def reduceTasks (stage : Stage) (config : EngineConfig) : UInt32 :=
  if stage.isConcatenate || !stage.plan.hasReducePhase then 0
  else
    max 1 ((stage.packageParallelism.max?
      <|> stage.info.parallelism).getD config.defaultParallelism)

/-- The map tasks of a stage, given the file count behind each load. -/
def mapTasks (stage : Stage) (config : EngineConfig) (filesOf : LoadSource → FileCount) :
    FileCount :=
  if stage.isConcatenate then .known 1
  else
    let broadcast := stage.plan.broadcastLoads
    let splits := stage.plan.operators.mapM fun operator =>
      match operator.operation with
      | .load source =>
          if broadcast.contains operator.id then some 0
          else
            (filesOf source).known?.map fun files =>
              (loadSplits files config.splitCombinationDisabled).toNat
      | _ => some 0
    .ofOption (splits.map fun counts =>
      UInt32.ofNat (min (counts.foldl (· + ·) 0) (UInt32.size - 1)))

/-- The files a stage writes, given the file count behind each load. -/
def outputFiles (stage : Stage) (config : EngineConfig)
    (filesOf : LoadSource → FileCount) : FileCount :=
  match stage.kind with
  | .concatenate => .known 1
  | .ordinary =>
      if stage.plan.hasReducePhase then .known (stage.reduceTasks config)
      else stage.mapTasks config filesOf

end Stage

namespace StageGraph

/-- The file count behind a load: the catalog's for a dataset, the source's own
for a stage. -/
def filesOf (graph : StageGraph) (catalog : String → Option UInt32) :
    LoadSource → FileCount
  | .dataset path => .ofOption (catalog path)
  | .stage id => (graph.stage? id).elim .unknown fun stage => stage.info.outputFiles

/-- Fill in the output file count of one stage, if it is unknown and can be
estimated; says whether it was. -/
def annotateStage (catalog : String → Option UInt32) (config : EngineConfig)
    (graph : StageGraph) (id : StageId) : StageGraph × Bool :=
  match graph.stage? id with
  | none => (graph, false)
  | some stage =>
      if stage.info.outputFiles.isKnown then (graph, false)
      else
        match stage.outputFiles config (graph.filesOf catalog) with
        | .unknown => (graph, false)
        | .known files =>
            (graph.modifyStage id fun stage =>
              { stage with info := { stage.info with outputFiles := .known files } }, true)

/-- Fill in unknown output file counts in the order of the walk.  Yields the
graph and how many counts were filled in. -/
def annotateOutputFiles (graph : StageGraph) (catalog : String → Option UInt32)
    (config : EngineConfig) : Except PlanError (StageGraph × Nat) :=
  graph.order.map fun order =>
    order.foldl (fun (graph, annotated) id =>
      let (graph, filled) := graph.annotateStage catalog config id
      (graph, if filled then annotated + 1 else annotated)) (graph, 0)

end StageGraph

end BatchFlow
