import BatchFlow.Digest
import BatchFlow.Graph.Encoding
import BatchFlow.Optimizer.Accumulation
import BatchFlow.Optimizer.JoinRepair

/-!
# Optimization passes

A pass looks at every stage in the order of the walk, decides, and then edits
the graph.  The pipeline runs passes one after another; the first that fails
ends it.  What was decided is kept for reports.
-/

namespace BatchFlow

namespace StageGraph

/-- The fingerprint of a graph: stages, operators, flags and edges. -/
def fingerprint (graph : StageGraph) : Digest :=
  .ofText graph.text

/-- The stages in the order of the walk. -/
def stagesInOrder (graph : StageGraph) : Except PlanError (List Stage) := do
  (← graph.order).mapM graph.require

end StageGraph

/-- A decision about one stage or one replicated join side. -/
inductive Decision where
  | accumulative (stage : StageId) (outcome : Qualification)
  | joinRepair (stage : StageId) (join : OpId) (side : Nat) (state : RepairState)

namespace Decision

/-- The stage the decision is about. -/
def stage : Decision → StageId
  | accumulative stage _ => stage
  | joinRepair stage _ _ _ => stage

/-- Whether the decision is to change the graph. -/
def isChange : Decision → Bool
  | accumulative _ outcome => outcome.isQualifies
  | joinRepair _ _ _ state => state.isStageInserted

/-- The concatenate stage inserted, if any. -/
def inserted? : Decision → Option StageId
  | joinRepair _ _ _ (.stageInserted _ concatenate _) => some concatenate
  | _ => none

/-- The text of a decision. -/
def text : Decision → String
  | accumulative stage outcome => "accumulative " ++ stage.text ++ ": " ++ outcome.text
  | joinRepair stage join side state =>
      "frjoin-repair " ++ stage.text ++ " " ++ join.text ++ " side " ++ toString side
        ++ ": " ++ state.text

end Decision

/-- What one pass did. -/
structure PassOutcome where
  pass : String
  stagesVisited : Nat
  decisions : List Decision

namespace PassOutcome

/-- The number of decisions that change the graph. -/
def changed (outcome : PassOutcome) : Nat :=
  outcome.decisions.countP Decision.isChange

end PassOutcome

/-- The passes there are. -/
inductive Pass where
  | accumulation
  | joinRepair
deriving DecidableEq

namespace Pass

/-- The name of a pass. -/
def name : Pass → String
  | accumulation => "accumulative"
  | joinRepair => "frjoin-repair"

/-- A result about a graph as an edit that leaves the graph alone. -/
def ofExcept {α : Type} : Except PlanError α → GraphEdit α
  | .ok value => pure value
  | .error error => throw error

/-- Flag the grouping operators of every stage that qualifies.  Nothing is
flagged if any ordinary stage is malformed. -/
def runAccumulation : GraphEdit PassOutcome := do
  let graph ← get
  let stages ← ofExcept graph.stagesInOrder
  let results := stages.map (Accumulation.assess graph)
  match Accumulation.combineFaults accumulation.name (Accumulation.faults results) with
  | some error => throw error
  | none =>
      let verdicts := Accumulation.values results
      verdicts.forM Accumulation.apply
      return {
        pass := accumulation.name
        stagesVisited := stages.length
        decisions := verdicts.map fun (stage, outcome) => .accumulative stage outcome }

/-- Carry out decisions about replicated sides, one after another. -/
def repairSides (inserted : JoinRepair.Inserted) :
    List JoinRepair.SideVerdict → GraphEdit (List Decision)
  | [] => return []
  | verdict :: rest => do
      let (state, inserted) ← JoinRepair.apply inserted verdict
      let decisions ← repairSides inserted rest
      return .joinRepair verdict.stage verdict.join verdict.side state :: decisions

/-- Put concatenate stages before replicated join sides with too many files. -/
def runJoinRepair (config : EngineConfig) : GraphEdit PassOutcome := do
  let graph ← get
  let stages ← ofExcept graph.stagesInOrder
  let verdicts ← ofExcept (stages.mapM (JoinRepair.stageVerdicts graph config))
  let decisions ← repairSides [] verdicts.flatten
  return { pass := joinRepair.name, stagesVisited := stages.length, decisions := decisions }

/-- Run a pass. -/
def run (config : EngineConfig) : Pass → GraphEdit PassOutcome
  | accumulation => runAccumulation
  | joinRepair => runJoinRepair config

/-- The pass of a name. -/
def ofName? (name : String) : Option Pass :=
  [accumulation, joinRepair].find? fun pass => pass.name == name

/-- The passes in the order they are run.  Join repair comes last so that it
sees the final flags. -/
def standard : List Pass :=
  [accumulation, joinRepair]

end Pass

/-- Everything a pipeline decided, and the fingerprints of the graph before and
after it. -/
structure OptimizationReport where
  passes : List PassOutcome
  before : Digest
  after : Digest

namespace OptimizationReport

/-- Whether the graph has changed. -/
def changed (report : OptimizationReport) : Bool :=
  report.before != report.after

/-- The decisions of all passes. -/
def decisions (report : OptimizationReport) : List Decision :=
  report.passes.flatMap PassOutcome.decisions

/-- The concatenate stages inserted, each once, in ascending order. -/
def insertedStages (report : OptimizationReport) : List StageId :=
  (OrderedSet.ofList (report.decisions.filterMap Decision.inserted?)).elements

/-- The stages whose grouping operators were flagged. -/
def accumulativeStages (report : OptimizationReport) : List StageId :=
  report.decisions.filterMap fun decision =>
    match decision with
    | .accumulative stage (.qualifies _) => some stage
    | _ => none

end OptimizationReport

/-- Run passes one after another.  A graph with a cycle is not touched. -/
def optimizeWith (passes : List Pass) (config : EngineConfig) :
    GraphEdit OptimizationReport := do
  let graph ← get
  discard (Pass.ofExcept graph.order)
  let outcomes ← passes.mapM (Pass.run config)
  return { passes := outcomes, before := graph.fingerprint, after := (← get).fingerprint }

/-- Run the standard passes. -/
def optimize (config : EngineConfig) : GraphEdit OptimizationReport :=
  optimizeWith Pass.standard config

end BatchFlow
