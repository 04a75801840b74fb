import BatchFlow.Config
import BatchFlow.Graph.Walk

/-!
# Concatenating the files of replicated join sides

Every task of a fragment-replicate join reads each file of every replicated
side.  When the engine does not combine small files, a side that is the output
of a stage with too many files is repaired: a concatenate stage is put on the
edge from that stage, and the load reads the single file it writes.  Sides of
one stage that read the same source share one concatenate stage.
-/

namespace BatchFlow

/-- Why a replicated side is left as it is. -/
inductive SkipReason where
  | splitCombinationEnabled
  | unknownFileCount
  | withinThreshold (files threshold : UInt32)
  | alreadyConcatenated
  | notStageBacked
deriving DecidableEq

/-- The text of a reason. -/
def SkipReason.text : SkipReason → String
  | splitCombinationEnabled => "split combination enabled"
  | unknownFileCount => "file count unknown"
  | withinThreshold files threshold =>
      toString files.toNat ++ " file(s) within threshold " ++ toString threshold.toNat
  | alreadyConcatenated => "already concatenated"
  | notStageBacked => "not loaded from a stage"

/-- What to do about one replicated side. -/
inductive SideDecision where
  | skip (reason : SkipReason)
  | concatenate (source : StageId) (files : UInt32)
deriving DecidableEq

/-- What was done about one replicated side. -/
inductive RepairState where
  | noOp (reason : SkipReason)
  | stageInserted (source concatenate : StageId) (files : UInt32)
deriving DecidableEq

namespace RepairState

/-- The text of a state. -/
def text : RepairState → String
  | noOp reason => "no-op (" ++ reason.text ++ ")"
  | stageInserted source concatenate files =>
      "inserted " ++ concatenate.text ++ " after " ++ source.text ++ " ("
        ++ toString files.toNat ++ " files -> 1)"

/-- Whether a stage was inserted. -/
def isStageInserted : RepairState → Bool
  | stageInserted _ _ _ => true
  | noOp _ => false

end RepairState

namespace JoinRepair

/-- Where the concatenate stage between two stages stores its file. -/
def concatenateTarget (source join : StageId) : String :=
  "tmp/concat-" ++ toString source.value.toNat ++ "-" ++ toString join.value.toNat

/-- The plan of the concatenate stage between two stages: load and store. -/
def concatenatePlan (source join : StageId) : SubPlan :=
  let (load, plan) := SubPlan.empty.add (.load (.stage source)) []
  (plan.add (.store (concatenateTarget source join)) [load]).2

/-- Decide about the replicated side that a load feeds. -/
def decide (graph : StageGraph) (plan : SubPlan) (load : OpId) (config : EngineConfig) :
    SideDecision :=
  if !config.splitCombinationDisabled then .skip .splitCombinationEnabled
  else
    match (plan.get? load).bind fun operator => operator.operation.loadedStage? with
    | none => .skip .notStageBacked
    | some source =>
        match graph.stage? source with
        | none => .skip .notStageBacked
        | some feeder =>
            if feeder.isConcatenate then .skip .alreadyConcatenated
            else
              match feeder.info.outputFiles with
              | .unknown => .skip .unknownFileCount
              | .known files =>
                  if config.mergeFilesThreshold < files then .concatenate source files
                  else .skip (.withinThreshold files config.mergeFilesThreshold)

/-- The decision about one replicated side of one join. -/
structure SideVerdict where
  stage : StageId
  join : OpId
  side : Nat
  load : OpId
  decision : SideDecision

/-- The decisions about the replicated sides of one join of a stage. -/
def joinVerdicts (graph : StageGraph) (config : EngineConfig) (stage : Stage)
    (join : OpId) : List SideVerdict :=
  match stage.plan.get? join with
  | some operator =>
      match operator.operation with
      | .join _ fragment =>
          operator.inputs.zipIdx.filterMap fun (load, side) =>
            if side = fragment.toNat then none
            else some ⟨stage.id, join, side, load, decide graph stage.plan load config⟩
      | _ => []
  | none => []

/-- The decisions about a stage; a stage with joins must be well formed. -/
def stageVerdicts (graph : StageGraph) (config : EngineConfig) (stage : Stage) :
    Except PlanError (List SideVerdict) :=
  match stage.kind with
  | .concatenate => .ok []
  | .ordinary =>
      if stage.plan.joins.isEmpty then .ok []
      else
        (graph.checkStage stage.id).map fun _ =>
          stage.plan.joins.flatMap (joinVerdicts graph config stage)

/-- The concatenate stages put in so far, by source and joining stage. -/
abbrev Inserted :=
  List ((StageId × StageId) × StageId)

/-- Put a concatenate stage on the edge between two stages. -/
def insertConcatenate (source join : StageId) : GraphEdit StageId :=
  StageGraph.insertBetween source join .concatenate (concatenatePlan source join)
    { outputFiles := .known 1 }

/-- Let a load read the output of a concatenate stage.  The direct edge from the
source stays only if something else in the stage still reads the source. -/
def repointLoad (stage : StageId) (load : OpId) (source concatenate : StageId) :
    GraphEdit Unit := do
  let graph ← get
  match graph.stage? stage with
  | none => throw (.stageVanished stage)
  | some reader =>
      if !reader.plan.operatorMap.contains load then throw (.operatorVanished stage load)
      let plan := reader.plan.modify load fun operator =>
        { operator with operation := .load (.stage concatenate) }
      set (graph.modifyStage stage fun reader => { reader with plan := plan })
      if plan.stageInputs.contains source then StageGraph.connect source stage
      else discard (StageGraph.disconnect source stage)

/-- Carry out one decision. -/
def apply (inserted : Inserted) (verdict : SideVerdict) :
    GraphEdit (RepairState × Inserted) :=
  match verdict.decision with
  | .skip reason => return (.noOp reason, inserted)
  | .concatenate source files => do
      let pair := (source, verdict.stage)
      let (concatenate, inserted) ← match inserted.lookup pair with
        | some existing => pure (existing, inserted)
        | none => do
            let fresh ← insertConcatenate source verdict.stage
            pure (fresh, (pair, fresh) :: inserted)
      repointLoad verdict.stage verdict.load source concatenate
      return (.stageInserted source concatenate files, inserted)

end JoinRepair

end BatchFlow
