import BatchFlow.Proofs.Optimizer.RepairPass

/-!
# The decisions of join repair

The pass decides once about every side of a join in an ordinary stage that is not the
fragment.  It decides to concatenate the files of a stage exactly if such a side loads too
many of them.
-/

namespace BatchFlow

open JoinRepair Steps

namespace SubPlan

/-- A join reads a load on a side other than its fragment. -/
def JoinsSide (plan : SubPlan) (join : OpId) (side : Nat) (load : OpId) : Prop :=
  ∃ operator keys fragment, plan.get? join = some operator ∧
    operator.operation = .join keys fragment ∧ operator.inputs[side]? = some load ∧
      side ≠ fragment.toNat

/-- Some join reads a load on a side other than its fragment. -/
def FeedsSide (plan : SubPlan) (load : OpId) : Prop :=
  ∃ join side, plan.JoinsSide join side load

theorem Replicated.feedsSide {plan : SubPlan} {load : OpId} (replicated : plan.Replicated load) :
    plan.FeedsSide load := by
  obtain ⟨operator, inPlan, keys, fragment, kind, side, atSide, different, -⟩ :=
    replicated_iff.mp replicated
  obtain ⟨join, foundJoin⟩ := mem_operators.mp inPlan
  exact ⟨join, side, operator, keys, fragment, foundJoin, kind, atSide, different⟩

end SubPlan

namespace StageGraph

variable {graph : StageGraph} {config : EngineConfig} {stage : Stage} {verdict : SideVerdict}
  {source join : StageId}

/-- An ordinary stage has a join with a side other than its fragment. -/
def ReplicatesSide (graph : StageGraph) (id : StageId) (join : OpId) (side : Nat) : Prop :=
  ∃ stage load, graph.stage? id = some stage ∧ stage.kind = .ordinary ∧
    stage.plan.JoinsSide join side load

/-- A stage has more files than a task should read of it. -/
def HasManyFiles (graph : StageGraph) (config : EngineConfig) (source : StageId) : Prop :=
  ∃ feeder files, graph.stage? source = some feeder ∧ feeder.kind ≠ .concatenate ∧
    feeder.info.outputFiles = .known files ∧ config.mergeFilesThreshold < files

/-- Every task of an ordinary stage reads too many files of a source for its joins. -/
def Crowded (graph : StageGraph) (config : EngineConfig) (source join : StageId) : Prop :=
  config.splitCombinationDisabled = true ∧
    (∃ stage load operator, graph.stage? join = some stage ∧ stage.kind = .ordinary ∧
      stage.plan.get? load = some operator ∧ operator.operation = .load (.stage source) ∧
        stage.plan.FeedsSide load) ∧
    graph.HasManyFiles config source

theorem exists_decide_eq_concatenate {plan : SubPlan} {load : OpId} :
    (∃ files, JoinRepair.decide graph plan load config = .concatenate source files) ↔
      config.splitCombinationDisabled = true ∧
        (∃ operator, plan.get? load = some operator ∧
          operator.operation = .load (.stage source)) ∧ graph.HasManyFiles config source := by
  have notConcatenate (feeder : Stage) :
      feeder.isConcatenate = false ↔ feeder.kind ≠ .concatenate := by
    rw [Stage.isConcatenate]
    cases feeder.kind <;> simp
  simp only [decide_eq_concatenate, HasManyFiles, notConcatenate]
  constructor
  · rintro ⟨files, disabled, loads, feeder, found, ordinary, known, above⟩
    exact ⟨disabled, loads, feeder, files, found, ordinary, known, above⟩
  · rintro ⟨disabled, loads, feeder, files, found, ordinary, known, above⟩
    exact ⟨files, disabled, loads, feeder, found, ordinary, known, above⟩

section Built

variable (built : graph.Built)

include built

theorem decided_iff :
    graph.Decided config verdict ↔
      ∃ stage, graph.stage? verdict.stage = some stage ∧ stage.kind = .ordinary ∧
        stage.plan.JoinsSide verdict.join verdict.side verdict.load ∧
          verdict.decision = JoinRepair.decide graph stage.plan verdict.load config := by
  refine exists_congr fun stage => and_congr_right fun found => and_congr_right fun _ => ?_
  rw [mem_joinVerdicts]
  constructor
  · rintro ⟨operator, keys, fragment, foundJoin, kind, atSide, different, isVerdict⟩
    exact ⟨⟨operator, keys, fragment, foundJoin, kind, atSide, different⟩,
      congrArg SideVerdict.decision isVerdict⟩
  · rintro ⟨⟨operator, keys, fragment, foundJoin, kind, atSide, different⟩, isDecision⟩
    refine ⟨operator, keys, fragment, foundJoin, kind, atSide, different, ?_⟩
    rw [built.ownId _ stage found, ← isDecision]

/-- The pass decides to concatenate exactly for the crowded pairs. -/
theorem crowded_iff :
    graph.Crowded config source join ↔ ∃ verdict, graph.Decided config verdict ∧
      verdict.stage = join ∧ ∃ files, verdict.decision = .concatenate source files := by
  constructor
  · rintro ⟨disabled, ⟨stage, load, operator, found, isOrdinary, foundLoad, isLoad, joinId, side,
      joinsSide⟩, manyFiles⟩
    obtain ⟨files, decision⟩ :=
      exists_decide_eq_concatenate.mpr ⟨disabled, ⟨operator, foundLoad, isLoad⟩, manyFiles⟩
    exact ⟨⟨join, joinId, side, load, JoinRepair.decide graph stage.plan load config⟩,
      (decided_iff built).mpr ⟨stage, found, isOrdinary, joinsSide, rfl⟩, rfl, files, decision⟩
  · rintro ⟨verdict, isDecided, rfl, files, decision⟩
    obtain ⟨stage, found, isOrdinary, joinsSide, isDecision⟩ := (decided_iff built).mp isDecided
    obtain ⟨disabled, ⟨operator, foundLoad, isLoad⟩, manyFiles⟩ :=
      exists_decide_eq_concatenate.mp ⟨files, isDecision.symm.trans decision⟩
    exact ⟨disabled, ⟨stage, verdict.load, operator, found, isOrdinary, foundLoad, isLoad,
      verdict.join, verdict.side, joinsSide⟩, manyFiles⟩

/-- In a crowded pair, the files are concatenated for every side that loads them. -/
theorem Crowded.decided (crowded : graph.Crowded config source join) {load : OpId}
    {operator : Operator} (found : graph.stage? join = some stage)
    (foundLoad : stage.plan.get? load = some operator)
    (isLoad : operator.operation = .load (.stage source)) (feedsSide : stage.plan.FeedsSide load) :
    ∃ verdict files, graph.Decided config verdict ∧ verdict.stage = join ∧ verdict.load = load ∧
      verdict.decision = .concatenate source files := by
  obtain ⟨disabled, ⟨other, -, -, foundOther, isOrdinary, -⟩, manyFiles⟩ := crowded
  obtain rfl := Option.some.inj (found.symm.trans foundOther)
  obtain ⟨joinId, side, joinsSide⟩ := feedsSide
  obtain ⟨files, decision⟩ :=
    exists_decide_eq_concatenate.mpr ⟨disabled, ⟨operator, foundLoad, isLoad⟩, manyFiles⟩
  exact ⟨⟨join, joinId, side, load, JoinRepair.decide graph stage.plan load config⟩, files,
    (decided_iff built).mpr ⟨stage, found, isOrdinary, joinsSide, rfl⟩, rfl, rfl, decision⟩

end Built

def place (verdict : SideVerdict) : StageId × OpId × Nat :=
  (verdict.stage, verdict.join, verdict.side)

theorem nodup_place_joinVerdicts (stage : Stage) (join : OpId) :
    ((joinVerdicts graph config stage join).map place).Nodup := by
  rw [joinVerdicts]
  cases stage.plan.get? join with
  | none => exact List.nodup_nil
  | some operator =>
      cases kind : operator.operation with
      | join keys fragment =>
          have sides : operator.inputs.zipIdx.Pairwise fun first second => first.2 ≠ second.2 := by
            apply List.pairwise_map.mp
            rw [List.zipIdx_map_snd]
            exact List.nodup_range'
          simp only [kind]
          rw [List.Nodup, List.pairwise_map, List.pairwise_filterMap]
          refine sides.imp fun {first second} different verdict isFirst other isSecond same => ?_
          simp only [Option.ite_none_left_eq_some, Option.some.injEq] at isFirst isSecond
          obtain ⟨-, rfl⟩ := isFirst
          obtain ⟨-, rfl⟩ := isSecond
          exact different (congrArg (fun place => place.2.2) same)
      | _ =>
          simp only [kind]
          exact List.nodup_nil

theorem nodup_place_stageVerdicts (ownIds : stage.plan.OwnIds) {verdicts : List SideVerdict}
    (decided : stageVerdicts graph config stage = .ok verdicts) :
    (verdicts.map place).Nodup := by
  rw [stageVerdicts] at decided
  split at decided
  case h_1 =>
    obtain rfl := Except.ok.inj decided
    exact List.nodup_nil
  case h_2 =>
    split at decided
    case isTrue =>
      obtain rfl := Except.ok.inj decided
      exact List.nodup_nil
    case isFalse =>
      obtain ⟨_, -, rfl⟩ := Results.map_eq_ok.mp decided
      have joins : stage.plan.joins.Nodup := ownIds.nodup_map_id_filter _
      rw [List.map_flatMap, List.nodup_flatMap]
      refine ⟨fun join _ => nodup_place_joinVerdicts stage join, joins.imp ?_⟩
      intro first second different other inFirst inSecond
      obtain ⟨verdict, ofFirst, rfl⟩ := List.mem_map.mp inFirst
      obtain ⟨otherVerdict, ofSecond, same⟩ := List.mem_map.mp inSecond
      obtain ⟨_, _, _, -, -, -, -, isVerdict⟩ := mem_joinVerdicts.mp ofFirst
      obtain ⟨_, _, _, -, -, -, -, isOther⟩ := mem_joinVerdicts.mp ofSecond
      rw [isVerdict, isOther] at same
      exact different (congrArg (fun place => place.2.1) same).symm

theorem nodup_place_flatten {stages : List Stage} {verdicts : List (List SideVerdict)}
    (ids : (stages.map Stage.id).Nodup)
    (related : List.Forall₂ (fun stage ofStage =>
      (ofStage.map place).Nodup ∧ ∀ verdict ∈ ofStage, verdict.stage = stage.id)
        stages verdicts) :
    (verdicts.flatten.map place).Nodup := by
  induction related with
  | nil => exact List.nodup_nil
  | @cons stage ofStage stages verdicts atHead inTail ih =>
      rw [List.map_cons, List.nodup_cons] at ids
      rw [List.flatten_cons, List.map_append, List.nodup_append]
      refine ⟨atHead.1, ih ids.2, fun first inHead second inRest same => ids.1 ?_⟩
      obtain ⟨verdict, isHead, rfl⟩ := List.mem_map.mp inHead
      obtain ⟨other, isRest, rfl⟩ := List.mem_map.mp inRest
      obtain ⟨ofOther, inVerdicts, isOther⟩ := List.mem_flatten.mp isRest
      obtain ⟨otherStage, inStages, -, about⟩ := exists_mem_of_forall₂ inTail.flip inVerdicts
      rw [← atHead.2 verdict isHead, show verdict.stage = other.stage from congrArg Prod.fst same,
        about other isOther]
      exact List.mem_map_of_mem inStages

/-- The stages in the order of the walk are listed once each. -/
theorem nodup_map_id_stagesInOrder (built : graph.Built) {stages : List Stage}
    (inOrder : graph.stagesInOrder = .ok stages) : (stages.map Stage.id).Nodup := by
  obtain ⟨order, ordered, required⟩ := Results.bind_eq_ok.mp inOrder
  obtain ⟨-, all, -⟩ := order_sound ordered
  have found := Results.mapM_eq_ok.mp required
  have ids : stages.map Stage.id = order := by
    clear all ordered required inOrder
    induction found with
    | nil => rfl
    | cons atHead _ ih =>
        rw [List.map_cons, ih, built.ownId _ _ (require_eq_ok.mp atHead)]
  rw [ids]
  exact all.nodup_iff.mpr graph.nodup_stageIds

theorem nodup_place_verdicts (built : graph.Built) {stages : List Stage}
    {verdicts : List (List SideVerdict)} (inOrder : graph.stagesInOrder = .ok stages)
    (decided : stages.mapM (stageVerdicts graph config) = .ok verdicts) :
    (verdicts.flatten.map place).Nodup := by
  obtain ⟨order, -, required⟩ := Results.bind_eq_ok.mp inOrder
  have found := Results.mapM_eq_ok.mp required
  refine nodup_place_flatten (nodup_map_id_stagesInOrder built inOrder) ?_
  have related := forall₂_and_mem (Results.mapM_eq_ok.mp decided)
  refine related.imp fun stage ofStage ⟨decidedStage, inStages, _⟩ => ?_
  obtain ⟨id, -, foundStage⟩ := exists_mem_of_forall₂ found.flip inStages
  have ownIds := built.ownIds id stage (require_eq_ok.mp foundStage)
  refine ⟨nodup_place_stageVerdicts ownIds decidedStage, fun verdict isVerdict => ?_⟩
  obtain ⟨-, ofJoin⟩ := (mem_stageVerdicts ownIds decidedStage).mp isVerdict
  obtain ⟨_, _, _, -, -, -, -, same⟩ := mem_joinVerdicts.mp ofJoin
  exact congrArg SideVerdict.stage same

end StageGraph

end BatchFlow
