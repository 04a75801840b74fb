import BatchFlow.Proofs.Optimizer.FlagsThroughRepair
import BatchFlow.Proofs.Optimizer.Idempotence
import BatchFlow.Proofs.Optimizer.KeptFlags

/-!
# Passes in either order

Join repair leaves every grouping operator where it is and inserts stages without any, so a
stage qualifies for accumulation after it exactly if it did before.  And join repair does the
same whether operators are flagged or not.  So the two passes may be run in either order.
-/

namespace BatchFlow

open JoinRepair Steps

namespace StageGraph

variable {graph current between after : StageGraph} {config : EngineConfig} {inserted : Inserted}

/-- The same stages qualify, with the same grouping operators, once joins are repaired. -/
theorem Repaired.qualifies_iff (repaired : graph.Repaired inserted none current) {id : StageId}
    {packages : List OpId} : current.Qualifies id packages ↔ graph.Qualifies id packages := by
  have sameVerdict {stage other : Stage} (repairedStage : RepairedStage inserted stage other) :
      other.plan.qualify = .qualifies packages ↔ stage.plan.qualify = .qualifies packages :=
    SubPlan.qualify_congr SubPlan.keepsObstacles_withoutSource repairedStage.shape.symm
  constructor
  · rintro ⟨key, other, isStage, isId, isOrdinary, qualifies⟩
    have notConcatenate : other.kind ≠ .concatenate := by simp [isOrdinary]
    obtain ⟨stage, found, repairedStage⟩ := repaired.exists_original isStage notConcatenate
    exact ⟨key, stage, found, repairedStage.id ▸ isId, repairedStage.kind ▸ isOrdinary,
      (sameVerdict repairedStage).mp qualifies⟩
  · rintro ⟨key, stage, found, isId, isOrdinary, qualifies⟩
    obtain ⟨other, isStage, repairedStage⟩ := repaired.kept key stage found
    exact ⟨key, other, isStage, repairedStage.id.trans isId, repairedStage.kind.trans isOrdinary,
      (sameVerdict repairedStage).mpr qualifies⟩

theorem FlaggedBy.eq_flagStages (built : graph.Built)
    {verdicts : List (StageId × Qualification)} (flagged : graph.FlaggedBy verdicts after) :
    after = graph.flagStages (namedPackages verdicts) := by
  have sameStages : after.stageMap =
      graph.stageMap.mapValues (Stage.flag (namedPackages verdicts)) := by
    refine OrderedMap.ext_get? fun id => ?_
    rw [OrderedMap.get?_mapValues]
    refine (flagged.stages id).trans ?_
    cases found : graph.stage? id with
    | none => rw [show graph.stageMap.get? id = none from found]; rfl
    | some stage =>
        rw [show graph.stageMap.get? id = some stage from found, Option.map_some, Option.map_some,
          Stage.flag, built.ownId id stage found]
  exact (StageGraph.mk.injEq ..).mpr ⟨sameStages, flagged.edges, flagged.nextId⟩

/-- Accumulation of a valid graph flags the grouping operators that its stages qualify with. -/
theorem exists_flagStages (built : graph.Built) (valid : ∃ count, graph.validate = .ok count)
    (config : EngineConfig) :
    ∃ outcome packages, Pass.accumulation.run config graph =
        .ok outcome (graph.flagStages packages) ∧
      ∀ id package, package ∈ packages id ↔
        ∃ qualified, graph.Qualifies id qualified ∧ package ∈ qualified := by
  obtain ⟨outcome, after, ran, -⟩ :=
    accumulation_succeeds built (exists_order_of_valid valid) (not_malformed_of_valid valid) config
  obtain ⟨verdicts, flagged, isVerdict⟩ := exists_flaggedBy ran
  obtain rfl := flagged.eq_flagStages built
  refine ⟨outcome, namedPackages verdicts, ran, fun id package => ?_⟩
  simp only [mem_namedPackages, isVerdict]

/-- Two passes one after the other. -/
theorem optimizeWith_of_passes {first second : Pass} {order : List StageId}
    {firstOutcome secondOutcome : PassOutcome} (ordered : graph.order = .ok order)
    (firstRan : first.run config graph = .ok firstOutcome between)
    (secondRan : second.run config between = .ok secondOutcome after) :
    optimizeWith [first, second] config graph = .ok
      ⟨[firstOutcome, secondOutcome], graph.fingerprint, after.fingerprint⟩ after := by
  rw [optimizeWith, get_bind_apply, ordered]
  show (([first, second].mapM (Pass.run config)) >>= _) graph = _
  refine bind_eq_ok.mpr ⟨[firstOutcome, secondOutcome], after, ?_, rfl⟩
  rw [List.mapM_cons, List.mapM_cons, List.mapM_nil]
  refine bind_eq_ok.mpr ⟨firstOutcome, between, firstRan, ?_⟩
  exact bind_eq_ok.mpr ⟨_, after, bind_eq_ok.mpr ⟨secondOutcome, after, secondRan, rfl⟩, rfl⟩

/-- Flagging first changes nothing about which stages join repair inserts. -/
theorem stageIds_optimizeWith (built : graph.Built) (valid : ∃ count, graph.validate = .ok count)
    (config : EngineConfig) :
    (stateOf (optimizeWith [.accumulation, .joinRepair] config graph)).stageIds =
      (graph.afterJoinRepair config).stageIds := by
  obtain ⟨order, ordered⟩ := exists_order_of_valid valid
  obtain ⟨flags, packages, flagsRan, -⟩ := exists_flagStages built valid config
  have sameState : stateOf (optimizeWith [.accumulation, .joinRepair] config graph) =
      (graph.flagStages packages).afterJoinRepair config := by
    change stateOf (optimize config graph) = _
    rw [optimize_of_order ordered, bind_apply, flagsRan, afterJoinRepair]
    dsimp only
    rw [bind_apply]
    cases Pass.joinRepair.run config (graph.flagStages packages) <;> rfl
  rw [sameState, afterJoinRepair, respects_joinRepair built valid, stateOf_mapState,
    (flagged_flagStages packages _).restaged.stageIds, afterJoinRepair]

/-- The two passes commute: on every valid graph, both orders succeed and leave the same graph,
as long as identifiers do not run out. -/
theorem optimizeWith_comm (built : graph.Built) (valid : ∃ count, graph.validate = .ok count)
    (config : EngineConfig)
    (room : HasRoom (stateOf (optimizeWith [.accumulation, .joinRepair] config graph))) :
    ∃ first second after,
      optimizeWith [.accumulation, .joinRepair] config graph = .ok first after ∧
      optimizeWith [.joinRepair, .accumulation] config graph = .ok second after := by
  obtain ⟨order, ordered⟩ := exists_order_of_valid valid
  obtain ⟨flags, packages, flagsRan, isNamed⟩ := exists_flagStages built valid config
  have flagsFirst := respects_joinRepair built valid packages config
  have roomRepaired : (graph.afterJoinRepair config).HasRoom := by
    rwa [HasRoom, ← stageIds_optimizeWith built valid]
  obtain ⟨repair, inserted, repairRan, repaired⟩ := exists_joinsRepaired built valid roomRepaired
  have backed := backed_of_valid (validate_eq_ok_iff.mp valid).2.2
  have builtRepaired := repaired.isBuilt built backed
  obtain ⟨flagsAfter, packagesAfter, flagsAfterRan, isNamedAfter⟩ :=
    exists_flagStages builtRepaired (repaired.toRepaired.valid built valid) config
  rw [repairRan] at flagsFirst
  have sameFlags : (graph.afterJoinRepair config).flagStages packagesAfter =
      (graph.afterJoinRepair config).flagStages packages := by
    refine flagStages_congr fun id stage _ => ?_
    rw [Stage.flag, Stage.flag, SubPlan.flagPackages_congr fun package => ?_]
    rw [isNamed, isNamedAfter]
    simp only [repaired.qualifies_iff]
  exact ⟨_, _, _, optimizeWith_of_passes ordered flagsRan flagsFirst,
    sameFlags ▸ optimizeWith_of_passes ordered repairRan flagsAfterRan⟩

/-- A plan that joins sales with the output of the stage before and adds them up by region. -/
def regionTotalsPlan : SubPlan :=
  ((((((SubPlan.empty.insert ⟨⟨0⟩, .load (.dataset "sales"), []⟩).insert
    ⟨⟨1⟩, .load (.stage ⟨0⟩), []⟩).insert ⟨⟨2⟩, .join [0, 0] 0, [⟨0⟩, ⟨1⟩]⟩).insert
    ⟨⟨3⟩, .rearrange 0, [⟨2⟩]⟩).insert ⟨⟨4⟩, .package none false, [⟨3⟩]⟩).insert
    ⟨⟨5⟩, .forEach [.groupKey, .aggregate .sum 1 false], [⟨4⟩]⟩).insert
    ⟨⟨6⟩, .store "totals", [⟨5⟩]⟩

/-- The graph of a stage that writes the regions and one with this plan. -/
def regionTotalsGraph : StageGraph :=
  ⟨(OrderedMap.insert ∅ ⟨0⟩ regionsStage).insert ⟨1⟩ ⟨⟨1⟩, .ordinary, regionTotalsPlan, {}⟩,
    OrderedSet.insert ∅ ⟨⟨0⟩, ⟨1⟩⟩, 2⟩

theorem built_regionTotalsGraph : regionTotalsGraph.Built := by
  have regionsIds : regionsPlan.OwnIds := (SubPlan.OwnIds.empty.insert _).insert _
  have totalsIds : regionTotalsPlan.OwnIds :=
    ((((((SubPlan.OwnIds.empty.insert _).insert _).insert _).insert _).insert _).insert _).insert _
  have first :=
    Built.empty.addStage .ordinary { outputFiles := .known 3 } regionsIds (by decide) rfl
  have second := first.addStage .ordinary {} totalsIds (by decide) rfl
  exact second.connect (by rfl : connect ⟨0⟩ ⟨1⟩ _ = .ok ⟨⟩ regionTotalsGraph)

theorem valid_regionTotalsGraph : ∃ count, regionTotalsGraph.validate = .ok count := by
  have ranked : regionTotalsGraph.Ranked fun id => id.value.toNat := by
    rw [Ranked]
    decide
  refine validate_eq_ok_iff.mpr
    ⟨built_regionTotalsGraph.edgesExist, ⟨_, ranked⟩, fun id isId => ?_⟩
  have ids : regionTotalsGraph.stageIds = [⟨0⟩, ⟨1⟩] := rfl
  rw [ids] at isId
  rcases List.mem_cons.mp isId with rfl | isId
  · rfl
  · rw [List.mem_singleton.mp isId]
    rfl

theorem stageIds_afterJoinRepair_regionTotalsGraph :
    (regionTotalsGraph.afterJoinRepair repairing).stageIds = [⟨0⟩, ⟨1⟩, ⟨2⟩] := by
  have ordered : regionTotalsGraph.order = .ok [⟨0⟩, ⟨1⟩] := by cbv
  have inOrder : regionTotalsGraph.stagesInOrder =
      .ok [regionsStage, ⟨⟨1⟩, .ordinary, regionTotalsPlan, {}⟩] := by
    rw [stagesInOrder, ordered]
    rfl
  have decided : [regionsStage, ⟨⟨1⟩, .ordinary, regionTotalsPlan, {}⟩].mapM
      (stageVerdicts regionTotalsGraph repairing) =
        .ok [[], [⟨⟨1⟩, ⟨2⟩, 1, ⟨1⟩, .concatenate ⟨0⟩ 3⟩]] := rfl
  have sameStages : (regionTotalsGraph.afterJoinRepair repairing).stageIds =
      (stateOf (Pass.repairSides [] [⟨⟨1⟩, ⟨2⟩, 1, ⟨1⟩, .concatenate ⟨0⟩ 3⟩]
        regionTotalsGraph)).stageIds := by
    rw [afterJoinRepair, run_joinRepair inOrder decided]
    rfl
  rw [sameStages]
  decide +kernel

theorem optimizeWith_comm_regionTotalsGraph :
    regionTotalsGraph.Built ∧ (∃ count, regionTotalsGraph.validate = .ok count) ∧
      HasRoom (stateOf (optimizeWith [.accumulation, .joinRepair] repairing regionTotalsGraph)) ∧
      regionTotalsPlan.qualify = .qualifies [⟨4⟩] ∧
      ∃ first second after, after.stageIds = [⟨0⟩, ⟨1⟩, ⟨2⟩] ∧
        optimizeWith [.accumulation, .joinRepair] repairing regionTotalsGraph = .ok first after ∧
        optimizeWith [.joinRepair, .accumulation] repairing regionTotalsGraph =
          .ok second after := by
  have ids := (stageIds_optimizeWith built_regionTotalsGraph valid_regionTotalsGraph
    repairing).trans stageIds_afterJoinRepair_regionTotalsGraph
  have room : HasRoom
      (stateOf (optimizeWith [.accumulation, .joinRepair] repairing regionTotalsGraph)) := by
    rw [HasRoom, ids]
    decide
  obtain ⟨first, second, after, ranFirst, ranSecond⟩ :=
    optimizeWith_comm built_regionTotalsGraph valid_regionTotalsGraph repairing room
  rw [ranFirst] at ids
  exact ⟨built_regionTotalsGraph, valid_regionTotalsGraph, room, by cbv, first, second, after, ids,
    ranFirst, ranSecond⟩

end StageGraph

end BatchFlow
