import Mathlib.Data.List.Permutation
import BatchFlow.Proofs.Optimizer.RepairedRun

/-!
# Join repair keeps results

A valid graph and the graph that join repair leaves run to the same outputs, if
no store target of the latter disturbs another or a loaded dataset.
-/

namespace BatchFlow

open FileStore JoinRepair Steps

namespace StageGraph

variable {graph current : StageGraph} {inserted : Inserted} {engine : EngineConfig}
  {start : FileStore}

/-- The original and the repaired graph settle with the same outputs. -/
theorem Repaired.settled_iff (repaired : graph.Repaired inserted none current)
    (built : graph.Built) (backed : graph.Backed) (separate : current.Separate)
    {outputs : OrderedMap String (List Row)} :
    (∃ final, graph.Settled engine start final ∧ outputs = graph.leafRows final) ↔
      ∃ final, current.Settled engine start final ∧ outputs = current.leafRows final := by
  have sameTargets := repaired.leafTargets_eq built backed
  constructor
  · rintro ⟨final, settled, rfl⟩
    refine ⟨_, repaired.settled_repaired built backed separate settled, ?_⟩
    refine leafRows_congr sameTargets.symm fun target isLeafTarget => ?_
    obtain ⟨id, -, stage, found, isTarget⟩ := mem_leafTargets.mp isLeafTarget
    refine rowsOf_congr fun path within => ?_
    exact (repaired.get?_concatenated_target separate found
      (SubPlan.mem_targets_of_storeTarget? isTarget) within).symm
  · rintro ⟨final, settled, rfl⟩
    exact ⟨final, repaired.settled_original built backed settled,
      leafRows_congr sameTargets fun _ _ => rfl⟩

/-- Join repair never changes results: it succeeds on every valid graph, as long as
identifiers do not run out, and from every store a run of the graph it leaves
succeeds exactly when a run of the original graph does, with the same rows in the
same order under the same targets. -/
theorem joinRepair_keeps_results (built : graph.Built)
    (valid : ∃ count, graph.validate = .ok count) (config : EngineConfig)
    (room : (graph.afterJoinRepair config).HasRoom)
    (paths : (graph.afterJoinRepair config).SeparatePaths) :
    (∃ outcome, Pass.joinRepair.run config graph = .ok outcome (graph.afterJoinRepair config)) ∧
      ∀ engine start, graph.runOutputs? engine start =
        (graph.afterJoinRepair config).runOutputs? engine start := by
  obtain ⟨succeeds, inserted, repaired⟩ := joinRepair_eq_ok built valid room
  refine ⟨succeeds, fun engine start => Option.ext fun outputs => ?_⟩
  obtain ⟨-, -, checked⟩ := validate_eq_ok_iff.mp valid
  have backed := backed_of_valid checked
  have separate : (graph.afterJoinRepair config).Separate :=
    paths.separate fun id stage isStage => repaired.ownId built isStage
  rw [runOutputs?_eq_some_iff_settled (repaired.separate built separate) valid,
    runOutputs?_eq_some_iff_settled separate (repaired.valid built valid)]
  exact repaired.settled_iff built backed separate

/-- A plan that stores the regions. -/
def regionsPlan : SubPlan :=
  (SubPlan.empty.insert ⟨⟨0⟩, .load (.dataset "regions"), []⟩).insert
    ⟨⟨1⟩, .store "tmp/regions", [⟨0⟩]⟩

/-- A plan that joins sales with the output of the stage before. -/
def salesPlan : SubPlan :=
  (((SubPlan.empty.insert ⟨⟨0⟩, .load (.dataset "sales"), []⟩).insert
    ⟨⟨1⟩, .load (.stage ⟨0⟩), []⟩).insert ⟨⟨2⟩, .join [0, 0] 0, [⟨0⟩, ⟨1⟩]⟩).insert
    ⟨⟨3⟩, .store "totals", [⟨2⟩]⟩

/-- A stage that writes three files of regions. -/
def regionsStage : Stage :=
  ⟨⟨0⟩, .ordinary, regionsPlan, { outputFiles := .known 3 }⟩

/-- A stage that joins sales with these regions. -/
def salesStage : Stage :=
  ⟨⟨1⟩, .ordinary, salesPlan, {}⟩

/-- The graph of the two stages. -/
def salesGraph : StageGraph :=
  ⟨(OrderedMap.insert ∅ ⟨0⟩ regionsStage).insert ⟨1⟩ salesStage, OrderedSet.insert ∅ ⟨⟨0⟩, ⟨1⟩⟩, 2⟩

/-- A configuration under which join repair concatenates the regions. -/
def repairing : EngineConfig :=
  ⟨1, true, 1⟩

theorem built_salesGraph : salesGraph.Built := by
  have regionsIds : regionsPlan.OwnIds := (SubPlan.OwnIds.empty.insert _).insert _
  have salesIds : salesPlan.OwnIds :=
    (((SubPlan.OwnIds.empty.insert _).insert _).insert _).insert _
  have first :=
    Built.empty.addStage .ordinary { outputFiles := .known 3 } regionsIds (by decide) rfl
  have second := first.addStage .ordinary {} salesIds (by decide) rfl
  exact second.connect (by rfl : connect ⟨0⟩ ⟨1⟩ _ = .ok ⟨⟩ salesGraph)

theorem valid_salesGraph : ∃ count, salesGraph.validate = .ok count := by
  have ranked : salesGraph.Ranked fun id => id.value.toNat := by
    rw [Ranked]
    decide
  refine validate_eq_ok_iff.mpr ⟨built_salesGraph.edgesExist, ⟨_, ranked⟩, fun id isId => ?_⟩
  have ids : salesGraph.stageIds = [⟨0⟩, ⟨1⟩] := rfl
  rw [ids] at isId
  rcases List.mem_cons.mp isId with rfl | isId
  · rfl
  · rw [List.mem_singleton.mp isId]
    rfl

theorem order_salesGraph : salesGraph.order = .ok [⟨0⟩, ⟨1⟩] := by
  cbv

theorem stagesInOrder_salesGraph :
    salesGraph.stagesInOrder = .ok [regionsStage, salesStage] := by
  rw [stagesInOrder, order_salesGraph]
  rfl

theorem afterJoinRepair_salesGraph :
    salesGraph.afterJoinRepair repairing = stateOf (Pass.repairSides []
      [⟨⟨1⟩, ⟨2⟩, 1, ⟨1⟩, .concatenate ⟨0⟩ 3⟩] salesGraph) := by
  have decided : [regionsStage, salesStage].mapM (stageVerdicts salesGraph repairing) =
      .ok [[], [⟨⟨1⟩, ⟨2⟩, 1, ⟨1⟩, .concatenate ⟨0⟩ 3⟩]] := rfl
  rw [afterJoinRepair, run_joinRepair stagesInOrder_salesGraph decided]
  rfl

theorem joinRepair_keeps_results_salesGraph :
    salesGraph.Built ∧ (∃ count, salesGraph.validate = .ok count) ∧
      (salesGraph.afterJoinRepair repairing).HasRoom ∧
      (salesGraph.afterJoinRepair repairing).SeparatePaths ∧
      (salesGraph.afterJoinRepair repairing).stageIds = [⟨0⟩, ⟨1⟩, ⟨2⟩] ∧
      ∀ engine start, salesGraph.runOutputs? engine start =
        (salesGraph.afterJoinRepair repairing).runOutputs? engine start := by
  have ids : (salesGraph.afterJoinRepair repairing).stageIds = [⟨0⟩, ⟨1⟩, ⟨2⟩] := by
    rw [afterJoinRepair_salesGraph]
    decide +kernel
  have room : (salesGraph.afterJoinRepair repairing).HasRoom := by
    rw [HasRoom, ids]
    decide
  have paths : (salesGraph.afterJoinRepair repairing).SeparatePaths := by
    rw [afterJoinRepair_salesGraph]
    decide +kernel
  exact ⟨built_salesGraph, valid_salesGraph, room, paths, ids,
    (joinRepair_keeps_results built_salesGraph valid_salesGraph repairing room paths).2⟩

end StageGraph

end BatchFlow
