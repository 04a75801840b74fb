import BatchFlow.Proofs.Optimizer.AllOrNothing
import BatchFlow.Proofs.Optimizer.RaisedFlags

/-!
# Optimization keeps graphs valid

The pipeline raises flags and then repairs joins, so a valid graph stays valid.
Its stages are those of the original graph and the concatenate stages reported.
-/

namespace BatchFlow

open JoinRepair Steps

/-- Every input of a join but its fragment side is a load. -/
def SubPlan.ReplicatesLoads (plan : SubPlan) : Prop :=
  ∀ id operator keys fragment, plan.get? id = some operator →
    operator.operation = .join keys fragment → ∀ side input,
      operator.inputs[side]? = some input → side ≠ fragment.toNat →
        ∃ source, plan.get? input = some source ∧ source.operation.isLoad = true

theorem SubPlan.WellFormed.replicatesLoads {plan : SubPlan} (wellFormed : plan.WellFormed) :
    plan.ReplicatesLoads :=
  fun id operator keys fragment found kind =>
    (wellFormed.operators id operator found).replicatedSides keys fragment kind

/-- The next identifier of the plan is above those of its operators. -/
def SubPlan.IdsBelow (plan : SubPlan) : Prop :=
  ∀ id operator, plan.get? id = some operator → id.value < plan.nextId

namespace SubPlan

variable {plan other : SubPlan}

theorem idsBelow_flagPackages (below : plan.IdsBelow) (packages : List OpId) :
    (plan.flagPackages packages).IdsBelow := by
  intro id operator found
  rw [nextId_flagPackages]
  rw [get?_flagPackages] at found
  split at found
  · obtain ⟨original, foundToo, -⟩ := Option.map_eq_some_iff.mp found
    exact below id original foundToo
  · exact below id operator found

theorem idsBelow_of_relabel {change : Operation → Operation}
    (same : plan.relabel change = other.relabel change) (below : plan.IdsBelow) :
    other.IdsBelow := by
  intro id operator found
  have sameNext : (plan.relabel change).nextId = (other.relabel change).nextId := by rw [same]
  have sameGet := congrArg (fun plan : SubPlan => plan.get? id) same
  simp only [get?_relabel, found, Option.map_some] at sameGet
  obtain ⟨original, foundToo, -⟩ := Option.map_eq_some_iff.mp sameGet
  exact sameNext ▸ below id original foundToo

end SubPlan

namespace StageGraph

variable {graph current flagging after : StageGraph} {config : EngineConfig}
  {inserted : Inserted} {source join concatenate : StageId}

theorem size_eq (graph : StageGraph) : graph.size = graph.stageIds.length := by
  rw [size, OrderedMap.size, stageIds, OrderedMap.keys, List.length_map]

theorem idsBelow_concatenatePlan (source join : StageId) :
    (concatenatePlan source join).IdsBelow := by
  intro id operator found
  have areBelow : ∀ id ∈ [OpId.mk 0, OpId.mk 1], id.value < 2 := by decide
  exact areBelow id (OrderedMap.mem_keys_iff.mpr ⟨operator, found⟩)

theorem ownIds_concatenatePlan (source join : StageId) : (concatenatePlan source join).OwnIds :=
  (SubPlan.OwnIds.empty.insert _).insert _

namespace Repaired

variable (repaired : graph.Repaired inserted none current)

include repaired

theorem isBuilt (built : graph.Built) (backed : graph.Backed) : current.Built where
  ownId _ _ isStage := repaired.ownId built isStage
  ownIds id other isStage := by
    rcases repaired.stage_cases isStage with ⟨stage, found, repairedStage⟩ | ⟨_, _, _, _, rfl⟩
    · exact repairedStage.ownIds (built.ownIds id stage found)
    · exact ownIds_concatenatePlan _ _
  below := repaired.below
  edges edge isEdge := by
    have exist := repaired.edgesExist built backed edge isEdge
    refine ⟨?_, mem_stageIds.mp exist.1, mem_stageIds.mp exist.2⟩
    -- A new edge has a concatenate stage at one end and an original stage at the other.
    rcases repaired.edges edge isEdge with isOld | ⟨source, join, concatenate, member, ends⟩
    · exact (built.edges edge isOld).1
    · obtain ⟨-, ⟨feeder, foundFeeder⟩, reader, foundReader⟩ :=
        repaired.edge_of_concatenate built backed member
      rcases ends with rfl | rfl
      · exact (repaired.ne_concatenate foundFeeder member).symm
      · exact repaired.ne_concatenate foundReader member

theorem mem_stageIds_iff {id : StageId} :
    id ∈ current.stageIds ↔ id ∈ graph.stageIds ∨ id ∈ inserted.map Prod.snd := by
  rw [mem_stageIds, mem_stageIds]
  constructor
  · rintro ⟨other, isStage⟩
    refine (repaired.only id other isStage).imp (fun old => old) ?_
    rintro ⟨source, join, member⟩
    exact List.mem_map_of_mem member
  · rintro (isOld | isInserted)
    · exact repaired.exists_kept isOld
    · obtain ⟨⟨⟨source, join⟩, _⟩, member, rfl⟩ := List.mem_map.mp isInserted
      obtain ⟨info, isStage⟩ := repaired.concatenates source join _ member
      exact ⟨_, isStage⟩

theorem perm_stageIds : current.stageIds.Perm (graph.stageIds ++ inserted.map Prod.snd) := by
  have disjoint : graph.stageIds.Disjoint (inserted.map Prod.snd) := by
    intro id isOld isInserted
    obtain ⟨stage, found⟩ := mem_stageIds.mp isOld
    obtain ⟨⟨⟨source, join⟩, _⟩, member, rfl⟩ := List.mem_map.mp isInserted
    exact repaired.ne_concatenate found member rfl
  have together : (graph.stageIds ++ inserted.map Prod.snd).Nodup :=
    graph.nodup_stageIds.append repaired.nodup disjoint
  refine (List.perm_ext_iff_of_nodup current.nodup_stageIds together).mpr fun id => ?_
  rw [repaired.mem_stageIds_iff, List.mem_append]

theorem size_eq_add : current.size = graph.size + inserted.length := by
  rw [size_eq, size_eq, repaired.perm_stageIds.length_eq, List.length_append, List.length_map]

end Repaired

/-- What the pipeline has done to a graph: raised flags, then repaired joins. -/
structure Optimized (graph : StageGraph) (config : EngineConfig) (report : OptimizationReport)
    (flagging : StageGraph) (inserted : Inserted) (after : StageGraph) : Prop where
  flagged : graph.Flagged flagging
  raised : flagging.AllRaised
  repaired : ∃ outcome, flagging.JoinsRepaired config outcome inserted after
  insertedStages : ∀ concatenate,
    concatenate ∈ report.insertedStages ↔ concatenate ∈ inserted.map Prod.snd

theorem mem_insertedStages {flags repair : PassOutcome} {before final : Digest}
    (noneInserted : flags.decisions.filterMap Decision.inserted? = []) :
    concatenate ∈ (OptimizationReport.mk [flags, repair] before final).insertedStages ↔
      concatenate ∈ repair.decisions.filterMap Decision.inserted? := by
  rw [OptimizationReport.insertedStages, OrderedSet.mem_ofList, OptimizationReport.decisions,
    List.flatMap_cons, List.flatMap_singleton, List.filterMap_append, noneInserted, List.nil_append]

section Valid

variable (built : graph.Built) (valid : ∃ count, graph.validate = .ok count)

include built valid

/-- The pipeline succeeds on every valid graph, as long as identifiers do not run out. -/
theorem exists_optimized (room : HasRoom (stateOf (optimize config graph))) :
    ∃ report flagging inserted after, optimize config graph = .ok report after ∧
      graph.Optimized config report flagging inserted after := by
  obtain ⟨order, ordered⟩ := exists_order_of_valid valid
  obtain ⟨flags, flagging, ran, noneInserted, flagged, raised⟩ := exists_allRaised built valid
  obtain ⟨repair, inserted, repairRan, repaired⟩ := exists_joinsRepaired
    (flagged.restaged.built built) (flagged.restaged.valid built valid)
    (hasRoom_afterJoinRepair ordered ran room)
  refine ⟨_, flagging, inserted, _, optimize_of_passes ordered ran repairRan, flagged, raised,
    ⟨repair, repaired⟩, fun concatenate => ?_⟩
  obtain ⟨entries, isDecisions, carriedOut, -⟩ := repaired.carriedOut
  rw [mem_insertedStages noneInserted, isDecisions, carriedOut.reports]

namespace Optimized

variable {report : OptimizationReport}
  (optimized : graph.Optimized config report flagging inserted after)

include optimized

omit valid in
theorem built_flagging : flagging.Built :=
  optimized.flagged.restaged.built built

theorem valid_flagging : ∃ count, flagging.validate = .ok count :=
  optimized.flagged.restaged.valid built valid

theorem backed_flagging : flagging.Backed :=
  backed_of_valid (validate_eq_ok_iff.mp (optimized.valid_flagging built valid)).2.2

theorem built_after : after.Built := by
  obtain ⟨outcome, repaired⟩ := optimized.repaired
  exact repaired.isBuilt (optimized.built_flagging built)
    (optimized.backed_flagging built valid)

theorem valid_after : ∃ count, after.validate = .ok count := by
  obtain ⟨outcome, repaired⟩ := optimized.repaired
  exact repaired.toRepaired.valid (optimized.built_flagging built)
    (optimized.valid_flagging built valid)

omit built valid in
theorem size_after : after.size = graph.size + report.insertedStages.length := by
  obtain ⟨outcome, repaired⟩ := optimized.repaired
  have sameStages : report.insertedStages.Perm (inserted.map Prod.snd) :=
    (List.perm_ext_iff_of_nodup (OrderedSet.nodup_elements _) repaired.nodup).mpr
      optimized.insertedStages
  rw [repaired.size_eq_add, size_eq, size_eq, optimized.flagged.restaged.stageIds,
    sameStages.length_eq, List.length_map]

omit built valid in
theorem idsBelow_after
    (below : ∀ id stage, graph.stage? id = some stage → stage.plan.IdsBelow) {id : StageId}
    {other : Stage} (isStage : after.stage? id = some other) : other.plan.IdsBelow := by
  obtain ⟨outcome, repaired⟩ := optimized.repaired
  rcases repaired.stage_cases isStage with ⟨flags, found, repairedStage⟩ | ⟨_, _, _, _, rfl⟩
  · obtain ⟨stage, packages, foundToo, rfl⟩ := optimized.flagged.exists_stage found
    exact SubPlan.idsBelow_of_relabel repairedStage.shape
      (SubPlan.idsBelow_flagPackages (below id stage foundToo) packages)
  · exact idsBelow_concatenatePlan _ _

end Optimized

end Valid

/-- Optimization keeps a valid graph valid: as long as identifiers do not run out, it
succeeds, and leaves a graph that editing can build and that passes the check, with
exactly the stages reported as inserted besides the original ones.  So there is
still no cycle, every load of a stage is backed by an edge, and every replicated side
of a join is a load. -/
theorem optimize_keeps_valid (built : graph.Built) (valid : ∃ count, graph.validate = .ok count)
    (config : EngineConfig) (room : HasRoom (stateOf (optimize config graph))) :
    ∃ report after, optimize config graph = .ok report after ∧
      after.Built ∧ after.HasRoom ∧
      ((∀ id stage, graph.stage? id = some stage → stage.plan.IdsBelow) →
        ∀ id stage, after.stage? id = some stage → stage.plan.IdsBelow) ∧
      (∃ count, after.validate = .ok count) ∧
      after.size = graph.size + report.insertedStages.length ∧
      after.Acyclic ∧ after.Backed ∧
      ∀ id stage, after.stage? id = some stage → stage.plan.ReplicatesLoads := by
  obtain ⟨report, flagging, inserted, after, ran, optimized⟩ := exists_optimized built valid room
  have builtAfter := optimized.built_after built valid
  have validAfter := optimized.valid_after built valid
  obtain ⟨-, ⟨rank, ranked⟩, checked⟩ := validate_eq_ok_iff.mp validAfter
  rw [ran] at room
  refine ⟨report, after, ran, builtAfter, room,
    fun below id stage isStage => optimized.idsBelow_after below isStage, validAfter,
    optimized.size_after, ranked.acyclic, backed_of_valid checked, fun id stage isStage => ?_⟩
  obtain ⟨_, isStageToo, validPlan, -⟩ :=
    checkStage_eq_ok.mp (checked id (mem_stageIds.mpr ⟨stage, isStage⟩))
  obtain rfl := Option.some.inj (isStage.symm.trans isStageToo)
  exact ((builtAfter.ownIds id stage isStage).wellFormed validPlan).replicatesLoads

theorem optimize_keeps_valid_salesGraph :
    salesGraph.Built ∧ (∃ count, salesGraph.validate = .ok count) ∧
      HasRoom (stateOf (optimize repairing salesGraph)) ∧
      ∃ report after, optimize repairing salesGraph = .ok report after ∧ after.Built ∧
        (∃ count, after.validate = .ok count) ∧ after.Acyclic ∧ after.Backed ∧
        after.stageIds = [⟨0⟩, ⟨1⟩, ⟨2⟩] ∧ report.insertedStages.length = 1 := by
  obtain ⟨report, after, ran, builtAfter, -, -, validAfter, size, acyclic, backed, -⟩ :=
    optimize_keeps_valid built_salesGraph valid_salesGraph repairing hasRoom_optimize_salesGraph
  have ids : after.stageIds = [⟨0⟩, ⟨1⟩, ⟨2⟩] := by
    rw [← stageIds_optimize_salesGraph, ran]
    rfl
  have counted : 3 = 2 + report.insertedStages.length := by
    rwa [size_eq after, ids] at size
  exact ⟨built_salesGraph, valid_salesGraph, hasRoom_optimize_salesGraph, report, after, ran,
    builtAfter, validAfter, acyclic, backed, ids, by omega⟩

end StageGraph

end BatchFlow
