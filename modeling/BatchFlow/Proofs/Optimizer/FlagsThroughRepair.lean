import BatchFlow.Proofs.Optimizer.AccumulationPass

/-!
# Flags set before join repair

Join repair reads no flag and sets none, and it moves no grouping operator.  So it does the
same on a graph whose grouping operators have been flagged, and what it leaves is the graph
it would have left otherwise, flagged in the same way.
-/

namespace BatchFlow

open JoinRepair Results Steps

namespace SubPlan

variable {plan : SubPlan} {packages other : List OpId}

theorem flagPackages_congr (same : ∀ id, id ∈ packages ↔ id ∈ other) :
    plan.flagPackages packages = plan.flagPackages other := by
  refine ext_get? ?_ fun id => ?_
  · rw [nextId_flagPackages, nextId_flagPackages]
  · rw [get?_flagPackages, get?_flagPackages]
    simp only [same]

/-- Operators that tests and changes of flags do not tell apart are found as before. -/
theorem bind_get?_flagPackages {α : Type} (id : OpId) {view : Operator → Option α}
    (same : ∀ operator, view (operator.relabel (Operation.withFlag true)) = view operator) :
    ((plan.flagPackages packages).get? id).bind view = (plan.get? id).bind view := by
  rw [get?_flagPackages]
  split
  case isFalse => rfl
  case isTrue => cases plan.get? id <;> simp [same]

theorem contains_flagPackages (id : OpId) :
    (plan.flagPackages packages).operatorMap.contains id = plan.operatorMap.contains id := by
  rw [Bool.eq_iff_iff, contains_operatorMap, contains_operatorMap, get?_flagPackages]
  split <;> simp

theorem joins_flagPackages : (plan.flagPackages packages).joins = plan.joins := by
  have joins_withFlags (plan : SubPlan) : (plan.withFlags false).joins = plan.joins :=
    plan.map_id_filter_relabel _ _ fun ⟨_, operation, _⟩ => by cases operation <;> rfl
  rw [← joins_withFlags, withFlags_flagPackages, joins_withFlags]

theorem contains_stageInputs_flagPackages (source : StageId) :
    (plan.flagPackages packages).stageInputs.contains source =
      plan.stageInputs.contains source := by
  rw [Bool.eq_iff_iff, StageGraph.loadsStage_iff, StageGraph.loadsStage_iff]
  exact exists_load_flagPackages

/-- An operator that is made a load loses its flag if it had one, so flags may be set before
or after it. -/
theorem modify_flagPackages (id : OpId) (source : LoadSource) :
    (plan.flagPackages packages).modify id
        (fun operator => { operator with operation := .load source }) =
      (plan.modify id fun operator =>
        { operator with operation := .load source }).flagPackages packages := by
  refine ext_get? ?_ fun key => ?_
  · simp only [modify, nextId_flagPackages]
  · simp only [get?_modify, get?_flagPackages]
    by_cases atLoad : key = id
    · subst atLoad
      cases plan.get? key <;> by_cases named : key ∈ packages <;>
        simp [named, Operator.relabel, Operation.withFlag]
    · simp only [atLoad, if_false]

theorem flagPackages_concatenatePlan (source join : StageId) (packages : List OpId) :
    (concatenatePlan source join).flagPackages packages = concatenatePlan source join := by
  refine ext_get? (nextId_flagPackages packages) fun id => ?_
  rw [get?_flagPackages]
  split
  case isFalse => rfl
  case isTrue =>
    cases found : (concatenatePlan source join).get? id with
    | none => rfl
    | some operator =>
        have member := mem_operators.mpr ⟨id, found⟩
        rw [operators_concatenatePlan, List.mem_pair] at member
        rcases member with rfl | rfl <;> rfl

end SubPlan

namespace Stage

/-- A stage with some of its grouping operators flagged. -/
def flag (packages : StageId → List OpId) (stage : Stage) : Stage :=
  { stage with plan := stage.plan.flagPackages (packages stage.id) }

variable (packages : StageId → List OpId) (stage : Stage)

@[simp]
theorem id_flag : (stage.flag packages).id = stage.id :=
  rfl

@[simp]
theorem kind_flag : (stage.flag packages).kind = stage.kind :=
  rfl

@[simp]
theorem plan_flag : (stage.flag packages).plan = stage.plan.flagPackages (packages stage.id) :=
  rfl

end Stage

namespace StageGraph

variable {graph : StageGraph} {packages : StageId → List OpId}

/-- The graph with some grouping operators of its stages flagged. -/
def flagStages (packages : StageId → List OpId) (graph : StageGraph) : StageGraph :=
  { graph with stageMap := graph.stageMap.mapValues (Stage.flag packages) }

theorem stage?_flagStages (packages : StageId → List OpId) (graph : StageGraph) (id : StageId) :
    (graph.flagStages packages).stage? id = (graph.stage? id).map (Stage.flag packages) :=
  OrderedMap.get?_mapValues ..

theorem contains_flagStages (packages : StageId → List OpId) (graph : StageGraph) (id : StageId) :
    (graph.flagStages packages).stageMap.contains id = graph.stageMap.contains id := by
  rw [Bool.eq_iff_iff, contains_stageMap, contains_stageMap, stage?_flagStages]
  simp

theorem flagged_flagStages (packages : StageId → List OpId) (graph : StageGraph) :
    graph.Flagged (graph.flagStages packages) where
  stages id := by
    rw [stage?_flagStages]
    cases graph.stage? id with
    | none => exact ⟨[], rfl⟩
    | some stage => exact ⟨packages stage.id, rfl⟩
  edges := rfl
  nextId := rfl

theorem flagStages_congr {other : StageId → List OpId}
    (same : ∀ id stage, graph.stage? id = some stage → stage.flag packages = stage.flag other) :
    graph.flagStages packages = graph.flagStages other := by
  have sameStages : graph.stageMap.mapValues (Stage.flag packages) =
      graph.stageMap.mapValues (Stage.flag other) := by
    refine OrderedMap.ext_get? fun id => ?_
    rw [OrderedMap.get?_mapValues, OrderedMap.get?_mapValues]
    cases found : graph.stageMap.get? id with
    | none => rfl
    | some stage => rw [Option.map_some, Option.map_some, same id stage found]
  rw [flagStages, flagStages, sameStages]

section Decisions

variable {config : EngineConfig} {stage : Stage}

theorem decide_flagStages (named : List OpId) (plan : SubPlan) (load : OpId) :
    JoinRepair.decide (graph.flagStages packages) (plan.flagPackages named) load config =
      JoinRepair.decide graph plan load config := by
  have sameSource (operator : Operator) :
      (operator.relabel (Operation.withFlag true)).operation.loadedStage? =
        operator.operation.loadedStage? := by
    obtain ⟨_, operation, _⟩ := operator
    cases operation <;> rfl
  rw [JoinRepair.decide, JoinRepair.decide, SubPlan.bind_get?_flagPackages load sameSource]
  simp only [stage?_flagStages]
  cases (plan.get? load).bind fun operator => operator.operation.loadedStage? with
  | none => rfl
  | some source =>
      dsimp only
      cases graph.stage? source <;> rfl

theorem joinVerdicts_flagStages :
    joinVerdicts (graph.flagStages packages) config (stage.flag packages) =
      joinVerdicts graph config stage := by
  funext join
  simp only [joinVerdicts, Stage.id_flag, Stage.plan_flag, decide_flagStages,
    SubPlan.get?_flagPackages]
  cases stage.plan.get? join with
  | none => by_cases named : join ∈ packages stage.id <;> simp [named]
  | some operator =>
      obtain ⟨id, operation, inputs⟩ := operator
      by_cases named : join ∈ packages stage.id
      · simp only [named, if_true, Option.map_some, Operator.relabel]
        cases operation <;> rfl
      · simp only [named, if_false]

/-- Join repair decides the same about a stage of the flagged graph, if the stage passes its
check there. -/
theorem stageVerdicts_flagStages {verdicts : List SideVerdict}
    (checked : (graph.flagStages packages).checkStage stage.id = .ok ())
    (decided : stageVerdicts graph config stage = .ok verdicts) :
    stageVerdicts (graph.flagStages packages) config (stage.flag packages) = .ok verdicts := by
  rw [stageVerdicts, Stage.kind_flag, Stage.plan_flag, SubPlan.joins_flagPackages, Stage.id_flag,
    checked, joinVerdicts_flagStages]
  rw [stageVerdicts] at decided
  split at decided
  case h_1 => exact decided
  case h_2 =>
    split at decided
    case isTrue noJoin => exact (if_pos noJoin).trans decided
    case isFalse someJoin =>
      obtain ⟨⟨⟩, -, rfl⟩ := map_eq_ok.mp decided
      exact if_neg someJoin

end Decisions

section Edits

theorem modifyStage_flagStages {id : StageId} {change other : Stage → Stage}
    (same : ∀ stage, graph.stage? id = some stage →
      other (stage.flag packages) = (change stage).flag packages) :
    (graph.flagStages packages).modifyStage id other =
      (graph.modifyStage id change).flagStages packages := by
  have sameStages : (graph.stageMap.mapValues (Stage.flag packages)).modify id other =
      (graph.stageMap.modify id change).mapValues (Stage.flag packages) := by
    refine OrderedMap.ext_get? fun key => ?_
    simp only [OrderedMap.get?_modify, OrderedMap.get?_mapValues]
    split
    case isFalse => rfl
    case isTrue =>
      cases found : graph.stageMap.get? id with
      | none => rfl
      | some stage => simp only [Option.map_some, same stage found]
  rw [modifyStage, flagStages, sameStages]
  rfl

variable (packages)

theorem respects_connect (earlier later : StageId) :
    Respects (flagStages packages) (connect earlier later) := by
  intro graph
  simp only [connect, get_bind_apply, contains_flagStages]
  cases graph.stageMap.contains earlier with
  | false => rfl
  | true =>
      cases graph.stageMap.contains later with
      | false => rfl
      | true => by_cases same : earlier = later <;> simp only [same, if_true, if_false] <;> rfl

theorem respects_disconnect (earlier later : StageId) :
    Respects (flagStages packages) (disconnect earlier later) :=
  fun _ => rfl

theorem respects_addStage (kind : StageKind) {plan : SubPlan} (info : StageMeta)
    (plain : ∀ packages, plan.flagPackages packages = plan) :
    Respects (flagStages packages) (addStage kind plan info) := by
  intro graph
  let stage : Stage := ⟨⟨graph.nextId⟩, kind, plan, info⟩
  have isPlain : stage.flag packages = stage := by rw [Stage.flag, plain]
  have sameStages : (graph.stageMap.mapValues (Stage.flag packages)).insert stage.id stage =
      (graph.stageMap.insert stage.id stage).mapValues (Stage.flag packages) := by
    refine OrderedMap.ext_get? fun key => ?_
    simp only [OrderedMap.get?_insert, OrderedMap.get?_mapValues]
    split
    case isTrue => rw [Option.map_some, isPlain]
    case isFalse => rfl
  exact congrArg (fun stages => EStateM.Result.ok stage.id
    { graph with stageMap := stages, nextId := graph.nextId + 1 }) sameStages

theorem respects_insertConcatenate (source join : StageId) :
    Respects (flagStages packages) (insertConcatenate source join) := by
  rw [insertConcatenate, insertBetween]
  refine (respects_disconnect packages source join).bind fun removed => ?_
  split
  · exact .throw _
  · have plain := SubPlan.flagPackages_concatenatePlan source join
    refine (respects_addStage packages _ _ plain).bind fun id => ?_
    refine (respects_connect packages source id).bind fun _ => ?_
    exact (respects_connect packages id join).bind fun _ => .pure _

theorem respects_repointLoad (stage : StageId) (load : OpId) (source concatenate : StageId) :
    Respects (flagStages packages) (repointLoad stage load source concatenate) := by
  intro graph
  rw [repointLoad, get_bind_apply, get_bind_apply, stage?_flagStages]
  cases found : graph.stage? stage with
  | none => rfl
  | some reader =>
      simp only [Option.map_some, Stage.plan_flag, SubPlan.contains_flagPackages,
        SubPlan.modify_flagPackages, SubPlan.contains_stageInputs_flagPackages]
      cases reader.plan.operatorMap.contains load with
      | false => rfl
      | true =>
          let plan := reader.plan.modify load fun operator =>
            { operator with operation := .load (.stage concatenate) }
          have sameGraph : (graph.flagStages packages).modifyStage stage (fun other =>
                { other with plan := plan.flagPackages (packages reader.id) }) =
              (graph.modifyStage stage fun other =>
                { other with plan := plan }).flagStages packages := by
            refine modifyStage_flagStages fun other foundToo => ?_
            obtain rfl := Option.some.inj (found.symm.trans foundToo)
            rfl
          simp only [Bool.not_true, Bool.false_eq_true, if_false]
          have respectsRest : Respects (flagStages packages)
              (if plan.stageInputs.contains source then connect source stage
                else discard (disconnect source stage)) := by
            split
            · exact respects_connect packages source stage
            · exact (respects_disconnect packages source stage).discard
          exact (congrArg _ sameGraph).trans (respectsRest _)

theorem respects_apply (inserted : Inserted) (verdict : SideVerdict) :
    Respects (flagStages packages) (JoinRepair.apply inserted verdict) := by
  have respects_repointed (source : StageId) (files : UInt32) (concatenate : StageId)
      (inserted : Inserted) :
      Respects (flagStages packages) (repointed verdict source files concatenate inserted) :=
    (respects_repointLoad packages _ _ _ _).bind fun _ => .pure _
  cases decision : verdict.decision with
  | skip reason =>
      rw [apply_of_skip decision]
      exact .pure _
  | concatenate source files =>
      cases isInserted : inserted.lookup (source, verdict.stage) with
      | some existing =>
          rw [apply_of_inserted decision isInserted]
          exact respects_repointed _ _ _ _
      | none =>
          rw [apply_of_not_inserted decision isInserted]
          exact (respects_insertConcatenate packages _ _).bind fun _ => respects_repointed _ _ _ _

theorem respects_repairSides (inserted : Inserted) (verdicts : List SideVerdict) :
    Respects (flagStages packages) (Pass.repairSides inserted verdicts) := by
  induction verdicts generalizing inserted with
  | nil => exact .pure _
  | cons verdict rest ih =>
      exact (respects_apply packages inserted verdict).bind fun applied =>
        (ih applied.2).bind fun _ => .pure _

end Edits

theorem stagesInOrder_flagStages {stages : List Stage}
    (inOrder : graph.stagesInOrder = .ok stages) :
    (graph.flagStages packages).stagesInOrder = .ok (stages.map (Stage.flag packages)) := by
  obtain ⟨order, ordered, required⟩ := bind_eq_ok.mp inOrder
  have orderedToo : (graph.flagStages packages).order = .ok order := by
    rw [(flagged_flagStages packages graph).restaged.order_eq, ordered]
  refine bind_eq_ok.mpr ⟨order, orderedToo, mapM_eq_ok.mpr ?_⟩
  refine List.forall₂_map_right_iff.mpr ((mapM_eq_ok.mp required).imp fun id stage found => ?_)
  rw [require_eq_ok, stage?_flagStages, require_eq_ok.mp found]
  rfl

/-- Join repair does the same on a valid graph whether operators are flagged before or after. -/
theorem respects_joinRepair (built : graph.Built) (valid : ∃ count, graph.validate = .ok count)
    (packages : StageId → List OpId) (config : EngineConfig) :
    Pass.joinRepair.run config (graph.flagStages packages) =
      mapState (flagStages packages) (Pass.joinRepair.run config graph) := by
  obtain ⟨stages, inOrder, mem_stages⟩ := exists_stagesInOrder built (exists_order_of_valid valid)
  obtain ⟨verdicts, decided⟩ :
      ∃ verdicts, stages.mapM (stageVerdicts graph config) = .ok verdicts :=
    exists_mapM_iff.mpr fun stage member =>
      exists_stageVerdicts ((mem_stages stage).mp member) (not_malformed_of_valid valid stage.id)
  have decidedToo : (stages.map (Stage.flag packages)).mapM
      (stageVerdicts (graph.flagStages packages) config) = .ok verdicts := by
    rw [mapM_eq_ok, List.forall₂_map_left_iff]
    refine (forall₂_and_mem (mapM_eq_ok.mp decided)).imp ?_
    rintro stage ofStage ⟨decidedStage, member, -⟩
    have isChecked := checkStage_of_valid valid ((mem_stages stage).mp member)
    have restaged := (flagged_flagStages packages graph).restaged
    exact stageVerdicts_flagStages (restaged.checkStage_eq_ok built isChecked) decidedStage
  rw [run_joinRepair inOrder decided, run_joinRepair (stagesInOrder_flagStages inOrder) decidedToo,
    List.length_map]
  exact ((respects_repairSides packages [] verdicts.flatten).bind fun _ => .pure _) graph

end StageGraph

end BatchFlow
