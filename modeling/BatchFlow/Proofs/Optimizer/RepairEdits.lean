import BatchFlow.Optimizer.Pipeline
import BatchFlow.Proofs.Engine.Concatenation
import BatchFlow.Proofs.Graph.Insertion

/-!
# The edits of join repair

Inserting a concatenate stage and repointing a load succeed when the stages they
name exist.  Carrying out a decision is one or both of these edits, and none of
them removes a stage.
-/

namespace BatchFlow

open JoinRepair Steps

namespace StageGraph

variable {graph current : StageGraph} {inserted : Inserted}

theorem stage?_modifyStage (graph : StageGraph) (id other : StageId) (change : Stage → Stage) :
    (graph.modifyStage id change).stage? other =
      if other = id then (graph.stage? id).map change else graph.stage? other :=
  OrderedMap.get?_modify ..

/-- The graph with a concatenate stage put on an edge. -/
def withConcatenate (current : StageGraph) (source join : StageId) : StageGraph where
  stageMap := current.stageMap.insert ⟨current.nextId⟩
    ⟨⟨current.nextId⟩, .concatenate, concatenatePlan source join, { outputFiles := .known 1 }⟩
  edges := ((current.edges.erase ⟨source, join⟩).insert ⟨source, ⟨current.nextId⟩⟩).insert
    ⟨⟨current.nextId⟩, join⟩
  nextId := current.nextId + 1

theorem stage?_withConcatenate (current : StageGraph) (source join id : StageId) :
    (current.withConcatenate source join).stage? id =
      if id = ⟨current.nextId⟩ then
        some ⟨⟨current.nextId⟩, .concatenate, concatenatePlan source join,
          { outputFiles := .known 1 }⟩
      else current.stage? id :=
  OrderedMap.get?_insert ..

theorem mem_edges_withConcatenate {source join : StageId} {edge : Edge} :
    edge ∈ (current.withConcatenate source join).edges.elements ↔
      edge = ⟨⟨current.nextId⟩, join⟩ ∨ edge = ⟨source, ⟨current.nextId⟩⟩ ∨
        edge ≠ ⟨source, join⟩ ∧ edge ∈ current.edges.elements := by
  rw [withConcatenate, OrderedSet.mem_insert, OrderedSet.mem_insert, OrderedSet.mem_erase]

theorem insertConcatenate_eq_ok {source join : StageId} {first second : Stage}
    (isEdge : ⟨source, join⟩ ∈ current.edges.elements)
    (foundSource : current.stage? source = some first)
    (foundJoin : current.stage? join = some second) (notSource : source ≠ ⟨current.nextId⟩)
    (notJoin : join ≠ ⟨current.nextId⟩) :
    insertConcatenate source join current =
      .ok ⟨current.nextId⟩ (current.withConcatenate source join) :=
  insertBetween_eq_ok isEdge ⟨first, foundSource⟩ ⟨second, foundJoin⟩ notSource notJoin ..

/-- The graph with the plan of a stage changed, and the edge from a source kept
only if the plan still loads from it. -/
def withPlan (current : StageGraph) (join source : StageId) (plan : SubPlan) : StageGraph where
  stageMap := current.stageMap.modify join fun reader => { reader with plan := plan }
  edges :=
    if plan.stageInputs.contains source then current.edges.insert ⟨source, join⟩
    else current.edges.erase ⟨source, join⟩
  nextId := current.nextId

theorem stage?_withPlan (current : StageGraph) (join source id : StageId) (plan : SubPlan) :
    (current.withPlan join source plan).stage? id =
      if id = join then (current.stage? join).map fun reader => { reader with plan := plan }
      else current.stage? id :=
  OrderedMap.get?_modify ..

theorem loadsStage_iff {plan : SubPlan} {source : StageId} :
    plan.stageInputs.contains source = true ↔ plan.LoadsStage source := by
  rw [SubPlan.stageInputs, OrderedSet.contains_iff, OrderedSet.mem_ofList, List.mem_filterMap]
  exact exists_congr fun operator => and_congr_right fun _ => Operation.loadedStage?_eq_some

theorem mem_edges_withPlan {join source : StageId} {plan : SubPlan} {edge : Edge}
    (different : edge ≠ ⟨source, join⟩) :
    edge ∈ (current.withPlan join source plan).edges.elements ↔ edge ∈ current.edges.elements := by
  rw [withPlan]
  dsimp only
  split
  · simp [OrderedSet.mem_insert, different]
  · simp [OrderedSet.mem_erase, different]

theorem repointLoad_eq_ok {join source concatenate : StageId} {load : OpId} {reader first : Stage}
    (foundJoin : current.stage? join = some reader) {operator : Operator}
    (foundLoad : reader.plan.get? load = some operator)
    (foundSource : current.stage? source = some first) (different : source ≠ join) :
    repointLoad join load source concatenate current =
      .ok ⟨⟩ (current.withPlan join source (reader.plan.modify load fun operator =>
        { operator with operation := .load (.stage concatenate) })) := by
  let plan := reader.plan.modify load fun operator =>
    { operator with operation := .load (.stage concatenate) }
  let edited := current.modifyStage join fun reader => { reader with plan := plan }
  have hasLoad : reader.plan.operatorMap.contains load = true :=
    SubPlan.contains_operatorMap.mpr ⟨operator, foundLoad⟩
  have atSource : edited.stage? source = some first := by
    rw [stage?_modifyStage, if_neg different, foundSource]
  have atJoin : edited.stage? join = some { reader with plan := plan } := by
    rw [stage?_modifyStage, if_pos rfl, foundJoin]
    rfl
  refine bind_eq_ok.mpr ⟨current, current, rfl, ?_⟩
  simp only [foundJoin, hasLoad, Bool.not_true, Bool.false_eq_true, if_false]
  refine bind_eq_ok.mpr ⟨⟨⟩, edited, rfl, ?_⟩
  cases stillLoads : plan.stageInputs.contains source with
  | true =>
      have connected : connect source join edited =
          .ok ⟨⟩ { edited with edges := edited.edges.insert ⟨source, join⟩ } :=
        connect_eq_ok.mpr ⟨⟨first, atSource⟩, ⟨_, atJoin⟩, different, rfl⟩
      simp only [plan] at stillLoads connected
      simp only [stillLoads, if_true, withPlan]
      exact connected
  | false =>
      simp only [plan] at stillLoads
      simp only [stillLoads, withPlan, Bool.false_eq_true, if_false]
      rfl

/-- The identifier after that of any stage is still a number of 64 bits. -/
def HasRoom (graph : StageGraph) : Prop :=
  ∀ id ∈ graph.stageIds, id.value.toNat + 1 < UInt64.size

/-- What remains of a decision once the concatenate stage is there. -/
def repointed (verdict : SideVerdict) (source : StageId) (files : UInt32)
    (concatenate : StageId) (inserted : Inserted) : GraphEdit (RepairState × Inserted) := do
  repointLoad verdict.stage verdict.load source concatenate
  return (.stageInserted source concatenate files, inserted)

section Apply

variable {verdict : SideVerdict} {source existing : StageId} {files : UInt32}

theorem apply_of_skip {reason : SkipReason} (decision : verdict.decision = .skip reason) :
    JoinRepair.apply inserted verdict = pure (.noOp reason, inserted) := by
  rw [JoinRepair.apply, decision]

theorem apply_of_inserted (decision : verdict.decision = .concatenate source files)
    (isInserted : inserted.lookup (source, verdict.stage) = some existing) :
    JoinRepair.apply inserted verdict = repointed verdict source files existing inserted := by
  rw [JoinRepair.apply, decision]
  simp only [isInserted]
  rfl

theorem apply_of_not_inserted (decision : verdict.decision = .concatenate source files)
    (notInserted : inserted.lookup (source, verdict.stage) = none) :
    JoinRepair.apply inserted verdict = insertConcatenate source verdict.stage >>= fun fresh =>
      repointed verdict source files fresh (((source, verdict.stage), fresh) :: inserted) := by
  rw [JoinRepair.apply, decision]
  simp only [notInserted]
  rfl

end Apply

section Grows

/-- An edit never removes a stage, even if it fails. -/
def Grows {α : Type} (edit : GraphEdit α) : Prop :=
  ∀ graph id, id ∈ graph.stageIds → id ∈ (stateOf (edit graph)).stageIds

theorem grows_bind_left {α β : Type} {first : GraphEdit α} {next : α → GraphEdit β}
    (growsNext : ∀ value, Grows (next value)) (graph : StageGraph) (id : StageId)
    (member : id ∈ (stateOf (first graph)).stageIds) :
    id ∈ (stateOf ((first >>= next) graph)).stageIds :=
  stateOf_bind (fun state => id ∈ state.stageIds) member
    fun value between => growsNext value between id

theorem Grows.bind {α β : Type} {first : GraphEdit α} {next : α → GraphEdit β}
    (grows : Grows first) (growsNext : ∀ value, Grows (next value)) : Grows (first >>= next) :=
  fun graph id member => grows_bind_left growsNext graph id (grows graph id member)

theorem Grows.pure {α : Type} (value : α) : Grows (pure value : GraphEdit α) :=
  fun _ _ member => member

theorem Grows.throw {α : Type} (error : PlanError) : Grows (throw error : GraphEdit α) :=
  fun _ _ member => member

theorem Grows.discard {α : Type} {edit : GraphEdit α} (grows : Grows edit) :
    Grows (discard edit) :=
  grows.bind fun _ => .pure _

theorem grows_connect (earlier later : StageId) : Grows (connect earlier later) := by
  intro graph id member
  rw [connect, get_bind_apply]
  cases graph.stageMap.contains earlier with
  | false => exact member
  | true =>
      cases graph.stageMap.contains later with
      | false => exact member
      | true =>
          by_cases same : earlier = later
          · simp only [same, if_true]
            exact member
          · simp only [same, if_false]
            exact member

theorem grows_disconnect (earlier later : StageId) : Grows (disconnect earlier later) :=
  fun _ _ member => member

theorem grows_addStage (kind : StageKind) (plan : SubPlan) (info : StageMeta) :
    Grows (addStage kind plan info) := by
  intro graph id member
  obtain ⟨stage, found⟩ := mem_stageIds.mp member
  refine mem_stageIds.mpr ?_
  show ∃ stage, (graph.stageMap.insert ⟨graph.nextId⟩ _).get? id = some stage
  rw [OrderedMap.get?_insert]
  split
  · exact ⟨_, rfl⟩
  · exact ⟨stage, found⟩

theorem grows_insertConcatenate (source join : StageId) :
    Grows (insertConcatenate source join) := by
  rw [insertConcatenate, insertBetween]
  refine (grows_disconnect source join).bind fun removed => ?_
  split
  · exact .throw _
  · refine (grows_addStage _ _ _).bind fun id => (grows_connect source id).bind fun _ => ?_
    exact (grows_connect id join).bind fun _ => .pure _

theorem mem_stageIds_modifyStage {stage id : StageId} {change : Stage → Stage}
    (member : id ∈ graph.stageIds) : id ∈ (graph.modifyStage stage change).stageIds := by
  obtain ⟨other, found⟩ := mem_stageIds.mp member
  refine mem_stageIds.mpr ?_
  rw [stage?_modifyStage]
  split
  case isTrue same =>
    rw [← same, found]
    exact ⟨_, rfl⟩
  case isFalse => exact ⟨other, found⟩

theorem grows_repointLoad (stage : StageId) (load : OpId) (source concatenate : StageId) :
    Grows (repointLoad stage load source concatenate) := by
  intro graph id member
  rw [repointLoad, get_bind_apply]
  cases found : graph.stage? stage with
  | none => exact member
  | some reader =>
      cases hasLoad : reader.plan.operatorMap.contains load with
      | false =>
          simp only [hasLoad]
          exact member
      | true =>
          simp only [hasLoad]
          refine stateOf_bind (fun state : StageGraph => id ∈ state.stageIds)
            (mem_stageIds_modifyStage member) fun _ between kept => ?_
          split
          · exact grows_connect source stage between id kept
          · exact (grows_disconnect source stage).discard between id kept

theorem grows_repointed (verdict : SideVerdict) (source : StageId) (files : UInt32)
    (concatenate : StageId) (inserted : Inserted) :
    Grows (repointed verdict source files concatenate inserted) :=
  (grows_repointLoad _ _ _ _).bind fun _ => .pure _

theorem grows_apply (inserted : Inserted) (verdict : SideVerdict) :
    Grows (JoinRepair.apply inserted verdict) := by
  cases decision : verdict.decision with
  | skip reason =>
      rw [apply_of_skip decision]
      exact .pure _
  | concatenate source files =>
      cases isInserted : inserted.lookup (source, verdict.stage) with
      | some existing =>
          rw [apply_of_inserted decision isInserted]
          exact grows_repointed _ _ _ _ _
      | none =>
          rw [apply_of_not_inserted decision isInserted]
          exact (grows_insertConcatenate _ _).bind fun fresh => grows_repointed _ _ _ _ _

theorem grows_repairSides (inserted : Inserted) (verdicts : List SideVerdict) :
    Grows (Pass.repairSides inserted verdicts) := by
  induction verdicts generalizing inserted with
  | nil => exact .pure _
  | cons verdict rest ih =>
      rw [Pass.repairSides]
      exact (grows_apply inserted verdict).bind fun applied =>
        (ih applied.2).bind fun _ => .pure _

end Grows

end StageGraph

end BatchFlow
