import BatchFlow.Proofs.Graph.Stages
import BatchFlow.Proofs.Steps

/-!
# Building graphs

Graphs are built from the empty one by adding, inserting and connecting stages.
As long as identifiers do not run out, every stage stands under its own one.
-/

namespace BatchFlow

open Steps

namespace StageGraph

variable {graph next : StageGraph} {earlier later id : StageId} {stage : Stage}

/-- An edge is added exactly between two different stages that exist. -/
theorem connect_eq_ok :
    connect earlier later graph = .ok ⟨⟩ next ↔
      (∃ stage, graph.stage? earlier = some stage) ∧ (∃ stage, graph.stage? later = some stage) ∧
        earlier ≠ later ∧ next = { graph with edges := graph.edges.insert ⟨earlier, later⟩ } := by
  rw [connect, get_bind_apply, ← contains_stageMap, ← contains_stageMap]
  cases graph.stageMap.contains earlier with
  | false =>
      refine ⟨fun failed => absurd failed throw_ne_ok, ?_⟩
      rintro ⟨noStage, -⟩
      exact absurd noStage Bool.false_ne_true
  | true =>
      cases graph.stageMap.contains later with
      | false =>
          refine ⟨fun failed => absurd failed throw_ne_ok, ?_⟩
          rintro ⟨-, noStage, -⟩
          exact absurd noStage Bool.false_ne_true
      | true =>
          by_cases same : earlier = later
          · simp only [same, if_true]
            refine ⟨fun failed => absurd failed throw_ne_ok, ?_⟩
            rintro ⟨-, -, different, -⟩
            exact absurd rfl different
          · simp only [same, if_false]
            refine ⟨fun connected => ⟨trivial, trivial, same, (set_eq_ok.mp connected).symm⟩, ?_⟩
            rintro ⟨-, -, -, rfl⟩
            rfl

/-- A connection that fails changes nothing. -/
theorem connect_eq_error {error : PlanError}
    (failed : connect earlier later graph = .error error next) : next = graph := by
  rw [connect, get_bind_apply] at failed
  cases hasEarlier : graph.stageMap.contains earlier with
  | false =>
      rw [hasEarlier] at failed
      cases failed
      rfl
  | true =>
      cases hasLater : graph.stageMap.contains later with
      | false =>
          rw [hasEarlier, hasLater] at failed
          cases failed
          rfl
      | true =>
          rw [hasEarlier, hasLater] at failed
          by_cases same : earlier = later
          · simp only [same, if_true] at failed
            cases failed
            rfl
          · simp only [same, if_false] at failed
            cases failed

/-- The graph with a stage under its own identifier. -/
def withStage (graph : StageGraph) (stage : Stage) (nextId : UInt64) : StageGraph :=
  { graph with stageMap := graph.stageMap.insert stage.id stage, nextId := nextId }

theorem stage?_withStage (graph : StageGraph) (stage : Stage) (nextId : UInt64) (id : StageId) :
    (graph.withStage stage nextId).stage? id =
      if id = stage.id then some stage else graph.stage? id :=
  OrderedMap.get?_insert ..

theorem exists_stage?_withStage (stage : Stage) (nextId : UInt64)
    (exist : ∃ other, graph.stage? id = some other) :
    ∃ other, (graph.withStage stage nextId).stage? id = some other := by
  rw [stage?_withStage]
  split
  · exact ⟨stage, rfl⟩
  · exact exist

/-- A stage is inserted exactly if its identifier is free. -/
theorem insertStage_apply (stage : Stage) (graph : StageGraph) :
    insertStage stage graph =
      if graph.stageMap.contains stage.id then .error (.duplicateStage stage.id) graph
      else .ok ⟨⟩ (graph.withStage stage (max graph.nextId (stage.id.value + 1))) := by
  rw [insertStage, get_bind_apply]
  cases graph.stageMap.contains stage.id <;> rfl

theorem insertStage_eq_ok :
    insertStage stage graph = .ok ⟨⟩ next ↔ graph.stage? stage.id = none ∧
      next = graph.withStage stage (max graph.nextId (stage.id.value + 1)) := by
  rw [insertStage_apply, OrderedMap.contains]
  change (if (graph.stage? stage.id).isSome = true then _ else _) = _ ↔ _
  cases graph.stage? stage.id with
  | none => simp [eq_comm]
  | some other => simp

theorem ne_nextId_of_below
    (below : ∀ id other, graph.stage? id = some other → id.value < graph.nextId)
    (isStage : graph.stage? id = some stage) : id ≠ ⟨graph.nextId⟩ := by
  rintro rfl
  exact UInt64.lt_irrefl _ (below _ stage isStage)

theorem lt_add_one {id : UInt64} (room : id.toNat + 1 < UInt64.size) : id < id + 1 := by
  rw [UInt64.lt_iff_toNat_lt, UInt64.toNat_add, UInt64.toNat_one, Nat.mod_eq_of_lt room]
  exact Nat.lt_succ_self _

/-- The next identifier after an insertion is above both the new stage and the old ones. -/
theorem lt_max_add_one {id : UInt64} (nextId : UInt64) (room : id.toNat + 1 < UInt64.size) :
    id < max nextId (id + 1) ∧ nextId ≤ max nextId (id + 1) := by
  show id < (if nextId ≤ id + 1 then id + 1 else nextId) ∧
    nextId ≤ if nextId ≤ id + 1 then id + 1 else nextId
  split
  case isTrue below => exact ⟨lt_add_one room, below⟩
  case isFalse above =>
    exact ⟨UInt64.lt_trans (lt_add_one room) (UInt64.not_le.mp above), UInt64.le_refl _⟩

/-- What adding, inserting and connecting stages ensures, whatever the plans of the stages. -/
structure Consistent (graph : StageGraph) : Prop where
  ownId : ∀ id stage, graph.stage? id = some stage → stage.id = id
  below : ∀ id stage, graph.stage? id = some stage → id.value < graph.nextId
  edges : ∀ edge ∈ graph.edges.elements, edge.earlier ≠ edge.later ∧
    (∃ stage, graph.stage? edge.earlier = some stage) ∧
      ∃ stage, graph.stage? edge.later = some stage

namespace Consistent

theorem empty : StageGraph.empty.Consistent where
  ownId _ _ found := nomatch found
  below _ _ found := nomatch found
  edges _ member := nomatch member

variable (consistent : graph.Consistent)

include consistent

/-- The identifier of the next stage is free. -/
theorem ne_nextId (exist : ∃ other, graph.stage? id = some other) : id ≠ ⟨graph.nextId⟩ := by
  obtain ⟨other, isStage⟩ := exist
  exact ne_nextId_of_below consistent.below isStage

theorem connect (connected : connect earlier later graph = .ok ⟨⟩ next) : next.Consistent := by
  obtain ⟨isEarlier, isLater, different, rfl⟩ := connect_eq_ok.mp connected
  refine { consistent with edges := fun edge member => ?_ }
  rcases OrderedSet.mem_insert.mp member with rfl | old
  · exact ⟨different, isEarlier, isLater⟩
  · exact consistent.edges edge old

/-- Putting a stage under its own identifier, below the next one from then on. -/
theorem withStage {nextId : UInt64} (below : stage.id.value < nextId)
    (grows : graph.nextId ≤ nextId) : (graph.withStage stage nextId).Consistent where
  ownId id other found := by
    rw [stage?_withStage] at found
    split at found
    case isTrue same => rw [same, Option.some.inj found]
    case isFalse => exact consistent.ownId id other found
  below id other found := by
    rw [stage?_withStage] at found
    split at found
    case isTrue same => exact same ▸ below
    case isFalse => exact UInt64.lt_of_lt_of_le (consistent.below id other found) grows
  edges edge member := by
    obtain ⟨different, isEarlier, isLater⟩ := consistent.edges edge member
    exact ⟨different, exists_stage?_withStage _ _ isEarlier, exists_stage?_withStage _ _ isLater⟩

/-- If the operators of all plans have their own identifiers, too, the graph is built. -/
theorem built (ownIds : ∀ id stage, graph.stage? id = some stage → stage.plan.OwnIds) :
    graph.Built where
  ownId := consistent.ownId
  ownIds := ownIds
  below := consistent.below
  edges := consistent.edges

end Consistent

namespace Built

theorem consistent (built : graph.Built) : graph.Consistent where
  ownId := built.ownId
  below := built.below
  edges := built.edges

theorem empty : StageGraph.empty.Built :=
  Consistent.empty.built fun _ _ found => nomatch found

theorem connect (built : graph.Built) (connected : connect earlier later graph = .ok ⟨⟩ next) :
    next.Built := by
  refine (built.consistent.connect connected).built ?_
  obtain ⟨-, -, -, rfl⟩ := connect_eq_ok.mp connected
  exact built.ownIds

/-- Putting a stage under its own identifier, below the next one from then on. -/
theorem withStage (built : graph.Built) (ownIds : stage.plan.OwnIds) {nextId : UInt64}
    (below : stage.id.value < nextId) (grows : graph.nextId ≤ nextId) :
    (graph.withStage stage nextId).Built := by
  refine (built.consistent.withStage below grows).built fun id other found => ?_
  rw [stage?_withStage] at found
  split at found
  case isTrue => exact Option.some.inj found ▸ ownIds
  case isFalse => exact built.ownIds id other found

theorem addStage (built : graph.Built) (kind : StageKind) {plan : SubPlan} (info : StageMeta)
    (ownIds : plan.OwnIds) (room : graph.nextId.toNat + 1 < UInt64.size)
    (added : addStage kind plan info graph = .ok id next) : next.Built := by
  cases added
  let stage : Stage := ⟨⟨graph.nextId⟩, kind, plan, info⟩
  have ownIdsToo : stage.plan.OwnIds := ownIds
  exact built.withStage ownIdsToo (lt_add_one room) (UInt64.le_of_lt (lt_add_one room))

theorem insertStage (built : graph.Built) (ownIds : stage.plan.OwnIds)
    (room : stage.id.value.toNat + 1 < UInt64.size)
    (inserted : insertStage stage graph = .ok ⟨⟩ next) : next.Built := by
  obtain ⟨-, rfl⟩ := insertStage_eq_ok.mp inserted
  obtain ⟨below, grows⟩ := lt_max_add_one graph.nextId room
  exact built.withStage ownIds below grows

end Built

end StageGraph

end BatchFlow
