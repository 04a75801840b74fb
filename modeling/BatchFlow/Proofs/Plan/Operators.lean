import BatchFlow.Engine.Task
import BatchFlow.Proofs.Lookup

/-!
# The operators of a plan

In a plan built by insertion every operator stands under its own identifier.
The lists of operators, consumers and grouping operators are then described by
lookups in the plan.
-/

namespace BatchFlow

theorem Operation.isLoad_iff {operation : Operation} :
    operation.isLoad = true ↔ ∃ source, operation = .load source := by
  cases operation <;> simp [isLoad]

/-- The dataset a load reads from. -/
def Operation.loadedDataset? : Operation → Option String
  | .load (.dataset path) => some path
  | _ => none

theorem Operation.loadedDataset?_eq_some {operation : Operation} {path : String} :
    operation.loadedDataset? = some path ↔ operation = .load (.dataset path) := by
  cases operation with
  | load origin => cases origin <;> simp [loadedDataset?]
  | _ => simp [loadedDataset?]

theorem Operation.loadedStage?_eq_some {operation : Operation} {source : StageId} :
    operation.loadedStage? = some source ↔ operation = .load (.stage source) := by
  cases operation with
  | load origin => cases origin <;> simp [loadedStage?]
  | _ => simp [loadedStage?]

theorem Operation.target?_eq_some {operation : Operation} {target : String} :
    operation.target? = some target ↔ operation = .store target := by
  cases operation <;> simp [target?]

namespace SubPlan

/-- Every operator stands under its own identifier. -/
def OwnIds (plan : SubPlan) : Prop :=
  ∀ id operator, plan.get? id = some operator → operator.id = id

/-- `consumer` has `id` among its inputs. -/
def Feeds (plan : SubPlan) (id consumer : OpId) : Prop :=
  ∃ operator, plan.get? consumer = some operator ∧ id ∈ operator.inputs

theorem mem_operators {plan : SubPlan} {operator : Operator} :
    operator ∈ plan.operators ↔ ∃ id, plan.get? id = some operator :=
  OrderedMap.mem_values_iff

theorem contains_operatorMap {plan : SubPlan} {id : OpId} :
    plan.operatorMap.contains id = true ↔ ∃ operator, plan.get? id = some operator :=
  OrderedMap.contains_iff

theorem ext_get? {first second : SubPlan} (sameNext : first.nextId = second.nextId)
    (same : ∀ id, first.get? id = second.get? id) : first = second := by
  have sameMap : first.operatorMap = second.operatorMap := OrderedMap.ext_get? same
  cases first
  cases second
  simp_all

theorem get?_modify (plan : SubPlan) (id other : OpId) (change : Operator → Operator) :
    (plan.modify id change).get? other =
      if other = id then (plan.get? id).map change else plan.get? other :=
  OrderedMap.get?_modify ..

namespace OwnIds

variable {plan : SubPlan}

theorem empty : SubPlan.empty.OwnIds := fun _ _ found => nomatch found

theorem insert (ownIds : plan.OwnIds) (operator : Operator) : (plan.insert operator).OwnIds := by
  intro id other found
  rw [get?, SubPlan.insert, OrderedMap.get?_insert] at found
  split at found
  case isTrue same => rw [← Option.some.inj found, same]
  case isFalse => exact ownIds id other found

theorem get?_id (ownIds : plan.OwnIds) {operator : Operator}
    (member : operator ∈ plan.operators) : plan.get? operator.id = some operator := by
  obtain ⟨id, found⟩ := mem_operators.mp member
  rw [ownIds id operator found, found]

theorem mem_map_id_filter (ownIds : plan.OwnIds) {test : Operator → Bool} {id : OpId} :
    id ∈ (plan.operators.filter test).map Operator.id ↔
      ∃ operator, plan.get? id = some operator ∧ test operator = true := by
  simp only [List.mem_map, List.mem_filter]
  constructor
  · rintro ⟨operator, ⟨member, passes⟩, rfl⟩
    exact ⟨operator, ownIds.get?_id member, passes⟩
  · rintro ⟨operator, found, passes⟩
    exact ⟨operator, ⟨mem_operators.mpr ⟨id, found⟩, passes⟩, ownIds id operator found⟩

theorem mem_consumers (ownIds : plan.OwnIds) {id consumer : OpId} :
    consumer ∈ plan.consumers id ↔ plan.Feeds id consumer := by
  rw [consumers, ownIds.mem_map_id_filter]
  simp [Feeds]

theorem mem_packages (ownIds : plan.OwnIds) {id : OpId} :
    id ∈ plan.packages ↔
      ∃ operator, plan.get? id = some operator ∧ operator.operation.isPackage = true :=
  ownIds.mem_map_id_filter

theorem map_id_operators (ownIds : plan.OwnIds) :
    plan.operators.map Operator.id = plan.operatorMap.keys := by
  rw [operators, OrderedMap.values, List.map_map, OrderedMap.keys]
  refine List.map_congr_left fun entry member => ?_
  exact ownIds entry.1 entry.2 (OrderedMap.get?_eq_some_iff.mpr member)

theorem nodup_ids (ownIds : plan.OwnIds) : (plan.operators.map Operator.id).Nodup := by
  rw [ownIds.map_id_operators]
  exact plan.operatorMap.nodup_keys

theorem nodup_operators (ownIds : plan.OwnIds) : plan.operators.Nodup :=
  ownIds.nodup_ids.of_map

theorem nodup_map_id_filter (ownIds : plan.OwnIds) (test : Operator → Bool) :
    ((plan.operators.filter test).map Operator.id).Nodup :=
  ownIds.nodup_ids.sublist (List.filter_sublist.map Operator.id)

theorem nodup_packages (ownIds : plan.OwnIds) : plan.packages.Nodup :=
  ownIds.nodup_map_id_filter _

theorem mem_ids (ownIds : plan.OwnIds) {id : OpId} :
    id ∈ plan.operators.map Operator.id ↔ ∃ operator, plan.get? id = some operator := by
  rw [ownIds.map_id_operators]
  exact OrderedMap.mem_keys_iff

end OwnIds

/-- A grouping operator feeds only projections when something reads it and
everything that reads it is a projection. -/
theorem OwnIds.feedsOnlyProjections_iff {plan : SubPlan} (ownIds : plan.OwnIds) {id : OpId} :
    plan.feedsOnlyProjections id = true ↔
      (∃ consumer, plan.Feeds id consumer) ∧
        ∀ consumer operator, plan.get? consumer = some operator → id ∈ operator.inputs →
          operator.operation.isForEach = true := by
  have someConsumer : (!(plan.consumers id).isEmpty) = true ↔
      ∃ consumer, plan.Feeds id consumer := by
    rw [Bool.not_eq_true', List.isEmpty_eq_false_iff_exists_mem]
    exact exists_congr fun consumer => ownIds.mem_consumers
  rw [feedsOnlyProjections, Bool.and_eq_true, someConsumer, List.all_eq_true]
  refine and_congr_right fun _ => ?_
  constructor
  · intro projections consumer operator found reads
    simpa [found] using projections consumer (ownIds.mem_consumers.mpr ⟨operator, found, reads⟩)
  · intro projections consumer member
    obtain ⟨operator, found, reads⟩ := ownIds.mem_consumers.mp member
    simpa [found] using projections consumer operator found reads

end SubPlan

end BatchFlow
