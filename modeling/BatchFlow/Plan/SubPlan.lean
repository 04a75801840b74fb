import BatchFlow.OrderedMap
import BatchFlow.Plan.Operator

/-!
# Plans of operators

The plan of a stage is a set of operators under identifiers.  An edge of the
plan is an entry in the inputs of the reading operator.  What is downstream of
a grouping operator runs in the reduce phase of the stage, everything else in
its map phase.
-/

namespace BatchFlow

/-- The operators of one stage, and the identifier of the next one added. -/
structure SubPlan where
  operatorMap : OrderedMap OpId Operator
  nextId : UInt64
deriving Inhabited

namespace SubPlan

/-- The plan without operators. -/
def empty : SubPlan :=
  ⟨∅, 0⟩

/-- Put an operator under its own identifier; a previous one is replaced. -/
def insert (plan : SubPlan) (operator : Operator) : SubPlan where
  operatorMap := plan.operatorMap.insert operator.id operator
  nextId := max plan.nextId (operator.id.value + 1)

/-- Add an operator under a fresh identifier, which is returned. -/
def add (plan : SubPlan) (operation : Operation) (inputs : List OpId) :
    OpId × SubPlan :=
  let id := OpId.mk plan.nextId
  (id, plan.insert ⟨id, operation, inputs⟩)

/-- The operator under an identifier. -/
def get? (plan : SubPlan) (id : OpId) : Option Operator :=
  plan.operatorMap.get? id

/-- Change the operator under an identifier, if there is one. -/
def modify (plan : SubPlan) (id : OpId) (change : Operator → Operator) : SubPlan :=
  { plan with operatorMap := plan.operatorMap.modify id change }

/-- The operators in the order of their identifiers. -/
def operators (plan : SubPlan) : List Operator :=
  plan.operatorMap.values

/-- The number of operators. -/
def size (plan : SubPlan) : Nat :=
  plan.operatorMap.size

/-- The operators that read `id`. -/
def consumers (plan : SubPlan) (id : OpId) : List OpId :=
  (plan.operators.filter fun operator => operator.inputs.contains id).map Operator.id

/-- The operators that nothing reads. -/
def leaves (plan : SubPlan) : List OpId :=
  let consumed := plan.operators.flatMap Operator.inputs
  plan.operatorMap.keys.filter fun id => !consumed.contains id

/-- The grouping operators. -/
def packages (plan : SubPlan) : List OpId :=
  (plan.operators.filter fun operator => operator.operation.isPackage).map Operator.id

/-- The joins. -/
def joins (plan : SubPlan) : List OpId :=
  (plan.operators.filter fun operator => operator.operation.isJoin).map Operator.id

/-- Whether the stage has a reduce phase. -/
def hasReducePhase (plan : SubPlan) : Bool :=
  plan.operators.any fun operator => operator.operation.isPackage

/-- The stages the plan loads from. -/
def stageInputs (plan : SubPlan) : OrderedSet StageId :=
  .ofList (plan.operators.filterMap fun operator => operator.operation.loadedStage?)

/-- The target of the first store. -/
def storeTarget? (plan : SubPlan) : Option String :=
  plan.operators.findSome? fun operator => operator.operation.target?

/-- The operators reached from a worklist along consumer edges, through
operators not seen before. -/
def reachedFrom (plan : SubPlan) (unseen : List OpId) : List OpId → List OpId
  | [] => []
  | next :: rest =>
      if next ∈ unseen then
        next :: reachedFrom plan (unseen.erase next) (plan.consumers next ++ rest)
      else reachedFrom plan unseen rest
termination_by worklist => (unseen.length, worklist.length)
decreasing_by
  · have positive := List.length_pos_of_mem ‹next ∈ unseen›
    exact .left _ _ (by rw [List.length_erase_of_mem ‹next ∈ unseen›]; omega)
  · exact .right _ (by simp)

/-- Every operator downstream of `id`; `id` itself only if it is on a cycle. -/
def downstreamOf (plan : SubPlan) (id : OpId) : OrderedSet OpId :=
  .ofList (plan.reachedFrom (plan.operators.map Operator.id) (plan.consumers id))

/-- The loads that a join reads in full in every task. -/
def broadcastLoads (plan : SubPlan) : OrderedSet OpId :=
  .ofList <| plan.operators.flatMap fun operator =>
    match operator.operation with
    | .join _ fragment =>
        (operator.inputs.zipIdx.filter fun (input, side) =>
          side != fragment.toNat
            && (plan.get? input).any fun source => source.operation.isLoad).map Prod.fst
    | _ => []

end SubPlan

end BatchFlow
