import BatchFlow.Plan.Validity
import BatchFlow.Proofs.Plan.Relabeling
import BatchFlow.Proofs.Results

/-!
# Well-formed plans as a property

The check of a plan succeeds exactly when each operator has the inputs its
operation takes and the operators have an order.  Well-formedness does not
depend on what operators do beyond the number and the kind of their inputs.
-/

namespace BatchFlow

open Results

/-- The input an operator takes its rows from: the fragment side of a join, else
the only input. -/
def Operator.mainInput? (operator : Operator) : Option OpId :=
  match operator.operation with
  | .join _ fragment => operator.inputs[fragment.toNat]?
  | _ => operator.inputs.head?

theorem Operator.mainInput?_mem {operator : Operator} {input : OpId}
    (main : operator.mainInput? = some input) : input ∈ operator.inputs := by
  rw [mainInput?] at main
  split at main
  · exact List.mem_of_getElem? main
  · exact List.mem_of_mem_head? main

namespace SubPlan

variable {plan : SubPlan}

/-- What the check of a plan ensures about each of its operators. -/
structure WellFormedOperator (plan : SubPlan) (operator : Operator) : Prop where
  inputsExist : ∀ input ∈ operator.inputs, ∃ source, plan.get? input = some source
  inputCount : ∀ count, inputCount? operator.operation = some count →
    operator.inputs.length = count
  joinSides : inputCount? operator.operation = none → 2 ≤ operator.inputs.length
  keyCount : ∀ keys fragment, operator.operation = .join keys fragment →
    keys.length = operator.inputs.length
  fragmentSide : ∀ keys fragment, operator.operation = .join keys fragment →
    fragment.toNat < operator.inputs.length
  replicatedSides : ∀ keys fragment, operator.operation = .join keys fragment →
    ∀ side input, operator.inputs[side]? = some input → side ≠ fragment.toNat →
      ∃ source, plan.get? input = some source ∧ source.operation.isLoad = true

/-- A plan that passes its check, with every operator under its own identifier. -/
structure WellFormed (plan : SubPlan) : Prop where
  ownIds : plan.OwnIds
  operators : ∀ id operator, plan.get? id = some operator → plan.WellFormedOperator operator
  ordered : ∃ order, plan.topologicalOrder = .ok order

theorem wellFormedOperator_of_operatorFault? {operator : Operator}
    (none : plan.operatorFault? operator = none) : plan.WellFormedOperator operator := by
  rw [operatorFault?, Option.orElse_eq_none, Option.orElse_eq_none] at none
  obtain ⟨noneMissing, countRight, joinRight⟩ := none
  have inputsExist : ∀ input ∈ operator.inputs, ∃ source, plan.get? input = some source := by
    intro input reads
    have notMissing := List.find?_eq_none.mp (Option.map_eq_none_iff.mp noneMissing) input reads
    exact contains_operatorMap.mp (by simpa using notMissing)
  refine ⟨inputsExist, fun count expected => ?_, fun isJoin => ?_, ?_, ?_, ?_⟩
  · simp only [wrongInputCount?, expected] at countRight
    by_contra wrong
    simp [wrong] at countRight
  · simp only [wrongInputCount?, isJoin] at countRight
    by_contra few
    simp [Nat.lt_of_not_le few] at countRight
  all_goals
    intro keys fragment isJoin
    simp only [joinFault?, isJoin] at joinRight
    split at joinRight
    · simp at joinRight
    split at joinRight
    · simp at joinRight
  · exact not_not.mp ‹_›
  · omega
  · intro side input atSide different
    have inZip : (input, side) ∈ operator.inputs.zipIdx := by
      rw [List.mem_zipIdx_iff_getElem?]
      exact atSide
    have right := List.findSome?_eq_none_iff.mp joinRight _ inZip
    obtain ⟨source, found⟩ := inputsExist input (List.mem_of_getElem? atSide)
    refine ⟨source, found, ?_⟩
    simp only [if_neg different, found] at right
    by_contra notLoad
    simp [notLoad] at right

namespace WellFormedOperator

variable {operator : Operator} (wellFormed : plan.WellFormedOperator operator)

include wellFormed

theorem inputs_of_one (one : inputCount? operator.operation = some 1) :
    ∃ input, operator.inputs = [input] :=
  List.length_eq_one_iff.mp (wellFormed.inputCount 1 one)

/-- Every operator but a load has a main input. -/
theorem exists_mainInput (notLoad : operator.operation.isLoad = false) :
    ∃ main, operator.mainInput? = some main := by
  cases kind : operator.operation with
  | load => simp [kind, Operation.isLoad] at notLoad
  | join keys fragment =>
      have inside := wellFormed.fragmentSide keys fragment kind
      exact ⟨_, by rw [Operator.mainInput?, kind]; exact List.getElem?_eq_getElem inside⟩
  | filter | rearrange | package | forEach | sort | limit | store =>
      obtain ⟨input, inputs⟩ := wellFormed.inputs_of_one (by rw [kind]; rfl)
      exact ⟨input, by simp [Operator.mainInput?, kind, inputs]⟩

end WellFormedOperator

theorem WellFormedOperator.operatorFault?_eq_none {operator : Operator}
    (wellFormed : plan.WellFormedOperator operator) : plan.operatorFault? operator = none := by
  rw [operatorFault?, Option.orElse_eq_none, Option.orElse_eq_none]
  refine ⟨?_, ?_, ?_⟩
  · refine Option.map_eq_none_iff.mpr (List.find?_eq_none.mpr fun input reads => ?_)
    simpa using contains_operatorMap.mpr (wellFormed.inputsExist input reads)
  · rw [wrongInputCount?]
    split
    case h_1 count expected => simp [wellFormed.inputCount count expected]
    case h_2 isJoin => rw [if_neg (Nat.not_lt.mpr (wellFormed.joinSides isJoin))]
  · rw [joinFault?]
    split
    case h_2 => rfl
    case h_1 keys fragment isJoin =>
      have keyCount := wellFormed.keyCount keys fragment isJoin
      have inside := wellFormed.fragmentSide keys fragment isJoin
      rw [if_neg (not_not.mpr keyCount), if_neg (Nat.not_le.mpr inside)]
      refine List.findSome?_eq_none_iff.mpr fun ⟨input, side⟩ inZip => ?_
      have atSide := List.mem_zipIdx_iff_getElem?.mp inZip
      by_cases isFragment : side = fragment.toNat
      · simp [isFragment]
      · obtain ⟨source, found, isLoad⟩ :=
          wellFormed.replicatedSides keys fragment isJoin side input atSide isFragment
        simp [isFragment, found, isLoad]

/-- A plan passes its check exactly when it is well formed. -/
theorem OwnIds.validate_eq_ok_iff (ownIds : plan.OwnIds) :
    plan.validate = .ok () ↔ plan.WellFormed := by
  rw [validate]
  constructor
  · intro valid
    split at valid
    case h_1 => simp at valid
    case h_2 noFault =>
      obtain ⟨order, ordered, -⟩ := map_eq_ok.mp valid
      refine ⟨ownIds, fun id operator found => ?_, order, ordered⟩
      exact wellFormedOperator_of_operatorFault?
        (List.findSome?_eq_none_iff.mp noFault operator (mem_operators.mpr ⟨id, found⟩))
  · intro wellFormed
    have noFault : plan.operators.findSome? plan.operatorFault? = none := by
      refine List.findSome?_eq_none_iff.mpr fun operator member => ?_
      obtain ⟨id, found⟩ := mem_operators.mp member
      exact (wellFormed.operators id operator found).operatorFault?_eq_none
    obtain ⟨order, ordered⟩ := wellFormed.ordered
    rw [noFault, ordered]
    rfl

theorem OwnIds.wellFormed (ownIds : plan.OwnIds) (valid : plan.validate = .ok ()) :
    plan.WellFormed :=
  ownIds.validate_eq_ok_iff.mp valid

/-- A change of operations that keeps the number and the kind of their inputs. -/
structure KeepsInputs (change : Operation → Operation) : Prop where
  inputCount : ∀ operation, inputCount? (change operation) = inputCount? operation
  isLoad : ∀ operation, (change operation).isLoad = operation.isLoad
  join : ∀ operation keys fragment,
    change operation = .join keys fragment ↔ operation = .join keys fragment

section Relabel

variable {change : Operation → Operation} (keeps : KeepsInputs change)

include keeps

theorem wellFormedOperator_relabel {operator : Operator} :
    (plan.relabel change).WellFormedOperator (operator.relabel change) ↔
      plan.WellFormedOperator operator := by
  have sameSource (input : OpId) :
      (∃ source, (plan.relabel change).get? input = some source) ↔
        ∃ source, plan.get? input = some source := by
    simp
  have sameLoad (input : OpId) :
      (∃ source, (plan.relabel change).get? input = some source ∧
        source.operation.isLoad = true) ↔
          ∃ source, plan.get? input = some source ∧ source.operation.isLoad = true := by
    simp [Operator.relabel, keeps.isLoad]
  constructor
  · rintro ⟨inputsExist, inputCount, joinSides, keyCount, fragmentSide, replicatedSides⟩
    simp only [Operator.relabel, keeps.inputCount, keeps.join, sameSource, sameLoad]
      at inputsExist inputCount joinSides keyCount fragmentSide replicatedSides
    exact ⟨inputsExist, inputCount, joinSides, keyCount, fragmentSide, replicatedSides⟩
  · rintro ⟨inputsExist, inputCount, joinSides, keyCount, fragmentSide, replicatedSides⟩
    constructor <;> simp only [Operator.relabel, keeps.inputCount, keeps.join, sameSource, sameLoad]
    · exact inputsExist
    · exact inputCount
    · exact joinSides
    · exact keyCount
    · exact fragmentSide
    · exact replicatedSides

/-- The loads read in full by every task depend on joins and loads only. -/
theorem broadcastLoads_relabel : (plan.relabel change).broadcastLoads = plan.broadcastLoads := by
  rw [broadcastLoads, broadcastLoads, operators_relabel, List.flatMap_map]
  have sameLoad (input : OpId) :
      (((plan.relabel change).get? input).any fun source => source.operation.isLoad) =
        ((plan.get? input).any fun source => source.operation.isLoad) := by
    rw [get?_relabel]
    cases plan.get? input <;> simp [Operator.relabel, keeps.isLoad]
  refine congrArg OrderedSet.ofList (List.flatMap_congr fun operator _ => ?_)
  have sameJoin := keeps.join operator.operation
  cases kind : operator.operation with
  | join keys fragment =>
      have kindToo := (sameJoin keys fragment).mpr kind
      rw [kind] at kindToo
      simp only [Operator.relabel, kind, kindToo, sameLoad]
  | _ =>
      rw [kind] at sameJoin
      simp only [Operator.relabel, kind]
      split
      case h_1 kindToo => cases (sameJoin _ _).mp kindToo
      case h_2 => rfl

/-- Changing operations without changing their inputs keeps a plan well formed. -/
theorem wellFormed_relabel : (plan.relabel change).WellFormed ↔ plan.WellFormed := by
  constructor
  · rintro ⟨ownIds, operators, ordered⟩
    refine ⟨(plan.ownIds_relabel change).mp ownIds, fun id operator found => ?_, ?_⟩
    · refine (wellFormedOperator_relabel keeps).mp (operators id _ ?_)
      rw [get?_relabel, found, Option.map_some]
    · simpa only [topologicalOrder_relabel] using ordered
  · rintro ⟨ownIds, operators, ordered⟩
    refine ⟨(plan.ownIds_relabel change).mpr ownIds, fun id operator found => ?_, ?_⟩
    · rw [get?_relabel] at found
      obtain ⟨original, foundOriginal, rfl⟩ := Option.map_eq_some_iff.mp found
      exact (wellFormedOperator_relabel keeps).mpr (operators id original foundOriginal)
    · simpa only [topologicalOrder_relabel] using ordered

end Relabel

end SubPlan

end BatchFlow
