import BatchFlow.Proofs.Plan.Phases
import BatchFlow.Proofs.Task.GroupStreaming
import BatchFlow.Proofs.Task.Stops

/-!
# Cutting the work of a phase into tasks

The rows that flow along main inputs can be cut into parts, each evaluated by a
task of its own, while the replicated sides of joins are read in full by every
task.  Evaluating a phase over the whole succeeds exactly when it succeeds over
every part, and the parts then hold the rows of the whole: the same rows at
every operator, and in the same order wherever nothing was sorted or grouped.  That
holds of evaluations that no sort stops; one of a part or of the whole that does stop
is taken to go on here.
-/

namespace BatchFlow

open Results

/-- The rows an operator makes of the rows of its main input, given its other
inputs. -/
def Operator.advance (operator : Operator) (others : Nat → Except RunError (List Row))
    (rows : List Row) : Except RunError (List Row) :=
  match operator.operation with
  | .filter predicate => liftOperator (rows.filterM predicate.test)
  | .rearrange key =>
      liftOperator (rows.mapM fun row : Row => do return (← row.cell key) :: row)
  | .forEach exprs =>
      liftOperator (rows.mapM fun row : Row => exprs.mapM fun expr => expr.project row)
  | .sort column descending => .ok (Sorting.sort (Row.sortsBefore column descending) rows)
  | .join keys fragment =>
      Join.overFragment others keys fragment.toNat operator.inputs.length rows
  | .limit count => .ok (rows.take count.toNat)
  | _ => .ok rows

/-- Whether the operation sorts. -/
def Operation.isSort : Operation → Bool
  | .sort _ _ => true
  | _ => false

/-- Whether the operation keeps only the first rows. -/
def Operation.isLimit : Operation → Bool
  | .limit _ => true
  | _ => false

theorem Join.overFragment_congr {first second : Nat → Except RunError (List Row)}
    {keys : List UInt64} {fragment count : Nat}
    (same : ∀ side < count, side ≠ fragment → first side = second side) :
    Join.overFragment first keys fragment count = Join.overFragment second keys fragment count := by
  funext rows
  rw [Join.overFragment, Join.overFragment]
  refine congrArg (· >>= _) (mapM_congr fun side inRange => ?_)
  by_cases atFragment : side = fragment
  · rw [if_pos atFragment, if_pos atFragment]
  · rw [if_neg atFragment, if_neg atFragment, same side (List.mem_range.mp inRange) atFragment]

namespace SubPlan

/-- The rows that evaluating an operator computes if a sort does not stop it. -/
def unstopped (plan : SubPlan) (groups : OpId → Groups) (state : TaskState)
    (operator : Operator) : Except RunError (List Row) :=
  match operator.operation with
  | .sort column descending =>
      (state.input operator 0).map (Sorting.sort (Row.sortsBefore column descending))
  | _ => plan.computed groups state operator

variable {plan : SubPlan} {operator : Operator}

theorem computed_sort {groups : OpId → Groups} {state : TaskState} {column : UInt64}
    {descending : Bool} (isSort : operator.operation = .sort column descending) :
    plan.computed groups state operator = state.input operator 0 >>= fun rows =>
      liftOperator (Row.sortBy column descending rows) := by
  simp only [computed, isSort, Operator.transform]

theorem unstopped_of_computed {groups : OpId → Groups} {state : TaskState} {rows : List Row}
    (succeeds : plan.computed groups state operator = .ok rows) :
    plan.unstopped groups state operator = .ok rows := by
  unfold unstopped
  split
  case h_1 column descending isSort =>
    rw [computed_sort isSort] at succeeds
    obtain ⟨input, read, sorted⟩ := bind_eq_ok.mp succeeds
    have isSorted := Row.sortBy_eq_ok.mp (liftOperator_eq_ok.mp sorted)
    rw [read, Sorting.eq_sort_of_sort? isSorted]
    rfl
  case h_2 => exact succeeds

/-- An operator computes its rows, unless a sort stops it. -/
theorem computed_of_unstopped {groups : OpId → Groups} {state : TaskState} {rows : List Row}
    (succeeds : plan.unstopped groups state operator = .ok rows) :
    OkUnless RunError.IsStop (plan.computed groups state operator) rows := by
  unfold unstopped at succeeds
  split at succeeds
  case h_1 column descending isSort =>
    obtain ⟨input, read, rfl⟩ := map_eq_ok.mp succeeds
    rw [computed_sort isSort, read]
    exact Row.liftOperator_sortBy column descending input
  case h_2 => exact .inl succeeds

namespace WellFormedOperator

variable (wellFormed : plan.WellFormedOperator operator)

include wellFormed

/-- An operator computes its rows from the rows of its main input. -/
theorem unstopped_eq_advance {groups : OpId → Groups} {state : TaskState} {main : OpId}
    {rows : List Row} (notLoad : operator.operation.isLoad = false)
    (notPackage : operator.operation.isPackage = false)
    (isMain : operator.mainInput? = some main) (found : state.rows.get? main = some rows)
    (notStreamed : main ∉ state.streamed) :
    plan.unstopped groups state operator =
      operator.advance (state.input operator) rows := by
  have oneInput (one : inputCount? operator.operation = some 1)
      (headMain : operator.mainInput? = operator.inputs.head?) :
      operator.inputs = [main] ∧ state.input operator 0 = .ok rows := by
    obtain ⟨input, inputs⟩ := wellFormed.inputs_of_one one
    obtain rfl : input = main := by simpa [headMain, inputs] using isMain
    exact ⟨inputs, by simp [TaskState.input, inputs, found]⟩
  cases kind : operator.operation with
  | load => simp [kind, Operation.isLoad] at notLoad
  | package => simp [kind, Operation.isPackage] at notPackage
  | join keys fragment =>
      have atFragment : state.input operator fragment.toNat = .ok rows := by
        simp only [Operator.mainInput?, kind] at isMain
        simp [TaskState.input, isMain, found]
      have sides : (fun side => if side = fragment.toNat then .ok rows
          else state.input operator side) = state.input operator := by
        funext side
        by_cases same : side = fragment.toNat
        · rw [if_pos same, same, atFragment]
        · rw [if_neg same]
      simp only [unstopped, computed, Operator.transform, Operator.advance, kind,
        Join.overFragment, sides]
  | forEach exprs =>
      obtain ⟨inputs, input⟩ := oneInput (by rw [kind]; rfl) (by rw [Operator.mainInput?, kind])
      simp [unstopped, computed, kind, inputs, notStreamed, Operator.transform, input,
        Operator.advance, bind, Except.bind]
  | filter | rearrange | sort | limit | store =>
      obtain ⟨inputs, input⟩ := oneInput (by rw [kind]; rfl) (by rw [Operator.mainInput?, kind])
      simp [unstopped, computed, kind, Operator.transform, input, Operator.advance, bind,
        Except.bind, pure, Except.pure, Except.map]

/-- Every operator without a limit distributes over the parts of its main input;
only a sort does not keep their order. -/
theorem distributes_advance (noLimit : operator.operation.isLimit = false)
    (others : Nat → Except RunError (List Row)) :
    Distributes (operator.operation.isSort = false) (operator.advance others) := by
  cases kind : operator.operation with
  | limit => simp [kind, Operation.isLimit] at noLimit
  | filter predicate =>
      unfold Operator.advance
      simp only [kind]
      exact Rowwise.of_filterM.liftOperator.distributes _
  | rearrange | forEach =>
      unfold Operator.advance
      simp only [kind]
      exact Rowwise.of_mapM.liftOperator.distributes _
  | sort column descending =>
      unfold Operator.advance
      simp only [kind, Operation.isSort, Bool.true_eq_false]
      exact Sorting.distributes_sort _
  | join keys fragment =>
      unfold Operator.advance
      simp only [kind]
      exact (Join.rowwise_overFragment others keys
        (wellFormed.fragmentSide keys fragment kind)).distributes _
  | load | package | store =>
      unfold Operator.advance
      simp only [kind]
      exact Rowwise.ok.distributes _

end WellFormedOperator

end SubPlan

end BatchFlow
