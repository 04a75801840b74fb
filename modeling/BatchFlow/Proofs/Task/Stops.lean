import BatchFlow.Proofs.Failures
import BatchFlow.Proofs.OrderedRows

/-!
# Sorts that stop the program

A sort stops the program only if the values that it orders are ambiguous: some double
among them is the value of two different integers among them.  Sorting and the median
are the only steps of a task that sort, so any other error of a task is one that the
engine reports.
-/

namespace BatchFlow

open Results

/-- The values draw from unambiguous integers and doubles. -/
def Scalar.UnambiguousAmong (values : List Scalar) : Prop :=
  ∃ ints floats, Unambiguous ints floats ∧ ∀ value ∈ values, Draws ints floats value

/-- An error is reported, or comes from sorting ambiguous values. -/
def OperatorError.IsJustified : OperatorError → Prop
  | noTotalOrder values => ¬ Scalar.UnambiguousAmong values
  | _ => True

/-- An error is reported, or comes from sorting ambiguous values. -/
def RunError.IsJustified : RunError → Prop
  | operator error => error.IsJustified
  | _ => True

/-- The error stops the program. -/
def RunError.IsStop (error : RunError) : Prop :=
  ∃ values, error = .operator (.noTotalOrder values)

theorem RunError.isStop_of_stopsProgram {error : RunError} (stops : error.stopsProgram = true) :
    error.IsStop := by
  cases error with
  | operator error =>
      cases error with
      | noTotalOrder values => exact ⟨values, rfl⟩
      | _ => cases stops
  | _ => cases stops

theorem liftOperator_failsWith {α : Type} {result : Except OperatorError α}
    (fails : FailsWith OperatorError.IsJustified result) :
    FailsWith RunError.IsJustified (liftOperator result) := by
  cases result with
  | ok value => exact .ok value
  | error error => exact .error (fails error rfl)

/-- A sort that succeeds on unambiguous values fails only if its values are ambiguous. -/
theorem liftSort_failsWith {α : Type} {values : List Scalar} {sorted : Option α}
    (sorts : Scalar.UnambiguousAmong values → ∃ result, sorted = some result) :
    FailsWith OperatorError.IsJustified (liftSort values sorted) := by
  cases sorted with
  | some result => exact .ok result
  | none =>
      refine .error fun unambiguous => ?_
      obtain ⟨result, isSorted⟩ := sorts unambiguous
      cases isSorted

namespace Row

/-- A test by a column orders rows whose cells there are unambiguous. -/
theorem ordersAmong_sortsBefore (column : UInt64) (descending : Bool) {ints : Int64 → Prop}
    {floats : Binary64 → Prop} (unambiguous : Scalar.Unambiguous ints floats) :
    Sorting.OrdersAmong (sortsBefore column descending)
      fun row => Scalar.Draws ints floats (row.sortKey column) := by
  have byKey : OrderedAmong (fun first second : Row =>
      (first.sortKey column).order (second.sortKey column))
        fun row => Scalar.Draws ints floats (row.sortKey column) :=
    ⟨fun first second => Scalar.order_swap _ _,
      fun first second third => Scalar.order_composes unambiguous _ _ _⟩
  cases descending with
  | false => exact Sorting.ordersAmong_lt byKey
  | true => exact Sorting.ordersAmong_gt byKey

theorem sortBy_eq_ok {column : UInt64} {descending : Bool} {rows sorted : List Row} :
    sortBy column descending rows = .ok sorted ↔
      Sorting.sort? (sortsBefore column descending) rows = some sorted := by
  rw [sortBy]
  cases Sorting.sort? (sortsBefore column descending) rows <;> simp [liftSort]

/-- Sorting yields the rows in order, unless it stops. -/
theorem liftOperator_sortBy (column : UInt64) (descending : Bool) (rows : List Row) :
    OkUnless RunError.IsStop (liftOperator (sortBy column descending rows))
      (Sorting.sort (sortsBefore column descending) rows) := by
  rw [sortBy]
  cases sorted : Sorting.sort? (sortsBefore column descending) rows with
  | some result =>
      rw [Sorting.eq_sort_of_sort? sorted]
      exact .inl rfl
  | none => exact .inr ⟨_, ⟨_, rfl⟩, rfl⟩

theorem sortBy_failsWith (column : UInt64) (descending : Bool) (rows : List Row) :
    FailsWith OperatorError.IsJustified (sortBy column descending rows) := by
  refine liftSort_failsWith ?_
  rintro ⟨ints, floats, unambiguous, draw⟩
  exact ⟨_, Sorting.sort?_of_orders (ordersAmong_sortsBefore column descending unambiguous)
    fun row member => draw _ (List.mem_map_of_mem member)⟩

theorem cell_failsWith (row : Row) (column : UInt64) :
    FailsWith OperatorError.IsJustified (row.cell column) := by
  rw [cell]
  split
  · exact .ok _
  · exact .error trivial

end Row

namespace Accumulator

theorem ofFunction_failsWith (function : AggregateFunction) :
    FailsWith OperatorError.IsJustified (ofFunction function) := by
  cases function with
  | custom name _ =>
      rw [ofFunction]
      split
      · exact .ok _
      · split
        · exact .ok _
        · exact .error trivial
  | _ => exact .ok _

theorem update_failsWith (accumulator : Accumulator) (value : Scalar) :
    FailsWith OperatorError.IsJustified (accumulator.update value) := by
  rw [update]
  split
  · exact .ok _
  · cases accumulator with
    | sum =>
        cases value with
        | int | float => exact .ok _
        | null | bool | text | bag => exact .error trivial
    | average =>
        rw [updateNonNull]
        split
        · exact .ok _
        · exact .error trivial
    | _ => exact .ok _

/-- Only the median sorts. -/
theorem finish_failsWith (accumulator : Accumulator) :
    FailsWith OperatorError.IsJustified accumulator.finish := by
  cases accumulator with
  | median values =>
      refine .bind (liftSort_failsWith ?_) fun _ _ => .ok _
      rintro ⟨ints, floats, unambiguous, draw⟩
      obtain ⟨result, isSorted, -⟩ := Sorting.scalars?_of_unambiguous unambiguous draw
      exact ⟨result, isSorted⟩
  | _ => exact .ok _

end Accumulator

theorem AggregateFunction.overBag_failsWith (function : AggregateFunction) (column : UInt64)
    (distinct : Bool) (bag : List Row) :
    FailsWith OperatorError.IsJustified (function.overBag column distinct bag) := by
  refine .bind (Accumulator.ofFunction_failsWith function) fun accumulator _ => ?_
  dsimp only
  split
  · exact .bind (.mapM fun row _ => Row.cell_failsWith row column) fun values _ =>
      .bind (.foldlM fun accumulator value _ => accumulator.update_failsWith value)
        fun final _ => final.finish_failsWith
  · exact .bind (.foldlM fun accumulator row _ => .bind (Row.cell_failsWith row column)
      fun value _ => accumulator.update_failsWith value) fun final _ => final.finish_failsWith

theorem Expr.project_failsWith (expr : Expr) (row : Row) :
    FailsWith OperatorError.IsJustified (expr.project row) := by
  cases expr with
  | column index => exact Row.cell_failsWith row index
  | literal value => exact .ok _
  | groupKey => exact Row.cell_failsWith row 0
  | bag =>
      refine .bind (Row.cell_failsWith row 1) fun value _ => ?_
      split
      · exact .ok _
      · exact .error trivial
  | aggregate function index distinct =>
      refine .bind (Row.cell_failsWith row 1) fun value _ => ?_
      split
      · exact function.overBag_failsWith index distinct _
      · exact .error trivial

namespace Slot

theorem ofExpr_failsWith (expr : Expr) :
    FailsWith OperatorError.IsJustified (ofExpr expr) := by
  cases expr with
  | column index =>
      rw [ofExpr]
      split
      · exact .ok _
      · exact .error trivial
  | aggregate function index distinct =>
      cases distinct with
      | true => exact .error trivial
      | false =>
          refine .bind (Accumulator.ofFunction_failsWith function) fun accumulator _ => ?_
          split
          · exact .ok _
          · exact .error trivial
  | bag => exact .error trivial
  | literal | groupKey => exact .ok _

theorem feed_failsWith (row : Row) (slot : Slot) :
    FailsWith OperatorError.IsJustified (slot.feed row) := by
  cases slot with
  | fold accumulator column =>
      exact .bind (Row.cell_failsWith row column) fun value _ =>
        .bind (accumulator.update_failsWith value) fun _ _ => .ok _
  | key | constant => exact .ok _

theorem finish_failsWith (groupKey : Scalar) (slot : Slot) :
    FailsWith OperatorError.IsJustified (slot.finish groupKey) := by
  cases slot with
  | fold accumulator _ => exact accumulator.finish_failsWith
  | key | constant => exact .ok _

end Slot

theorem Groups.stream_failsWith (exprs : List Expr) (groups : Groups) :
    FailsWith OperatorError.IsJustified (groups.stream exprs) :=
  .mapM fun group _ => .bind (.mapM fun expr _ => Slot.ofExpr_failsWith expr) fun _ _ =>
    .bind (.foldlM fun _ row _ => .mapM fun slot _ => slot.feed_failsWith row)
      fun _ _ => .mapM fun slot _ => slot.finish_failsWith group.1

theorem Groups.ofKeyedRows_failsWith (keyed : List Row) :
    FailsWith OperatorError.IsJustified (ofKeyedRows keyed) := by
  refine .foldlM fun groups row _ => ?_
  cases row with
  | nil => exact .error trivial
  | cons key cells => exact .ok _

theorem Join.rows_failsWith (sides : List (List Row)) (keys : List UInt64) (fragment : Nat) :
    FailsWith OperatorError.IsJustified (rows sides keys fragment) := by
  refine .bind (.mapM fun side _ => ?_) fun tables _ => .bind (.mapM fun row _ =>
    .bind (Row.cell_failsWith row _) fun key _ => .ok _) fun joined _ => .ok _
  dsimp only
  split
  · exact .ok _
  · exact .foldlM fun table row _ => .bind (Row.cell_failsWith row _) fun key _ => .ok _

theorem TaskState.input_failsWith (state : TaskState) (operator : Operator) (side : Nat) :
    FailsWith RunError.IsJustified (state.input operator side) := by
  rw [input]
  split
  · exact .error trivial
  · split
    · exact .ok _
    · exact .error trivial

theorem Operator.transform_failsWith (operator : Operator) (state : TaskState) :
    FailsWith RunError.IsJustified (operator.transform state) := by
  rw [transform]
  have first := state.input_failsWith operator 0
  cases operator.operation with
  | filter predicate =>
      exact first.bind fun rows _ => liftOperator_failsWith (.filterM fun row _ =>
        .bind (Row.cell_failsWith row _) fun value _ => .ok _)
  | rearrange key =>
      exact first.bind fun rows _ => liftOperator_failsWith (.mapM fun row _ =>
        .bind (Row.cell_failsWith row _) fun value _ => .ok _)
  | forEach exprs =>
      exact first.bind fun rows _ => liftOperator_failsWith (.mapM fun row _ =>
        .mapM fun expr _ => expr.project_failsWith row)
  | sort column descending =>
      exact first.bind fun rows _ =>
        liftOperator_failsWith (Row.sortBy_failsWith column descending rows)
  | limit count => exact first.bind fun rows _ => .ok _
  | join keys fragment =>
      exact .bind (.mapM fun side _ => state.input_failsWith operator side) fun sides _ =>
        liftOperator_failsWith (Join.rows_failsWith sides keys _)
  | load | package | store => exact .error trivial

namespace SubPlan

variable (plan : SubPlan)

theorem step_failsWith (groups : OpId → Groups) (state : TaskState) (id : OpId) :
    FailsWith RunError.IsJustified (plan.step groups state id) := by
  rw [step]
  split
  · exact .error trivial
  · rename_i operator _
    have transformed := (operator.transform_failsWith state).bind fun rows _ =>
      FailsWith.ok (state.withRows id rows)
    cases operator.operation with
    | load | sort | filter | rearrange | limit | join =>
        first | exact .ok _ | exact transformed
    | package =>
        dsimp only
        split <;> exact .ok _
    | store => exact (state.input_failsWith operator 0).bind fun rows _ => .ok _
    | forEach exprs =>
        dsimp only
        split
        · split
          · exact (liftOperator_failsWith (Groups.stream_failsWith exprs _)).bind fun _ _ => .ok _
          · exact transformed
        · exact transformed

theorem runMapTask_failsWith (phases : Phases) (loads : Bindings) :
    FailsWith RunError.IsJustified (plan.runMapTask phases loads) :=
  .bind (.foldlM fun state id _ => plan.step_failsWith _ state id) fun _ _ => .ok _

theorem runReduceTask_failsWith (phases : Phases) (groups : OrderedMap OpId Groups)
    (broadcast : Bindings) :
    FailsWith RunError.IsJustified (plan.runReduceTask phases groups broadcast) :=
  .bind (.foldlM fun state id _ => plan.step_failsWith _ state id) fun _ _ => .ok _

end SubPlan

end BatchFlow
