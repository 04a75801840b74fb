import BatchFlow.Graph.Error

/-!
# What can go wrong in a run

Besides faults of the graph, a plan may not be runnable, an operator may meet
data it cannot work on, and a file may be missing.  An operator that sorts values
without a total order may stop the whole program instead of reporting an error.
-/

namespace BatchFlow

/-- Why an operator cannot work on its data. -/
inductive OperatorError where
  | unknownFunction (name : String)
  | notNumber (function : AggregateFunction) (value : Scalar)
  | columnOutOfRange (column : UInt64) (width : Nat)
  | notGroup (value : Scalar)
  | ungroupedAggregate
  | unboundedFunction (name : String)
  | needsGroup (expr : Expr)
  | missingKey
  /-- Sorting these values has shown that their order is not total. -/
  | noTotalOrder (values : List Scalar)

/-- Whether the engine reports the error.  Otherwise the program stops. -/
def OperatorError.isReported : OperatorError → Bool
  | noTotalOrder _ => false
  | _ => true

/-- The text of an operator error. -/
def OperatorError.text : OperatorError → String
  | unknownFunction name => "unknown function `" ++ name ++ "`"
  | notNumber function value => function.name ++ " over non-number " ++ value.describe
  | columnOutOfRange column width =>
      "column $" ++ toString column.toNat ++ " out of range for row of width "
        ++ toString width
  | notGroup value => "expected a group, got " ++ value.describe
  | ungroupedAggregate => "aggregate over an ungrouped row"
  | unboundedFunction name => name ++ " cannot run accumulatively"
  | needsGroup expr => expr.describe ++ " needs the materialized group"
  | missingKey => "keyed row without a key"
  | noTotalOrder _ =>
      "user-provided comparison function does not correctly implement a total order"

/-- A sort by some values as the result of an operator. -/
def liftSort {α : Type} (values : List Scalar) : Option α → Except OperatorError α
  | some sorted => .ok sorted
  | none => .error (.noTotalOrder values)

/-- Why a plan cannot be run. -/
inductive PlanMisuse where
  | malformed (fault : SubPlan.Fault)
  | operatorVanished (operator : OpId)
  | inputMissing (operator : Operator) (side : Nat)
  | inputUnavailable (operator : Operator) (input : OpId)
  | notRowOperator (operator : Operator)
  | storesNothing (stage : StageId)
  | neverReady (stages : Nat)

/-- The text of a misuse. -/
def PlanMisuse.text : PlanMisuse → String
  | malformed fault => fault.text
  | operatorVanished operator => operator.text ++ " vanished from its plan"
  | inputMissing operator side =>
      operator.id.text ++ " (" ++ operator.operation.name ++ ") is missing input "
        ++ toString side
  | inputUnavailable operator input =>
      operator.id.text ++ " (" ++ operator.operation.name ++ ") reads " ++ input.text
        ++ ", which this phase does not produce"
  | notRowOperator operator =>
      operator.id.text ++ " (" ++ operator.operation.name ++ ") is not a row operator"
  | storesNothing stage => stage.text ++ " is loaded from but stores nothing"
  | neverReady stages => toString stages ++ " stages never became ready"

/-- Why a run fails. -/
inductive RunError where
  | plan (error : PlanError)
  | invalid (misuse : PlanMisuse)
  | operator (error : OperatorError)
  | pathNotFound (path : String)

/-- Whether the error stops the program. -/
def RunError.stopsProgram : RunError → Bool
  | operator error => !error.isReported
  | _ => false

/-- The message of a run error. -/
def RunError.message : RunError → String
  | plan error => error.message
  | invalid misuse => "invalid plan: " ++ misuse.text
  | operator error => if error.isReported then "operator exec: " ++ error.text else error.text
  | pathNotFound path => "storage: path not found: " ++ path

end BatchFlow
