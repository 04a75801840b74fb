import BatchFlow.Plan.SubPlan

/-!
# Doubles in literals

The doubles of a plan are in the values of its filters and in the literals of its projections,
where they may be inside bags.  A change of them all is a change of the doubles that occur.
-/

namespace BatchFlow

variable {change other : Binary64 → Binary64}

namespace Scalar

mutual

/-- The scalar with all doubles changed, also inside its bags. -/
def mapFloats (change : Binary64 → Binary64) : Scalar → Scalar
  | null => null
  | bool value => bool value
  | int value => int value
  | float value => float (change value)
  | text value => text value
  | bag rows => bag (rowsMapFloats change rows)

/-- The cells with all doubles changed. -/
def cellsMapFloats (change : Binary64 → Binary64) : List Scalar → List Scalar
  | [] => []
  | cell :: cells => mapFloats change cell :: cellsMapFloats change cells

/-- The rows with all doubles changed. -/
def rowsMapFloats (change : Binary64 → Binary64) : List (List Scalar) → List (List Scalar)
  | [] => []
  | row :: rows => cellsMapFloats change row :: rowsMapFloats change rows

end

mutual

/-- The doubles in the scalar, also inside its bags. -/
def floats : Scalar → List Binary64
  | float value => [value]
  | bag rows => rowsFloats rows
  | _ => []

/-- The doubles in cells. -/
def cellsFloats : List Scalar → List Binary64
  | [] => []
  | cell :: cells => floats cell ++ cellsFloats cells

/-- The doubles in rows. -/
def rowsFloats : List (List Scalar) → List Binary64
  | [] => []
  | row :: rows => cellsFloats row ++ rowsFloats rows

end

mutual

theorem mapFloats_congr (value : Scalar) (same : ∀ x ∈ value.floats, change x = other x) :
    value.mapFloats change = value.mapFloats other := by
  cases value with
  | float value => rw [mapFloats, mapFloats, same value (List.mem_singleton_self value)]
  | bag rows => rw [mapFloats, mapFloats, rowsMapFloats_congr rows same]
  | _ => rfl

theorem cellsMapFloats_congr (cells : List Scalar)
    (same : ∀ x ∈ cellsFloats cells, change x = other x) :
    cellsMapFloats change cells = cellsMapFloats other cells := by
  cases cells with
  | nil => rfl
  | cons cell cells =>
      obtain ⟨ofCell, ofCells⟩ := List.forall_mem_append.mp same
      rw [cellsMapFloats, cellsMapFloats, mapFloats_congr cell ofCell,
        cellsMapFloats_congr cells ofCells]

theorem rowsMapFloats_congr (rows : List (List Scalar))
    (same : ∀ x ∈ rowsFloats rows, change x = other x) :
    rowsMapFloats change rows = rowsMapFloats other rows := by
  cases rows with
  | nil => rfl
  | cons row rows =>
      obtain ⟨ofRow, ofRows⟩ := List.forall_mem_append.mp same
      rw [rowsMapFloats, rowsMapFloats, cellsMapFloats_congr row ofRow,
        rowsMapFloats_congr rows ofRows]

end

end Scalar

/-- The predicate with all doubles changed. -/
def Predicate.mapFloats (change : Binary64 → Binary64) (predicate : Predicate) : Predicate :=
  { predicate with value := predicate.value.mapFloats change }

namespace Expr

/-- The expression with all doubles changed. -/
def mapFloats (change : Binary64 → Binary64) : Expr → Expr
  | literal value => literal (value.mapFloats change)
  | expr => expr

/-- The doubles in the expression. -/
def floats : Expr → List Binary64
  | literal value => value.floats
  | _ => []

theorem mapFloats_congr {expr : Expr} (same : ∀ x ∈ expr.floats, change x = other x) :
    expr.mapFloats change = expr.mapFloats other := by
  cases expr with
  | literal value => rw [mapFloats, mapFloats, value.mapFloats_congr same]
  | _ => rfl

end Expr

namespace Operation

/-- The operation with all doubles in its literals changed. -/
def mapFloats (change : Binary64 → Binary64) : Operation → Operation
  | filter predicate => filter (predicate.mapFloats change)
  | forEach exprs => forEach (exprs.map (Expr.mapFloats change))
  | operation => operation

/-- The doubles in the literals of the operation. -/
def floats : Operation → List Binary64
  | filter predicate => predicate.value.floats
  | forEach exprs => exprs.flatMap Expr.floats
  | _ => []

theorem mapFloats_congr {operation : Operation}
    (same : ∀ x ∈ operation.floats, change x = other x) :
    operation.mapFloats change = operation.mapFloats other := by
  cases operation with
  | filter predicate =>
      rw [mapFloats, mapFloats, Predicate.mapFloats, Predicate.mapFloats,
        predicate.value.mapFloats_congr same]
  | forEach exprs =>
      have each : exprs.map (Expr.mapFloats change) = exprs.map (Expr.mapFloats other) :=
        List.map_congr_left fun expr member => Expr.mapFloats_congr fun x inExpr =>
          same x (List.mem_flatMap_of_mem member inExpr)
      rw [mapFloats, mapFloats, each]
  | _ => rfl

end Operation

/-- The operator with all doubles in its literals changed. -/
def Operator.mapFloats (change : Binary64 → Binary64) (operator : Operator) : Operator :=
  { operator with operation := operator.operation.mapFloats change }

namespace SubPlan

/-- The plan with all doubles in its literals changed. -/
def mapFloats (change : Binary64 → Binary64) (plan : SubPlan) : SubPlan :=
  { plan with operatorMap := plan.operatorMap.mapValues (Operator.mapFloats change) }

/-- The doubles in the literals of the plan. -/
def floats (plan : SubPlan) : List Binary64 :=
  plan.operators.flatMap fun operator => operator.operation.floats

theorem mapFloats_congr {plan : SubPlan} (same : ∀ x ∈ plan.floats, change x = other x) :
    plan.mapFloats change = plan.mapFloats other := by
  have each : plan.operatorMap.mapValues (Operator.mapFloats change) =
      plan.operatorMap.mapValues (Operator.mapFloats other) := by
    refine OrderedMap.ext (List.map_congr_left fun entry member => ?_)
    have inOperators : entry.2 ∈ plan.operators := List.mem_map_of_mem member
    rw [Operator.mapFloats, Operator.mapFloats, Operation.mapFloats_congr fun x inOperation =>
      same x (List.mem_flatMap_of_mem inOperators inOperation)]
  rw [mapFloats, mapFloats, each]

end SubPlan

end BatchFlow
