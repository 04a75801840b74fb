import BatchFlow.Engine.Grouping

/-!
# Tasks

The operators of a plan fall into a map phase and a reduce phase.  A map task
evaluates the map phase over the rows bound to its loads and yields what it
stored and what reached a grouping operator; a reduce task evaluates the reduce
phase over its share of the groups.
-/

namespace BatchFlow

/-- The operators of each phase, each after its inputs. -/
structure Phases where
  map : List OpId
  reduce : List OpId

namespace SubPlan

/-- The grouping operators and everything downstream of one. -/
def reduceSide (plan : SubPlan) : List OpId :=
  plan.packages.flatMap fun package => package :: (plan.downstreamOf package).elements

/-- Split the operators into phases. -/
def phases (plan : SubPlan) : Except RunError Phases :=
  match plan.topologicalOrder with
  | .error fault => .error (.invalid (.malformed fault))
  | .ok order =>
      let reduceSide := plan.reduceSide
      .ok ⟨order.filter fun id => !reduceSide.contains id,
        order.filter fun id => reduceSide.contains id⟩

/-- Whether an operator is read, and by projections only. -/
def feedsOnlyProjections (plan : SubPlan) (id : OpId) : Bool :=
  !(plan.consumers id).isEmpty
    && (plan.consumers id).all fun consumer =>
      (plan.get? consumer).any fun operator => operator.operation.isForEach

end SubPlan

/-- The rows bound to operators. -/
abbrev Bindings :=
  OrderedMap OpId (List Row)

/-- What a task produced: rows by store target, and keyed rows by the grouping
operator they go to. -/
structure TaskOutput where
  stores : OrderedMap String (List Row)
  shuffle : Bindings
deriving Inhabited

namespace Expr

/-- The value of an expression for a row; a grouped row is a key and a bag. -/
def project (expr : Expr) (row : Row) : Except OperatorError Scalar :=
  match expr with
  | column index => row.cell index
  | literal value => .ok value
  | groupKey => row.cell 0
  | bag => do
      match ← row.cell 1 with
      | .bag rows => return .bag rows
      | other => throw (.notGroup other)
  | aggregate function index distinct => do
      match (← row.cell 1).asBag with
      | some rows => function.overBag index distinct rows
      | none => throw .ungroupedAggregate

end Expr

/-- An expression while a group is streamed: the key, a constant, or an
accumulator over a column. -/
inductive Slot where
  | key
  | constant (value : Scalar)
  | fold (accumulator : Accumulator) (column : UInt64)

namespace Slot

/-- The slot of an expression before any row of the group. -/
def ofExpr : Expr → Except OperatorError Slot
  | .groupKey => .ok key
  | .literal value => .ok (constant value)
  | .column index =>
      if index = 0 then .ok key else .error (.needsGroup (.column index))
  | .aggregate function column false => do
      let accumulator ← Accumulator.ofFunction function
      if accumulator.isBounded then return fold accumulator column
      else throw (.unboundedFunction function.name)
  | other => .error (.needsGroup other)

/-- The slot after one more row of the group. -/
def feed (row : Row) : Slot → Except OperatorError Slot
  | fold accumulator column => do
      return fold (← accumulator.update (← row.cell column)) column
  | slot => .ok slot

/-- The value of a slot after the last row of the group. -/
def finish (groupKey : Scalar) : Slot → Except OperatorError Scalar
  | key => .ok groupKey
  | constant value => .ok value
  | fold accumulator _ => accumulator.finish

end Slot

namespace Groups

/-- The row of expressions over one streamed group. -/
def streamGroup (exprs : List Expr) (group : Scalar × List Row) :
    Except OperatorError Row := do
  let slots ← exprs.mapM Slot.ofExpr
  let final ← group.2.foldlM (fun slots row => slots.mapM (Slot.feed row)) slots
  final.mapM (Slot.finish group.1)

/-- The rows of expressions over streamed groups. -/
def stream (exprs : List Expr) (groups : Groups) : Except OperatorError (List Row) :=
  groups.mapM (streamGroup exprs)

end Groups

/-- The progress of a task: rows by operator, the grouping operators whose
groups are streamed, and rows by store target. -/
structure TaskState where
  rows : Bindings
  streamed : List OpId
  stores : OrderedMap String (List Row)

namespace TaskState

/-- The rows of one input of an operator. -/
def input (state : TaskState) (operator : Operator) (side : Nat) :
    Except RunError (List Row) :=
  match operator.inputs[side]? with
  | none => .error (.invalid (.inputMissing operator side))
  | some source =>
      match state.rows.get? source with
      | some rows => .ok rows
      | none => .error (.invalid (.inputUnavailable operator source))

/-- The same state with the rows of one more operator. -/
def withRows (state : TaskState) (id : OpId) (rows : List Row) : TaskState :=
  { state with rows := state.rows.insert id rows }

end TaskState

/-- A failing operator as a failing run. -/
def liftOperator {α : Type} : Except OperatorError α → Except RunError α
  | .ok value => .ok value
  | .error error => .error (.operator error)

namespace Predicate

/-- Whether a row passes the test; a null never does. -/
def test (predicate : Predicate) (row : Row) : Except OperatorError Bool := do
  let value ← row.cell predicate.column
  return !value.isNull && predicate.comparison.holds value predicate.value

end Predicate

namespace Operator

/-- The rows that a row operator makes of its inputs. -/
def transform (operator : Operator) (state : TaskState) : Except RunError (List Row) := do
  match operator.operation with
  | .filter predicate =>
      liftOperator ((← state.input operator 0).filterM predicate.test)
  | .rearrange key =>
      liftOperator ((← state.input operator 0).mapM fun row : Row => do
        return (← row.cell key) :: row)
  | .forEach exprs =>
      liftOperator ((← state.input operator 0).mapM fun row : Row =>
        exprs.mapM fun expr => expr.project row)
  | .sort column descending =>
      liftOperator (Row.sortBy column descending (← state.input operator 0))
  | .limit count => return (← state.input operator 0).take count.toNat
  | .join keys fragment => do
      let sides ← (List.range operator.inputs.length).mapM (state.input operator)
      liftOperator (Join.rows sides keys fragment.toNat)
  | .load _ | .package _ _ | .store _ => throw (.invalid (.notRowOperator operator))

end Operator

namespace SubPlan

/-- Evaluate one operator.  The groups of an accumulative grouping operator that
feeds only projections are left to these projections. -/
def step (plan : SubPlan) (groups : OpId → Groups) (state : TaskState) (id : OpId) :
    Except RunError TaskState := do
  match plan.get? id with
  | none => throw (.invalid (.operatorVanished id))
  | some operator =>
      match operator.operation with
      | .load _ => return state.withRows id ((state.rows.get? id).getD [])
      | .package _ accumulative =>
          if accumulative && plan.feedsOnlyProjections id then
            return { state.withRows id [] with streamed := id :: state.streamed }
          else return state.withRows id (groups id).materialize
      | .store target =>
          let rows ← state.input operator 0
          return { state.withRows id rows with
            stores := state.stores.upsert target fun stored => stored.getD [] ++ rows }
      | .forEach exprs =>
          match operator.inputs.head? with
          | some package =>
              if state.streamed.contains package then
                return state.withRows id (← liftOperator ((groups package).stream exprs))
              else return state.withRows id (← operator.transform state)
          | none => return state.withRows id (← operator.transform state)
      | _ => return state.withRows id (← operator.transform state)

/-- Evaluate operators one after another. -/
def evaluate (plan : SubPlan) (operators : List OpId) (bound : Bindings)
    (groups : OpId → Groups) : Except RunError TaskState :=
  operators.foldlM (plan.step groups) ⟨bound, [], ∅⟩

/-- The rows that reached each grouping operator. -/
def shuffleOf (plan : SubPlan) (rows : Bindings) : Bindings :=
  .ofList <| plan.packages.filterMap fun package => do
    let input ← (← plan.get? package).inputs.head?
    return (package, ← rows.get? input)

/-- Evaluate the map phase.  Loads that are not bound read nothing. -/
def runMapTask (plan : SubPlan) (phases : Phases) (loads : Bindings) :
    Except RunError TaskOutput := do
  let final ← plan.evaluate phases.map loads fun _ => []
  return ⟨final.stores, plan.shuffleOf final.rows⟩

/-- Evaluate the reduce phase over the groups of each grouping operator. -/
def runReduceTask (plan : SubPlan) (phases : Phases) (groups : OrderedMap OpId Groups)
    (broadcast : Bindings) : Except RunError TaskOutput := do
  let final ← plan.evaluate phases.reduce broadcast fun id => (groups.get? id).getD []
  return ⟨final.stores, ∅⟩

end SubPlan

end BatchFlow
