import BatchFlow.Plan.SubPlan

/-!
# Well-formed plans

A plan is well formed when every input exists, every operator has as many
inputs as its operation takes, joins name one key column per side and an
existing fragment side, replicated join sides are loads, and no operator
depends on itself.  The operators of a well-formed plan can be put in an order
in which each comes after its inputs.
-/

namespace BatchFlow

namespace SubPlan

/-- What is wrong with a plan. -/
inductive Fault where
  | missingInput (operator : Operator) (input : OpId)
  | inputCount (operator : Operator) (expected : Nat)
  | tooFewInputs (operator : Operator)
  | keyCount (operator : Operator) (keys : Nat)
  | fragmentSide (operator : Operator) (fragment : UInt64)
  | replicatedSide (operator : Operator) (side : Nat) (input : OpId) (source : Operator)
  | cycle (stuck : List OpId)

/-- The text of a fault. -/
def Fault.text : Fault → String
  | missingInput operator input =>
      operator.id.text ++ " (" ++ operator.operation.name ++ ") references missing input "
        ++ input.text
  | inputCount operator expected =>
      operator.id.text ++ " (" ++ operator.operation.name ++ ") expects "
        ++ toString expected ++ " input(s), has " ++ toString operator.inputs.length
  | tooFewInputs operator =>
      operator.id.text ++ " (" ++ operator.operation.name
        ++ ") needs at least two inputs, has " ++ toString operator.inputs.length
  | keyCount operator keys =>
      operator.id.text ++ " (frjoin) has " ++ toString keys ++ " key(s) for "
        ++ toString operator.inputs.length ++ " input(s)"
  | fragmentSide operator fragment =>
      operator.id.text ++ " (frjoin) names fragment side " ++ toString fragment.toNat
        ++ " but has only " ++ toString operator.inputs.length ++ " side(s)"
  | replicatedSide operator side input source =>
      operator.id.text ++ " (frjoin) replicated side " ++ toString side ++ " is fed by "
        ++ input.text ++ " (" ++ source.operation.name ++ "), not a load"
  | cycle stuck =>
      "operator cycle through " ++ String.intercalate ", " (stuck.map OpId.text)

/-- The number of inputs an operation takes; a join takes two or more. -/
def inputCount? : Operation → Option Nat
  | .load _ => some 0
  | .join _ _ => none
  | _ => some 1

/-- The first input that is not in the plan. -/
def missingInput? (plan : SubPlan) (operator : Operator) : Option Fault :=
  (operator.inputs.find? fun input => !plan.operatorMap.contains input).map
    (Fault.missingInput operator)

/-- Whether the operator has the wrong number of inputs. -/
def wrongInputCount? (operator : Operator) : Option Fault :=
  match inputCount? operator.operation with
  | some expected =>
      if operator.inputs.length ≠ expected then some (.inputCount operator expected)
      else none
  | none => if operator.inputs.length < 2 then some (.tooFewInputs operator) else none

/-- The first replicated side that is not a load. -/
def replicatedSide? (plan : SubPlan) (operator : Operator) (fragment : UInt64) :
    Option Fault :=
  operator.inputs.zipIdx.findSome? fun (input, side) =>
    if side = fragment.toNat then none
    else
      match plan.get? input with
      | some source =>
          if source.operation.isLoad then none
          else some (.replicatedSide operator side input source)
      | none => none

/-- What is wrong with the sides of a join. -/
def joinFault? (plan : SubPlan) (operator : Operator) : Option Fault :=
  match operator.operation with
  | .join keys fragment =>
      if keys.length ≠ operator.inputs.length then some (.keyCount operator keys.length)
      else if operator.inputs.length ≤ fragment.toNat then
        some (.fragmentSide operator fragment)
      else plan.replicatedSide? operator fragment
  | _ => none

/-- What is wrong with one operator, apart from cycles. -/
def operatorFault? (plan : SubPlan) (operator : Operator) : Option Fault :=
  plan.missingInput? operator
    <|> wrongInputCount? operator
    <|> plan.joinFault? operator

/-- Operators not yet placed, with the number of inputs each still waits for. -/
abbrev Waiting :=
  OrderedMap OpId Nat

/-- Every operator waits for each entry of its inputs. -/
def waiting (plan : SubPlan) : Waiting :=
  .ofList (plan.operators.map fun operator => (operator.id, operator.inputs.length))

/-- One consumer of `placed` waits for as many inputs less as it reads `placed`;
a consumer that waits for nothing more becomes ready. -/
def release (plan : SubPlan) (placed : OpId) (state : Waiting × List OpId)
    (consumer : OpId) : Waiting × List OpId :=
  match state.1.get? consumer with
  | none => state
  | some count =>
      let times := (plan.get? consumer).elim 0 fun operator => operator.inputs.count placed
      let left := count - times
      (state.1.insert consumer left, if left = 0 then consumer :: state.2 else state.2)

/-- Place ready operators, the latest ready first, until none is ready.  Yields
the order and the operators left waiting. -/
def place (plan : SubPlan) : (fuel : Nat) → Waiting → (ready : List OpId) →
    List OpId × Waiting
  | 0, waiting, _ => ([], waiting)
  | _ + 1, waiting, [] => ([], waiting)
  | fuel + 1, waiting, next :: ready =>
      let state := (plan.consumers next).foldl (plan.release next)
        (waiting.erase next, ready)
      let (order, stuck) := place plan fuel state.1 state.2
      (next :: order, stuck)

/-- More steps than placing the operators can take: each operator waiting is
placed once, and at most one more step goes before each such placement. -/
def placementFuel (plan : SubPlan) : Nat :=
  2 * plan.size * plan.size + plan.size + 1

/-- The operators in an order in which each comes after its inputs. -/
def topologicalOrder (plan : SubPlan) : Except Fault (List OpId) :=
  let waiting := plan.waiting
  let ready := (waiting.filter fun _ count => count == 0).keys
  let (order, stuck) := plan.place plan.placementFuel waiting ready
  if order.length = plan.size then .ok order else .error (.cycle stuck.keys)

/-- Check that the plan is well formed; operators are checked in the order of
their identifiers, and cycles last. -/
def validate (plan : SubPlan) : Except Fault Unit :=
  match plan.operators.findSome? plan.operatorFault? with
  | some fault => .error fault
  | none => plan.topologicalOrder.map fun _ => ()

end SubPlan

end BatchFlow
