import BatchFlow.Config
import BatchFlow.Graph.Walk

/-!
# Grouping without materialized groups

A group can be consumed as a stream when every grouping operator of the stage
feeds only projections that do not read the group's bag, and everything
downstream of it folds into a bounded state.  The grouping operators of such a
stage are flagged as accumulative.
-/

namespace BatchFlow

/-- Why an operator needs a whole group. -/
inductive Obstacle where
  | consumedDirectly (operation : Operation)
  | readsBag
  | notProjected
  | expression (expr : Expr)
  | sort
  | regrouping
  | load

/-- The text of an obstacle. -/
def Obstacle.text : Obstacle → String
  | consumedDirectly operation => "group consumed directly by " ++ operation.name
  | readsBag => "projection reads the group's bag"
  | notProjected => "group output is not projected"
  | expression expr =>
      "projection " ++ expr.describe ++ " is not computable from an accumulator"
  | sort => "sort requires the full group"
  | regrouping => "regrouping after the grouping point"
  | load => "load downstream of a grouping point"

/-- Whether a plan can group without materialized groups. -/
inductive Qualification where
  | noGrouping
  | qualifies (packages : List OpId)
  | disqualified (operator : OpId) (obstacle : Obstacle)

namespace Qualification

/-- The text of a verdict. -/
def text : Qualification → String
  | noGrouping => "no grouping"
  | qualifies packages => "flagged " ++ toString packages.length ++ " package(s)"
  | disqualified operator obstacle =>
      "left as is (" ++ operator.text ++ ": " ++ obstacle.text ++ ")"

/-- Whether the verdict is to flag the grouping operators. -/
def isQualifies : Qualification → Bool
  | qualifies _ => true
  | _ => false

end Qualification

namespace Expr

/-- Whether the expression reads a column past the group's key. -/
def readsGroupedColumn : Expr → Bool
  | column index => 1 ≤ index
  | _ => false

end Expr

namespace Operation

/-- Why the operation, downstream of a grouping point, needs the whole group. -/
def obstacle? : Operation → Option Obstacle
  | forEach exprs =>
      (exprs.find? fun expr => !expr.isAccumulationSafe).map Obstacle.expression
  | filter _ | limit _ | store _ | join _ _ => none
  | sort _ _ => some .sort
  | package _ _ | rearrange _ => some .regrouping
  | load _ => some .load

/-- Why the operation cannot consume groups as a stream. -/
def consumerObstacle? : Operation → Option Obstacle
  | forEach exprs => if exprs.any Expr.readsGroupedColumn then some .readsBag else none
  | operation => some (.consumedDirectly operation)

end Operation

namespace SubPlan

/-- The first of some operators that has an obstacle. -/
def firstObstacle? (plan : SubPlan) (obstacle? : Operation → Option Obstacle)
    (ids : List OpId) : Option (OpId × Obstacle) :=
  ids.findSome? fun id =>
    (plan.get? id).bind fun operator =>
      (obstacle? operator.operation).map fun obstacle => (id, obstacle)

/-- The first obstacle to consuming the groups of one grouping operator. -/
def packageObstacle? (plan : SubPlan) (package : OpId) : Option (OpId × Obstacle) :=
  plan.firstObstacle? Operation.consumerObstacle? (plan.consumers package)
    <|> (if (plan.consumers package).isEmpty then some (package, .notProjected) else none)
    <|> plan.firstObstacle? Operation.obstacle? (plan.downstreamOf package).elements

/-- Decide whether a plan can group without materialized groups. -/
def qualify (plan : SubPlan) : Qualification :=
  if plan.packages.isEmpty then .noGrouping
  else
    match plan.packages.findSome? plan.packageObstacle? with
    | some (operator, obstacle) => .disqualified operator obstacle
    | none => .qualifies plan.packages

/-- Flag grouping operators as accumulative. -/
def flagPackages (plan : SubPlan) (packages : List OpId) : SubPlan :=
  packages.foldl (fun plan id =>
    plan.modify id fun operator =>
      match operator.operation with
      | .package parallelism _ =>
          { operator with operation := .package parallelism true }
      | _ => operator) plan

end SubPlan

namespace Accumulation

/-- The verdict on one stage; a malformed ordinary stage has none. -/
def assess (graph : StageGraph) (stage : Stage) :
    Except StageFault (StageId × Qualification) :=
  match stage.kind with
  | .concatenate => .ok (stage.id, .noGrouping)
  | .ordinary =>
      match graph.stageFault? stage.id with
      | some fault => .error fault
      | none => .ok (stage.id, stage.plan.qualify)

/-- The faults among results. -/
def faults {α : Type} (results : List (Except StageFault α)) : List StageFault :=
  results.filterMap fun result =>
    match result with
    | .error fault => some fault
    | .ok _ => none

/-- The values among results. -/
def values {α : Type} (results : List (Except StageFault α)) : List α :=
  results.filterMap fun result =>
    match result with
    | .error _ => none
    | .ok value => some value

/-- One error for all faulty stages. -/
def combineFaults (pass : String) : List StageFault → Option PlanError
  | [] => none
  | [fault] => some (.atStage fault)
  | faults => some (.atStages pass faults)

/-- Flag the grouping operators of a stage that qualifies. -/
def apply (verdict : StageId × Qualification) : GraphEdit Unit := do
  match verdict with
  | (id, .qualifies packages) =>
      if !(← get).stageMap.contains id then throw (.stageVanished id)
      modify fun graph =>
        graph.modifyStage id fun stage =>
          { stage with plan := stage.plan.flagPackages packages }
  | _ => return ()

end Accumulation

end BatchFlow
