import BatchFlow.Graph.StageGraph
import BatchFlow.Yaml.Value

/-!
# Definitions of stage plans

What a document says about a stage plan, before it is checked that the stages
and operators fit together.
-/

namespace BatchFlow

/-- What an operator is defined to do.  A load may name a dataset, a stage, both or
neither. -/
inductive StepDefinition where
  | load (dataset : Option String) (stage : Option StageId)
  | other (operation : Operation)

/-- The definition of an operator. -/
structure OperatorDefinition where
  id : OpId
  inputs : List OpId
  step : StepDefinition

/-- The definition of a stage; `after` lists stages that must complete first,
besides those that its loads read. -/
structure StageDefinition where
  id : StageId
  after : List StageId
  kind : StageKind
  info : StageMeta
  operators : List OperatorDefinition

/-- The definition of a stage plan with its settings and the rows of its datasets. -/
structure PlanDefinition where
  settings : OrderedMap String Yaml.Value
  datasets : OrderedMap String (List (List Row))
  stages : List StageDefinition

end BatchFlow
