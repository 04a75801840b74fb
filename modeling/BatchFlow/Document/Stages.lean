import BatchFlow.Config
import BatchFlow.Document.Decoding

/-!
# Stage plans

A stage plan is a stage graph with the settings and datasets that came with it.
It is built from a definition: first all stages, so that their order does not
matter, then the edges.  A stage depends on the stages it names and on those its
loads read.
-/

namespace BatchFlow

/-- A stage graph, its settings as texts, and datasets as files of rows. -/
structure StageDocument where
  graph : StageGraph
  properties : OrderedMap String String
  datasets : OrderedMap String (List (List Row))

namespace StageDocument

/-- What is wrong with a definition, apart from its graph. -/
inductive Fault where
  | noStages
  | duplicateOperator (stage : StageId) (operator : OpId)
  /-- A load names no source or two. -/
  | loadSource (stage : StageId) (operator : OpId)
  /-- A setting is neither a truth value nor a number nor a text. -/
  | setting (value : Yaml.Value)

namespace Fault

/-- The text of a fault. -/
def text : Fault → String
  | noStages => "no stages"
  | duplicateOperator stage operator =>
      "stage " ++ toString stage.value.toNat ++ " has two operators with id "
        ++ toString operator.value.toNat
  | loadSource stage operator =>
      "stage " ++ toString stage.value.toNat ++ " op " ++ toString operator.value.toNat
        ++ ": load needs exactly one of `dataset` or `stage`"
  | setting value => "config values must be scalars, got " ++ value.describe

end Fault

/-- Why a text is no stage plan. -/
inductive Error where
  | unreadable
  | invalid (fault : Fault)
  | plan (error : PlanError)

namespace Error

/-- The message of an error. -/
def message : Error → String
  | unreadable => "yaml: not a stage plan"
  | invalid fault => "invalid stage plan: " ++ fault.text
  | plan error => error.message

end Error

/-- The configuration that the settings describe. -/
def config (document : StageDocument) : EngineConfig :=
  .ofProperties document.properties.get?

/-- Give a setting a value, whether it had one or not. -/
def setProperty (document : StageDocument) (key value : String) : StageDocument :=
  { document with properties := document.properties.insert key value }

/-- The number of files of a dataset. -/
def catalog (document : StageDocument) (name : String) : Option UInt32 :=
  (document.datasets.get? name).map fun files => UInt32.ofNat files.length

end StageDocument

namespace OperatorDefinition

open StageDocument

/-- The operator of a definition. -/
def operator (definition : OperatorDefinition) (stage : StageId) : Except Error Operator :=
  match definition.step with
  | .load (some path) none =>
      .ok ⟨definition.id, .load (.dataset path), definition.inputs⟩
  | .load none (some source) =>
      .ok ⟨definition.id, .load (.stage source), definition.inputs⟩
  | .load _ _ => .error (.invalid (.loadSource stage definition.id))
  | .other operation => .ok ⟨definition.id, operation, definition.inputs⟩

end OperatorDefinition

namespace StageDefinition

open StageDocument

/-- Add the operator of a definition to a plan. -/
def addOperator (stage : StageId) (plan : SubPlan) (definition : OperatorDefinition) :
    Except Error SubPlan :=
  if (plan.get? definition.id).isSome then
    .error (.invalid (.duplicateOperator stage definition.id))
  else (definition.operator stage).map plan.insert

/-- The plan of a definition. -/
def plan (definition : StageDefinition) : Except Error SubPlan :=
  definition.operators.foldlM (addOperator definition.id) .empty

/-- The edges into the stage of a definition with a plan. -/
def edges (definition : StageDefinition) (plan : SubPlan) : List Edge :=
  (definition.after ++ plan.stageInputs.elements).map (⟨·, definition.id⟩)

end StageDefinition

namespace PlanDefinition

open StageDocument

/-- An edit of a graph that says why it fails. -/
def edit (graph : StageGraph) (step : GraphEdit Unit) : Except Error StageGraph :=
  match step.run graph with
  | .ok _ graph => .ok graph
  | .error error _ => .error (.plan error)

/-- Add the stage of a definition to a graph, and its edges to those to be made. -/
def addStage (state : StageGraph × List Edge) (definition : StageDefinition) :
    Except Error (StageGraph × List Edge) := do
  let plan ← definition.plan
  let stage : Stage := ⟨definition.id, definition.kind, plan, definition.info⟩
  let graph ← edit state.1 (StageGraph.insertStage stage)
  return (graph, state.2 ++ definition.edges plan)

/-- The graph of a definition. -/
def graph (definition : PlanDefinition) : Except Error StageGraph := do
  let (graph, edges) ← definition.stages.foldlM addStage (.empty, [])
  edges.foldlM (fun graph edge => edit graph (StageGraph.connect edge.earlier edge.later))
    graph

/-- The text of a setting. -/
def settingText (value : Yaml.Value) : Except Error String :=
  match value.settingText? with
  | some text => .ok text
  | none => .error (.invalid (.setting value))

/-- The settings of a definition as texts. -/
def properties (definition : PlanDefinition) : Except Error (OrderedMap String String) := do
  let entries ← definition.settings.entries.mapM fun (key, value) =>
    (settingText value).map (key, ·)
  return .ofList entries

/-- The stage plan of a definition. -/
def document (definition : PlanDefinition) : Except Error StageDocument := do
  if definition.stages.isEmpty then throw (.invalid .noStages)
  let graph ← definition.graph
  let properties ← definition.properties
  return ⟨graph, properties, definition.datasets⟩

end PlanDefinition

namespace StageDocument

/-- Read the text of a stage plan. -/
def read (text : String) : Except Error StageDocument :=
  match PlanDefinition.ofText? text with
  | some definition => definition.document
  | none => .error .unreadable

end StageDocument

end BatchFlow
