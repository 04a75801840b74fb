import BatchFlow.Graph.StageGraph
import BatchFlow.Json.Reader
import BatchFlow.Plan.Encoding

/-!
# Stage graphs as JSON

The compact JSON text of a graph is what its fingerprint is taken from.  Text
is read to a depth of 127 arrays and objects.
-/

namespace BatchFlow

namespace FileCount

/-- The JSON form of a file count. -/
def toJson : FileCount → Json
  | known files => .single "Known" (.halfWord files)
  | unknown => .string "Unknown"

/-- Read a file count. -/
def ofJson? (value : Json) : Option FileCount :=
  match value.variant? with
  | some ("Known", some content) => content.halfWord?.map known
  | _ => if value.bareVariant? = some "Unknown" then some unknown else none

end FileCount

namespace StageKind

/-- Read a kind of stage. -/
def ofJson? (value : Json) : Option StageKind :=
  match value.bareVariant? with
  | some "Ordinary" => some ordinary
  | some "Concatenate" => some concatenate
  | _ => none

end StageKind

namespace StageMeta

/-- The JSON form of what is known of a stage. -/
def toJson (info : StageMeta) : Json :=
  .object [("output_files", info.outputFiles.toJson),
    ("parallelism", .optional .halfWord info.parallelism)]

/-- Read what is known of a stage. -/
def ofJson? (value : Json) : Option StageMeta :=
  match value.record? [("output_files", .defaulted), ("parallelism", .defaulted)] with
  | some [outputFiles, parallelism] => do
      return {
        outputFiles := ← FileCount.ofJson? (outputFiles.getD (.string "Unknown"))
        parallelism := ← (parallelism.getD .null).option? Json.halfWord? }
  | _ => none

end StageMeta

namespace Stage

/-- The JSON form of a stage. -/
def toJson (stage : Stage) : Json :=
  .object [("id", stage.id.toJson), ("kind", .string stage.kind.name),
    ("plan", stage.plan.toJson), ("meta", stage.info.toJson)]

/-- Read a stage. -/
def ofJson? (room : Nat) (value : Json) : Option Stage :=
  match value.record?
    [("id", .required), ("kind", .required), ("plan", .required), ("meta", .required)] with
  | some [some id, some kind, some plan, some info] => do
      return {
        id := ← StageId.ofJson? id
        kind := ← StageKind.ofJson? kind
        plan := ← SubPlan.ofJson? (room - 1) plan
        info := ← StageMeta.ofJson? info }
  | _ => none

end Stage

namespace Edge

/-- The JSON form of an edge. -/
def toJson (edge : Edge) : Json :=
  .array [edge.earlier.toJson, edge.later.toJson]

/-- Read an edge. -/
def ofJson? (value : Json) : Option Edge :=
  match value with
  | .array [earlier, later] => do
      return ⟨← StageId.ofJson? earlier, ← StageId.ofJson? later⟩
  | _ => none

end Edge

namespace StageGraph

/-- The JSON form of a graph. -/
def toJson (graph : StageGraph) : Json :=
  .object [
    ("stages", .object (graph.stageMap.entries.map fun (id, stage) =>
      (toString id.value.toNat, stage.toJson))),
    ("edges", .array (graph.edges.elements.map Edge.toJson)),
    ("next_id", .word graph.nextId)]

/-- Read a stage and its key. -/
def entryOfJson? (room : Nat) (entry : Json.Name × Json) : Option (StageId × Stage) := do
  return (StageId.mk (← Json.wordName? entry.1), ← Stage.ofJson? room entry.2)

/-- Read a graph. -/
def ofJson? (room : Nat) (value : Json) : Option StageGraph :=
  match value.record?
    [("stages", .required), ("edges", .required), ("next_id", .required)] with
  | some [some stages, some edges, some nextId] => do
      let entries ← stages.object?
      return {
        stageMap := .ofList (← entries.mapM (entryOfJson? (room - 2)))
        edges := .ofList (← edges.list? Edge.ofJson?)
        nextId := ← nextId.word? }
  | _ => none

/-- The text of a graph, written by a writer of JSON. -/
def textBy (write : Json → String) (graph : StageGraph) : String :=
  write graph.toJson

/-- The compact JSON text of a graph. -/
def text (graph : StageGraph) : String :=
  graph.textBy Json.text

/-- Read the text of a graph with a reader of JSON, in which so many arrays and objects
may be nested. -/
def ofTextBy? (read : String → Option Json) (room : Nat) (text : String) : Option StageGraph :=
  (read text).bind (ofJson? room)

end StageGraph

/-- How many arrays and objects may be nested in a text. -/
def textRoom : Nat :=
  127

/-- Read the text of a plan. -/
def SubPlan.ofText? (text : String) : Option SubPlan :=
  (Json.read? text).bind (SubPlan.ofJson? textRoom)

/-- Read the text of a graph. -/
def StageGraph.ofText? (text : String) : Option StageGraph :=
  StageGraph.ofTextBy? Json.read? textRoom text

end BatchFlow
