import BatchFlow.Optimizer.Pipeline

/-!
# Reports of decisions

Decisions and reports as JSON, and a graph with its report as lines of text.
-/

namespace BatchFlow

namespace Qualification

/-- The fields of a verdict in JSON. -/
def toJson : Qualification → Json
  | noGrouping => .object [("result", .string "no_grouping")]
  | qualifies packages =>
      .object [("result", .string "qualifies"),
        ("packages", .array (packages.map OpId.toJson))]
  | disqualified operator obstacle =>
      .object [("result", .string "unsafe"), ("op", operator.toJson),
        ("reason", .string obstacle.text)]

end Qualification

namespace SkipReason

/-- The fields of a reason in JSON. -/
def fields : SkipReason → List (Json.Name × Json)
  | splitCombinationEnabled => [("reason", .string "split_combination_enabled")]
  | unknownFileCount => [("reason", .string "unknown_file_count")]
  | withinThreshold files threshold =>
      [("reason", .string "within_threshold"), ("files", .halfWord files),
        ("threshold", .halfWord threshold)]
  | alreadyConcatenated => [("reason", .string "already_concatenated")]
  | notStageBacked => [("reason", .string "not_stage_backed")]

/-- The JSON form of a reason. -/
def toJson (reason : SkipReason) : Json :=
  .object reason.fields

end SkipReason

namespace RepairState

/-- The JSON form of a state. -/
def toJson : RepairState → Json
  | noOp reason => .object (("state", .string "no_op") :: reason.fields)
  | stageInserted source concatenate files =>
      .object [("state", .string "stage_inserted"), ("source", source.toJson),
        ("concatenate", concatenate.toJson), ("files", .halfWord files)]

end RepairState

namespace Decision

/-- The JSON form of a decision. -/
def toJson : Decision → Json
  | accumulative stage outcome =>
      .object [("pass", .string "accumulative"), ("stage", stage.toJson),
        ("outcome", outcome.toJson)]
  | joinRepair stage join side state =>
      .object [("pass", .string "join_repair"), ("stage", stage.toJson),
        ("join", join.toJson), ("side", .integer side), ("state", state.toJson)]

end Decision

namespace PassOutcome

/-- The JSON form of what a pass did. -/
def toJson (outcome : PassOutcome) : Json :=
  .object [("pass", .string outcome.pass), ("stages_visited", .integer outcome.stagesVisited),
    ("decisions", .array (outcome.decisions.map Decision.toJson))]

/-- The lines about what a pass did. -/
def lines (outcome : PassOutcome) : List String :=
  ("pass " ++ outcome.pass ++ ": " ++ toString outcome.stagesVisited ++ " stage(s), "
    ++ toString outcome.changed ++ " change(s)")
  :: outcome.decisions.map fun decision => "  " ++ decision.text

end PassOutcome

namespace OptimizationReport

/-- The JSON form of a report. -/
def toJson (report : OptimizationReport) : Json :=
  .object [("passes", .array (report.passes.map PassOutcome.toJson)),
    ("before", report.before.toJson), ("after", report.after.toJson)]

/-- The lines about a report. -/
def lines (report : OptimizationReport) : List String :=
  ("plan " ++ report.before.short ++ " -> " ++ report.after.short)
    :: report.passes.flatMap PassOutcome.lines

end OptimizationReport

namespace Operation

/-- What an operation does, for a rendered plan. -/
def detail : Operation → String
  | load (.dataset path) => "dataset " ++ path
  | load (.stage id) => "output of " ++ id.text
  | filter predicate =>
      "$" ++ toString predicate.column.toNat ++ " " ++ predicate.comparison.name ++ " "
        ++ predicate.value.describe
  | rearrange key => "key $" ++ toString key.toNat
  | package parallelism accumulative =>
      "parallel " ++ parallelism.elim "default" (fun count => toString count.toNat)
        ++ (if accumulative then " accumulative" else "")
  | forEach exprs => toString exprs.length ++ " expr(s)"
  | sort column descending =>
      "$" ++ toString column.toNat ++ (if descending then " desc" else " asc")
  | limit count => toString count.toNat
  | join keys fragment =>
      "keys " ++ Text.bracketed (keys.map fun key => toString key.toNat) ++ " fragment "
        ++ toString fragment.toNat
  | store target => target

end Operation

namespace Operator

/-- The line of an operator in a rendered plan. -/
def line (operator : Operator) : String :=
  operator.id.text ++ " " ++ operator.operation.name ++ " " ++ operator.operation.detail
    ++ (if operator.inputs.isEmpty then ""
      else " <- " ++ String.intercalate ", " (operator.inputs.map OpId.text))

end Operator

namespace StageGraph

/-- The lines of a stage and its operators. -/
def stageLines (graph : StageGraph) (stage : Stage) : List String :=
  let predecessors := graph.predecessors stage.id
  (stage.id.text ++ " [" ++ stage.kind.lowerName ++ "] files=" ++ stage.info.outputFiles.text
    ++ (if predecessors.isEmpty then ""
      else " after " ++ String.intercalate ", " (predecessors.map StageId.text)))
  :: stage.plan.operators.map fun operator => "  " ++ operator.line

/-- The lines of a graph, stage after stage, and of a report if there is one. -/
def renderLines (graph : StageGraph) (report : Option OptimizationReport) : List String :=
  graph.stages.flatMap graph.stageLines ++ report.elim [] OptimizationReport.lines

/-- The rendered text of a graph, every line ended. -/
def render (graph : StageGraph) (report : Option OptimizationReport) : String :=
  String.join ((graph.renderLines report).map (· ++ "\n"))

end StageGraph

end BatchFlow
