import BatchFlow.Json.Record
import BatchFlow.Plan.SubPlan

/-!
# Plans as JSON

Each type is written in one way and read back from the same form, with some
freedom: fields may come in any order, and those with a default may be missing.
Arrays and objects are read only to a certain depth, which bounds how deeply
bags may be nested; `room` is the number of levels left.
-/

namespace BatchFlow

namespace Scalar

mutual

/-- The JSON form of a scalar. -/
def toJson : Scalar → Json
  | null => .string "Null"
  | bool value => .single "Bool" (.bool value)
  | int value => .single "I64" (.integer value.toInt)
  | float value => .single "F64" (.real value)
  | text value => .single "Str" (.string value)
  | bag rows => .single "Bag" (.array (rowsToJson rows))

/-- The JSON forms of cells. -/
def cellsToJson : List Scalar → List Json
  | [] => []
  | cell :: cells => toJson cell :: cellsToJson cells

/-- The JSON forms of rows. -/
def rowsToJson : List (List Scalar) → List Json
  | [] => []
  | row :: rows => .array (cellsToJson row) :: rowsToJson rows

end

mutual

/-- Read a scalar. -/
def ofJson? : Json → Option Scalar
  | .string name => if name = "Null" then some null else none
  | .object [(name, value)] =>
      match name.text? with
      | some "Null" => match value with
        | .null => some null
        | _ => none
      | some "Bool" => value.bool?.map bool
      | some "I64" => value.signedWord?.map int
      | some "F64" => value.binary64?.map float
      | some "Str" => value.string?.map text
      | some "Bag" => match value with
        | .array rows => (rowsOfJson? rows).map bag
        | _ => none
      | _ => none
  | _ => none

/-- Read cells. -/
def cellsOfJson? : List Json → Option (List Scalar)
  | [] => some []
  | cell :: cells =>
      match ofJson? cell, cellsOfJson? cells with
      | some cell, some cells => some (cell :: cells)
      | _, _ => none

/-- Read rows. -/
def rowsOfJson? : List Json → Option (List (List Scalar))
  | [] => some []
  | .array cells :: rows =>
      match cellsOfJson? cells, rowsOfJson? rows with
      | some cells, some rows => some (cells :: rows)
      | _, _ => none
  | _ :: _ => none

end

/-- Read a scalar that is nested no deeper than the room left. -/
def ofJsonWithin? (room : Nat) (value : Json) : Option Scalar :=
  if value.depth ≤ room then ofJson? value else none

end Scalar

/-- The JSON form of a row. -/
def Row.toJson (row : Row) : Json :=
  .array (row.map Scalar.toJson)

namespace StageId

/-- The JSON form of a stage identifier. -/
def toJson (id : StageId) : Json :=
  .word id.value

/-- Read a stage identifier. -/
def ofJson? (value : Json) : Option StageId :=
  value.word?.map StageId.mk

end StageId

namespace OpId

/-- The JSON form of an operator identifier. -/
def toJson (id : OpId) : Json :=
  .word id.value

/-- Read an operator identifier. -/
def ofJson? (value : Json) : Option OpId :=
  value.word?.map OpId.mk

end OpId

namespace LoadSource

/-- The JSON form of a source. -/
def toJson : LoadSource → Json
  | dataset path => .single "Dataset" (.string path)
  | stage id => .single "Stage" id.toJson

/-- Read a source. -/
def ofJson? (value : Json) : Option LoadSource :=
  match value.variant? with
  | some ("Dataset", some content) => content.string?.map dataset
  | some ("Stage", some content) => (StageId.ofJson? content).map stage
  | _ => none

end LoadSource

namespace Comparison

/-- The comparison of a name. -/
def ofName? (name : String) : Option Comparison :=
  match name with
  | "Eq" => some equal
  | "Ne" => some notEqual
  | "Lt" => some less
  | "Le" => some lessOrEqual
  | "Gt" => some greater
  | "Ge" => some greaterOrEqual
  | _ => none

end Comparison

namespace Predicate

/-- The JSON form of a predicate. -/
def toJson (predicate : Predicate) : Json :=
  .object [("column", .word predicate.column),
    ("op", .string predicate.comparison.name),
    ("value", predicate.value.toJson)]

/-- Read a predicate. -/
def ofJson? (room : Nat) (value : Json) : Option Predicate :=
  match value.record? [("column", .required), ("op", .required), ("value", .required)] with
  | some [some column, some comparison, some value] => do
      return {
        column := ← column.word?
        comparison := ← comparison.bareVariant?.bind Comparison.ofName?
        value := ← Scalar.ofJsonWithin? (room - 1) value }
  | _ => none

end Predicate

namespace AggregateFunction

/-- The JSON form of a function. -/
def toJson : AggregateFunction → Json
  | count => .string "Count"
  | sum => .string "Sum"
  | min => .string "Min"
  | max => .string "Max"
  | average => .string "Avg"
  | custom name accumulative =>
      .single "Udf" (.object [("name", .string name), ("accumulative", .bool accumulative)])

/-- Read a function. -/
def ofJson? (value : Json) : Option AggregateFunction :=
  match value.variant? with
  | some ("Udf", some content) =>
      match content.record? [("name", .required), ("accumulative", .required)] with
      | some [some name, some accumulative] => do
          return .custom (← name.string?) (← accumulative.bool?)
      | _ => none
  | _ =>
      match value.bareVariant? with
      | some "Count" => some count
      | some "Sum" => some sum
      | some "Min" => some min
      | some "Max" => some max
      | some "Avg" => some average
      | _ => none

end AggregateFunction

namespace Expr

/-- The JSON form of an expression. -/
def toJson : Expr → Json
  | column index => .single "Column" (.word index)
  | literal value => .single "Literal" value.toJson
  | groupKey => .string "GroupKey"
  | aggregate function index distinct =>
      .single "Aggregate" (.object [("func", function.toJson), ("column", .word index),
        ("distinct", .bool distinct)])
  | bag => .string "Bag"

/-- Read an expression. -/
def ofJson? (room : Nat) (value : Json) : Option Expr :=
  match value.variant? with
  | some ("Column", some content) => content.word?.map column
  | some ("Literal", some content) => (Scalar.ofJsonWithin? (room - 1) content).map literal
  | some ("Aggregate", some content) =>
      match content.record?
        [("func", .required), ("column", .required), ("distinct", .required)] with
      | some [some function, some index, some distinct] => do
          return .aggregate (← AggregateFunction.ofJson? function) (← index.word?)
            (← distinct.bool?)
      | _ => none
  | _ =>
      match value.bareVariant? with
      | some "GroupKey" => some groupKey
      | some "Bag" => some bag
      | _ => none

end Expr

namespace Operation

/-- The JSON form of an operation. -/
def toJson : Operation → Json
  | load source => .single "Load" (.object [("source", source.toJson)])
  | filter predicate => .single "Filter" (.object [("predicate", predicate.toJson)])
  | rearrange key => .single "LocalRearrange" (.object [("key", .word key)])
  | package parallelism accumulative =>
      .single "Package" (.object [("parallelism", .optional .halfWord parallelism),
        ("accumulative", .bool accumulative)])
  | forEach exprs =>
      .single "ForEach" (.object [("exprs", .array (exprs.map Expr.toJson))])
  | sort column descending =>
      .single "Sort" (.object [("column", .word column), ("descending", .bool descending)])
  | limit count => .single "Limit" (.object [("n", .word count)])
  | join keys fragment =>
      .single "FrJoin" (.object [("keys", .array (keys.map Json.word)),
        ("fragment", .word fragment)])
  | store target => .single "Store" (.object [("target", .string target)])

/-- Read the fields of an operation. -/
def ofFields? (room : Nat) (name : String) (content : Json) : Option Operation :=
  match name with
  | "Load" =>
      match content.record? [("source", .required)] with
      | some [some source] => (LoadSource.ofJson? source).map load
      | _ => none
  | "Filter" =>
      match content.record? [("predicate", .required)] with
      | some [some predicate] => (Predicate.ofJson? (room - 2) predicate).map filter
      | _ => none
  | "LocalRearrange" =>
      match content.record? [("key", .required)] with
      | some [some key] => key.word?.map rearrange
      | _ => none
  | "Package" =>
      match content.record? [("parallelism", .nullable), ("accumulative", .defaulted)] with
      | some [parallelism, accumulative] => do
          return .package (← (parallelism.getD .null).option? Json.halfWord?)
            (← (accumulative.getD (.bool false)).bool?)
      | _ => none
  | "ForEach" =>
      match content.record? [("exprs", .required)] with
      | some [some exprs] => (exprs.list? (Expr.ofJson? (room - 3))).map forEach
      | _ => none
  | "Sort" =>
      match content.record? [("column", .required), ("descending", .defaulted)] with
      | some [some column, descending] => do
          return .sort (← column.word?) (← (descending.getD (.bool false)).bool?)
      | _ => none
  | "Limit" =>
      match content.record? [("n", .required)] with
      | some [some count] => count.word?.map limit
      | _ => none
  | "FrJoin" =>
      match content.record? [("keys", .required), ("fragment", .required)] with
      | some [some keys, some fragment] => do
          return .join (← keys.list? Json.word?) (← fragment.word?)
      | _ => none
  | "Store" =>
      match content.record? [("target", .required)] with
      | some [some target] => target.string?.map store
      | _ => none
  | _ => none

/-- Read an operation. -/
def ofJson? (room : Nat) (value : Json) : Option Operation :=
  match value.variant? with
  | some (name, some content) => ofFields? room name content
  | _ => none

end Operation

namespace Operator

/-- The JSON form of an operator. -/
def toJson (operator : Operator) : Json :=
  .object [("id", operator.id.toJson), ("kind", operator.operation.toJson),
    ("inputs", .array (operator.inputs.map OpId.toJson))]

/-- Read an operator. -/
def ofJson? (room : Nat) (value : Json) : Option Operator :=
  match value.record? [("id", .required), ("kind", .required), ("inputs", .defaulted)] with
  | some [some id, some operation, inputs] => do
      return {
        id := ← OpId.ofJson? id
        operation := ← Operation.ofJson? (room - 1) operation
        inputs := ← (inputs.getD (.array [])).list? OpId.ofJson? }
  | _ => none

end Operator

namespace SubPlan

/-- The JSON form of a plan. -/
def toJson (plan : SubPlan) : Json :=
  .object [
    ("ops", .object (plan.operatorMap.entries.map fun (id, operator) =>
      (toString id.value.toNat, operator.toJson))),
    ("next_id", .word plan.nextId)]

/-- Read an operator and its key. -/
def entryOfJson? (room : Nat) (entry : Json.Name × Json) : Option (OpId × Operator) := do
  return (OpId.mk (← Json.wordName? entry.1), ← Operator.ofJson? room entry.2)

/-- Read a plan. -/
def ofJson? (room : Nat) (value : Json) : Option SubPlan :=
  match value.record? [("ops", .required), ("next_id", .required)] with
  | some [some operators, some nextId] => do
      let entries ← operators.object?
      return {
        operatorMap := .ofList (← entries.mapM (entryOfJson? (room - 2)))
        nextId := ← nextId.word? }
  | _ => none

end SubPlan

end BatchFlow
