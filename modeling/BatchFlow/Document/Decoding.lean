import BatchFlow.Document.Definition
import BatchFlow.Document.Field

/-!
# Reading definitions

A stage plan is a mapping with `config`, `datasets` and `stages`.  Other fields of a
plan or a stage are not read at all; those of an operator are read and ignored.
-/

namespace BatchFlow

open Yaml

/-- How deep documents may be nested. -/
def documentDepth : Nat :=
  128

/-- The room for nesting in a setting: it stands in two mappings. -/
def settingRoom : Nat :=
  documentDepth - 2

/-- The room for nesting in a field of an operator: it stands in the operator, its
list, the stage, its list and the document. -/
def operatorFieldRoom : Nat :=
  documentDepth - 5

namespace AggregateFunction

/-- The function of a name; a name of no standard function is a custom one. -/
def ofName (name : String) (accumulative : Bool) : AggregateFunction :=
  match name with
  | "count" => count
  | "sum" => sum
  | "min" => min
  | "max" => max
  | "avg" => average
  | name => custom name accumulative

end AggregateFunction

namespace Comparison

/-- The names of comparisons in documents. -/
def documentNames : List String :=
  ["eq", "ne", "lt", "le", "gt", "ge"]

/-- The comparison of a name in documents. -/
def ofDocumentName? : String → Option Comparison
  | "eq" => some equal
  | "ne" => some notEqual
  | "lt" => some less
  | "le" => some lessOrEqual
  | "gt" => some greater
  | "ge" => some greaterOrEqual
  | _ => none

/-- The comparison that a value names. -/
def ofValue? (value : Value) : Option Comparison :=
  (value.bareChoice? documentNames).bind ofDocumentName?

end Comparison

namespace Expr

/-- The kinds of expressions in documents. -/
def documentKinds : List String :=
  ["column", "literal", "group_key", "aggregate", "bag"]

/-- The fields of a kind of expression, in their order. -/
def documentFields : String → List String
  | "column" => ["index"]
  | "literal" => ["value"]
  | "aggregate" => ["func", "column", "distinct", "accumulative"]
  | _ => []

/-- The expression of a kind with its fields. -/
def ofFields? (kind : String) (fields : List (String × Value)) : Option Expr :=
  match kind with
  | "column" => ((requiredField? "index" fields).bind Value.word?).map column
  | "literal" => ((requiredField? "value" fields).bind Value.scalar?).map literal
  | "group_key" => some groupKey
  | "aggregate" => do
      let name ← (requiredField? "func" fields).bind Value.text?
      let index ← (requiredField? "column" fields).bind Value.word?
      let distinct ← decodeField? false Value.bool? "distinct" fields
      let accumulative ← decodeField? false Value.bool? "accumulative" fields
      return aggregate (.ofName name accumulative) index distinct
  | "bag" => some bag
  | _ => none

/-- The expression of a mapping with its kind among the fields, or of a sequence
that begins with its kind. -/
def ofValue? : Value → Option Expr
  | .mapping entries => do
      let (kinds, others) := entries.partition fun entry =>
        match entry.1 with
        | .text name => name == "kind"
        | _ => false
      let [(_, kind)] := kinds | none
      let kind ← kind.choice? documentKinds
      let names := documentFields kind
      let fields ← if names.isEmpty then some [] else Value.namedFields? names others
      ofFields? kind fields
  | .sequence (kind :: values) => do
      let kind ← kind.choice? documentKinds
      ofFields? kind (← Value.orderedFields? (documentFields kind) values)
  | _ => none

end Expr

namespace StepDefinition

/-- The kinds of steps in documents. -/
def documentKinds : List String :=
  ["load", "filter", "local_rearrange", "package", "foreach", "sort", "limit", "frjoin",
    "store"]

/-- The step of a kind with its fields. -/
def ofFields? (kind : String) (fields : List (String × Value)) : Option StepDefinition :=
  let word := fun name => (requiredField? name fields).bind Value.word?
  match kind with
  | "load" => do
      let dataset ← decodeField? none (Value.option? Value.text?) "dataset" fields
      let stage ← decodeField? none (Value.option? Value.word?) "stage" fields
      return .load dataset (stage.map StageId.mk)
  | "filter" => do
      let column ← word "column"
      let comparison ← (requiredField? "cmp" fields).bind Comparison.ofValue?
      let value ← (requiredField? "value" fields).bind Value.scalar?
      return .other (.filter ⟨column, comparison, value⟩)
  | "local_rearrange" => do
      return .other (.rearrange (← word "key"))
  | "package" => do
      let parallelism ←
        decodeField? none (Value.option? Value.halfWord?) "parallelism" fields
      return .other (.package parallelism false)
  | "foreach" => do
      let exprs ← (requiredField? "exprs" fields).bind (Value.list? Expr.ofValue?)
      return .other (.forEach exprs)
  | "sort" => do
      let column ← word "column"
      let descending ← decodeField? false Value.bool? "descending" fields
      return .other (.sort column descending)
  | "limit" => do
      return .other (.limit (← word "n"))
  | "frjoin" => do
      let keys ← (requiredField? "keys" fields).bind (Value.list? Value.word?)
      let fragment ← decodeField? 0 Value.word? "fragment" fields
      return .other (.join keys fragment)
  | "store" => do
      return .other (.store (← (requiredField? "target" fields).bind Value.text?))
  | _ => none

end StepDefinition

namespace OperatorDefinition

/-- The fields of every operator. -/
def ownFields : List String :=
  ["id", "input", "inputs"]

/-- The value of a field of a step.  Tags of the document's own have no meaning
there. -/
def fieldValue? (node : Node) : Option Value :=
  (Value.ofNode? operatorFieldRoom node).filter fun value => !value.hasTag

/-- The operator that a node defines.  Its `input` comes before its `inputs`. -/
def ofNode? (node : Node) : Option OperatorDefinition := do
  let .mapping _ _ := node | none
  let (own, others) := (← node.entries?).partition fun entry => ownFields.contains entry.1
  let id ← (requiredField? "id" own).bind Node.word?
  let input ← decodeField? none (Node.option? Node.word?) "input" own
  let inputs ← decodeField? [] (Node.list? Node.word?) "inputs" own
  let fields ← others.mapM fun (name, node) => (fieldValue? node).map (name, ·)
  let kind ← (requiredField? "op" fields).bind (Value.choice? StepDefinition.documentKinds)
  let step ← StepDefinition.ofFields? kind fields
  return ⟨⟨id⟩, (input.toList ++ inputs).map OpId.mk, step⟩

end OperatorDefinition

namespace StageKind

/-- The kind of a name in documents. -/
def ofLowerName? (name : String) : Option StageKind :=
  if name = ordinary.lowerName then some ordinary
  else if name = concatenate.lowerName then some concatenate
  else none

end StageKind

namespace StageDefinition

/-- The fields of a stage. -/
def scope : Scope :=
  .fields [("id", .whole), ("after", .whole), ("kind", .whole), ("output_files", .whole),
    ("parallelism", .whole), ("ops", .whole)]

/-- The stage that a node defines. -/
def ofNode? (node : Node) : Option StageDefinition := do
  let fields ← node.entries?
  let id ← (requiredField? "id" fields).bind Node.word?
  let after ← decodeField? [] (Node.list? Node.word?) "after" fields
  let kind ← decodeField? .ordinary
    (fun node : Node => node.variant?.bind StageKind.ofLowerName?) "kind" fields
  let outputFiles ← decodeField? none (Node.option? Node.halfWord?) "output_files" fields
  let parallelism ← decodeField? none (Node.option? Node.halfWord?) "parallelism" fields
  let operators ← (requiredField? "ops" fields).bind (Node.list? OperatorDefinition.ofNode?)
  return {
    id := ⟨id⟩
    after := after.map StageId.mk
    kind := kind
    info := ⟨.ofOption outputFiles, parallelism⟩
    operators := operators }

end StageDefinition

namespace PlanDefinition

/-- The fields of a plan. -/
def scope : Scope :=
  .fields [("config", .whole), ("datasets", .whole), ("stages", .items StageDefinition.scope)]

/-- The value of a setting; no mapping in it has a key twice. -/
def setting? (node : Node) : Option Value :=
  (Value.ofNode? settingRoom node).filter fun value => !value.hasDuplicateKey

/-- The value of a cell. -/
def cell? (node : Node) : Option Scalar :=
  ((Value.ofNode? 0 node).filter fun value => !value.hasTag).bind Value.scalar?

/-- Entries under names; of equal names the last counts. -/
def named? {α : Type} (decode? : Node → Option α) (node : Node) :
    Option (OrderedMap String α) := do
  let entries ← (← node.entries?).mapM fun (name, node) => (decode? node).map (name, ·)
  return .ofList entries

/-- The plan that a node defines. -/
def ofNode? (node : Node) : Option PlanDefinition := do
  let fields ← node.entries?
  return {
    settings := ← decodeField? ∅ (named? setting?) "config" fields
    datasets := ←
      decodeField? ∅ (named? (Node.list? (Node.list? (Node.list? cell?)))) "datasets" fields
    stages := ← (requiredField? "stages" fields).bind (Node.list? StageDefinition.ofNode?) }

/-- The plan that a text defines. -/
def ofText? (text : String) : Option PlanDefinition :=
  (Node.ofText? text scope).bind ofNode?

end PlanDefinition

end BatchFlow
