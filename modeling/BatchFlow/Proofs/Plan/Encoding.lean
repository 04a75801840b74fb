import BatchFlow.Plan.Encoding
import BatchFlow.Proofs.Json.Records
import BatchFlow.Proofs.Lookup
import BatchFlow.Proofs.ScalarOrder

/-!
# Reading plans back

The JSON form of a plan without doubles is readable, and it is decoded to the plan where
it is nested no deeper than the room left.  Only literals are nested without a bound, and
only their depth is looked at, so the room must suffice for the rest of a plan.
-/

namespace BatchFlow

namespace Scalar

/-- Whether no double occurs in the scalar, also inside its bags. -/
def FloatFree (value : Scalar) : Prop :=
  value.Draws (fun _ => True) (fun _ => False)

mutual

theorem readable_toJson (value : Scalar) (free : value.FloatFree) : value.toJson.Readable := by
  cases value with
  | null => exact .string
  | bool value => exact .single (by decide) .bool
  | int value => exact .single (by decide) (Json.readable_signedWord value)
  | float value => exact free.elim
  | text value => exact .single (by decide) .string
  | bag rows =>
      refine .single (by decide) (.array fun row member => ?_)
      exact readable_of_mem_rowsToJson rows free row member

theorem readable_of_mem_cellsToJson (cells : List Scalar)
    (free : RowDraws (fun _ => True) (fun _ => False) cells) (cell : Json)
    (member : cell ∈ cellsToJson cells) : cell.Readable := by
  cases cells with
  | nil => simp [cellsToJson] at member
  | cons first cells =>
      rcases List.mem_cons.mp member with rfl | inRest
      · exact readable_toJson first free.1
      · exact readable_of_mem_cellsToJson cells free.2 cell inRest

theorem readable_of_mem_rowsToJson (rows : List (List Scalar))
    (free : RowsDraw (fun _ => True) (fun _ => False) rows) (row : Json)
    (member : row ∈ rowsToJson rows) : row.Readable := by
  cases rows with
  | nil => simp [rowsToJson] at member
  | cons first rows =>
      rcases List.mem_cons.mp member with rfl | inRest
      · exact .array (readable_of_mem_cellsToJson first free.1)
      · exact readable_of_mem_rowsToJson rows free.2 row inRest

end

mutual

theorem ofJson?_toJson (value : Scalar) (free : value.FloatFree) :
    ofJson? value.toJson = some value := by
  cases value with
  | null => rfl
  | bool value => rfl
  | int value => simp [toJson, Json.single, ofJson?, Json.Name.text?]
  | float value => exact free.elim
  | text value => rfl
  | bag rows =>
      simp [toJson, Json.single, ofJson?, Json.Name.text?, rowsOfJson?_rowsToJson rows free]

theorem cellsOfJson?_cellsToJson (cells : List Scalar)
    (free : RowDraws (fun _ => True) (fun _ => False) cells) :
    cellsOfJson? (cellsToJson cells) = some cells := by
  cases cells with
  | nil => rfl
  | cons cell cells =>
      simp [cellsToJson, cellsOfJson?, ofJson?_toJson cell free.1,
        cellsOfJson?_cellsToJson cells free.2]

theorem rowsOfJson?_rowsToJson (rows : List (List Scalar))
    (free : RowsDraw (fun _ => True) (fun _ => False) rows) :
    rowsOfJson? (rowsToJson rows) = some rows := by
  cases rows with
  | nil => rfl
  | cons row rows =>
      simp [rowsToJson, rowsOfJson?, cellsOfJson?_cellsToJson row free.1,
        rowsOfJson?_rowsToJson rows free.2]

end

theorem ofJsonWithin?_toJson {value : Scalar} (free : value.FloatFree) (room : Nat) :
    ofJsonWithin? room value.toJson = if value.toJson.depth ≤ room then some value else none := by
  rw [ofJsonWithin?, ofJson?_toJson value free]

end Scalar

section Identifiers

@[simp]
theorem StageId.readable_toJson (id : StageId) : id.toJson.Readable :=
  Json.readable_word id.value

@[simp]
theorem StageId.depth_toJson (id : StageId) : id.toJson.depth = 0 :=
  rfl

@[simp]
theorem StageId.ofJson?_toJson (id : StageId) : ofJson? id.toJson = some id := by
  simp [ofJson?, toJson]

@[simp]
theorem OpId.readable_toJson (id : OpId) : id.toJson.Readable :=
  Json.readable_word id.value

@[simp]
theorem OpId.depth_toJson (id : OpId) : id.toJson.depth = 0 :=
  rfl

@[simp]
theorem OpId.ofJson?_toJson (id : OpId) : ofJson? id.toJson = some id := by
  simp [ofJson?, toJson]

end Identifiers

namespace LoadSource

theorem readable_toJson (source : LoadSource) : source.toJson.Readable := by
  cases source with
  | dataset path => exact .single (by decide) .string
  | stage id => exact .single (by decide) id.readable_toJson

@[simp]
theorem depth_toJson (source : LoadSource) : source.toJson.depth = 1 := by
  cases source <;> rfl

@[simp]
theorem ofJson?_toJson (source : LoadSource) : ofJson? source.toJson = some source := by
  cases source <;>
    simp [toJson, ofJson?, Json.string?]

end LoadSource

@[simp]
theorem Comparison.ofName?_name (comparison : Comparison) :
    ofName? comparison.name = some comparison := by
  cases comparison <;> rfl

namespace Predicate

theorem readable_toJson {predicate : Predicate} (free : predicate.value.FloatFree) :
    predicate.toJson.Readable := by
  simp +decide [toJson, Scalar.readable_toJson _ free]

theorem ofJson?_toJson {predicate : Predicate} (free : predicate.value.FloatFree) {room : Nat}
    (enough : 1 ≤ room) :
    ofJson? room predicate.toJson =
      if predicate.toJson.depth ≤ room then some predicate else none := by
  have depth : predicate.toJson.depth = predicate.value.toJson.depth + 1 := by
    simp [toJson, Json.depth, Json.depthOfEntries]
  have decoded : ofJson? room predicate.toJson =
      if predicate.value.toJson.depth ≤ room - 1 then some predicate else none := by
    simp [toJson, ofJson?, Json.record?, Scalar.ofJsonWithin?_toJson free]
  rw [decoded, depth]
  exact if_congr (by omega) rfl rfl

end Predicate

namespace AggregateFunction

theorem readable_toJson (function : AggregateFunction) : function.toJson.Readable := by
  cases function with
  | custom name accumulative => exact .single (by decide) (by simp +decide)
  | _ => exact .string

theorem depth_toJson_le (function : AggregateFunction) : function.toJson.depth ≤ 2 := by
  cases function <;> simp [toJson, Json.depth, Json.depthOfEntries]

@[simp]
theorem ofJson?_toJson (function : AggregateFunction) :
    ofJson? function.toJson = some function := by
  cases function <;>
    simp [toJson, ofJson?, Json.record?,
      Json.string?, Json.bool?]

end AggregateFunction

namespace Expr

/-- Whether no double occurs in the expression. -/
def FloatFree : Expr → Prop
  | literal value => value.FloatFree
  | _ => True

theorem readable_toJson {expr : Expr} (free : expr.FloatFree) : expr.toJson.Readable := by
  cases expr with
  | column index => exact .single (by decide) (Json.readable_word index)
  | literal value => exact .single (by decide) (value.readable_toJson free)
  | groupKey => exact .string
  | aggregate function index distinct =>
      exact .single (by decide) (by simp +decide [function.readable_toJson])
  | bag => exact .string

theorem ofJson?_toJson {expr : Expr} (free : expr.FloatFree) {room : Nat} (enough : 4 ≤ room) :
    ofJson? room expr.toJson = if expr.toJson.depth ≤ room then some expr else none := by
  cases expr with
  | literal value =>
      have decoded : ofJson? room (literal value).toJson =
          if value.toJson.depth ≤ room - 1 then some (literal value) else none := by
        simp [toJson, ofJson?, Scalar.ofJsonWithin?_toJson free]
      rw [decoded, toJson, Json.depth_single]
      exact if_congr (by omega) rfl rfl
  | aggregate function index distinct =>
      have shallow := function.depth_toJson_le
      rw [if_pos (by simp [toJson, Json.depth, Json.depthOfEntries]; omega)]
      simp [toJson, ofJson?, Json.record?, Json.bool?]
  | column index =>
      rw [if_pos (by simp [toJson]; omega)]
      simp [toJson, ofJson?]
  | groupKey | bag => simp [toJson, ofJson?, Json.depth]

end Expr

namespace Operation

/-- Whether no double occurs in the literals of the operation. -/
def FloatFree : Operation → Prop
  | filter predicate => predicate.value.FloatFree
  | forEach exprs => ∀ expr ∈ exprs, expr.FloatFree
  | _ => True

theorem readable_toJson {operation : Operation} (free : operation.FloatFree) :
    operation.toJson.Readable := by
  cases operation with
  | load source => exact .single (by decide) (by simp +decide [source.readable_toJson])
  | filter predicate =>
      exact .single (by decide) (by simp +decide [Predicate.readable_toJson free])
  | package parallelism accumulative =>
      exact .single (by decide)
        (by simp +decide [Json.readable_optional Json.readable_halfWord])
  | forEach exprs =>
      refine .single (by decide) ?_
      simp +decide only [Json.readable_object_iff, List.forall_mem_singleton,
        Json.readable_array_iff, List.forall_mem_map, true_and]
      exact fun expr member => Expr.readable_toJson (free expr member)
  | rearrange | sort | limit | join | store => exact .single (by decide) (by simp +decide)

theorem ofJson?_toJson {operation : Operation} (free : operation.FloatFree) {room : Nat}
    (enough : 7 ≤ room) :
    ofJson? room operation.toJson =
      if operation.toJson.depth ≤ room then some operation else none := by
  cases operation with
  | filter predicate =>
      have depth : (filter predicate).toJson.depth = predicate.toJson.depth + 2 := by
        simp [toJson, Json.depth, Json.depthOfEntries]
      have decoded : ofJson? room (filter predicate).toJson =
          if predicate.toJson.depth ≤ room - 2 then some (filter predicate) else none := by
        simp [toJson, ofJson?, ofFields?, Json.record?,
          Predicate.ofJson?_toJson free (show 1 ≤ room - 2 by omega)]
      rw [decoded, depth]
      exact if_congr (by omega) rfl rfl
  | forEach exprs =>
      have depth : (forEach exprs).toJson.depth =
          Json.depthOfList (exprs.map Expr.toJson) + 3 := by
        simp [toJson, Json.depth, Json.depthOfEntries]
      have each (expr : Expr) (member : expr ∈ exprs) :=
        Expr.ofJson?_toJson (free expr member) (show 4 ≤ room - 3 by omega)
      have decoded : ofJson? room (forEach exprs).toJson =
          if Json.depthOfList (exprs.map Expr.toJson) ≤ room - 3 then some (forEach exprs)
          else none := by
        simp [toJson, ofJson?, ofFields?, Json.record?, Json.list?_map_eq_ite each]
      rw [decoded, depth]
      exact if_congr (by omega) rfl rfl
  -- The other operations have no literals, and their forms at most three levels.
  | load source =>
      rw [if_pos (by simp [toJson, Json.depth, Json.depthOfEntries]; omega)]
      simp [toJson, ofJson?, ofFields?, Json.record?]
  | package parallelism accumulative =>
      rw [if_pos (by simp [toJson, Json.depth, Json.depthOfEntries]; omega)]
      simp [toJson, ofJson?, ofFields?, Json.record?, Json.bool?]
  | join keys fragment =>
      have shallow : Json.depthOfList (keys.map Json.word) ≤ 0 :=
        Json.depthOfList_le_iff.mpr (by simp)
      rw [if_pos (by simp [toJson, Json.depth, Json.depthOfEntries]; omega)]
      simp [toJson, ofJson?, ofFields?, Json.record?, Json.list?_map Json.word?_word]
  | rearrange | sort | limit | store =>
      rw [if_pos (by simp [toJson, Json.depth, Json.depthOfEntries]; omega)]
      simp [toJson, ofJson?, ofFields?, Json.record?, Json.bool?, Json.string?]

end Operation

namespace Operator

theorem readable_toJson {operator : Operator} (free : operator.operation.FloatFree) :
    operator.toJson.Readable := by
  simp +decide [toJson, Operation.readable_toJson free]

theorem ofJson?_toJson {operator : Operator} (free : operator.operation.FloatFree) {room : Nat}
    (enough : 8 ≤ room) :
    ofJson? room operator.toJson =
      if operator.toJson.depth ≤ room then some operator else none := by
  have shallow : Json.depthOfList (operator.inputs.map OpId.toJson) = 0 :=
    Nat.le_zero.mp (Json.depthOfList_le_iff.mpr (by simp))
  have depth : operator.toJson.depth = max operator.operation.toJson.depth 1 + 1 := by
    simp [toJson, Json.depth, Json.depthOfEntries, shallow]
  have decoded : ofJson? room operator.toJson =
      if operator.operation.toJson.depth ≤ room - 1 then some operator else none := by
    simp [toJson, ofJson?, Json.record?, Json.list?_map OpId.ofJson?_toJson,
      Operation.ofJson?_toJson free (show 7 ≤ room - 1 by omega)]
  rw [decoded, depth]
  exact if_congr (by omega) rfl rfl

end Operator

namespace SubPlan

/-- Whether no double occurs in the literals of the plan. -/
def FloatFree (plan : SubPlan) : Prop :=
  ∀ operator ∈ plan.operators, operator.operation.FloatFree

theorem readable_toJson {plan : SubPlan} (free : plan.FloatFree) : plan.toJson.Readable := by
  have operators := Json.readable_numbered plan.operatorMap.entries
    (fun entry => entry.1.value.toNat) (fun entry => entry.2.toJson) fun entry member =>
      Operator.readable_toJson (free entry.2 (List.mem_map_of_mem member))
  rw [toJson, Json.readable_object_iff]
  simp +decide [-Json.readable_object_iff, operators]

theorem entryOfJson?_eq_ite {entry : OpId × Operator} (free : entry.2.operation.FloatFree)
    {room : Nat} (enough : 8 ≤ room) :
    entryOfJson? room (entry.1.value.toNat.repr, entry.2.toJson) =
      if entry.2.toJson.depth ≤ room then some entry else none := by
  simp [entryOfJson?, Operator.ofJson?_toJson free enough]

/-- A plan is read back if it is nested no deeper than the room left. -/
theorem ofJson?_toJson {plan : SubPlan} (free : plan.FloatFree) {room : Nat}
    (enough : 10 ≤ room) :
    ofJson? room plan.toJson = if plan.toJson.depth ≤ room then some plan else none := by
  have each (entry : OpId × Operator) (member : entry ∈ plan.operatorMap.entries) :=
    entryOfJson?_eq_ite (free entry.2 (List.mem_map_of_mem member)) (show 8 ≤ room - 2 by omega)
  have entries := Json.mapM_entries_eq_ite each
  have depth : plan.toJson.depth = Json.depthOfEntries (plan.operatorMap.entries.map
      fun entry => (entry.1.value.toNat.repr, entry.2.toJson)) + 2 := by
    simp [toJson, Json.depth, Json.depthOfEntries]
  have decoded : ofJson? room plan.toJson =
      if Json.depthOfEntries (plan.operatorMap.entries.map
        fun entry => (entry.1.value.toNat.repr, entry.2.toJson)) ≤ room - 2 then some plan
      else none := by
    simp [-List.mapM_map, toJson, ofJson?, Json.record?, Json.object?, entries,
      plan.operatorMap.ofList_entries]
  rw [decoded, depth]
  exact if_congr (by omega) rfl rfl

end SubPlan

end BatchFlow
