import BatchFlow.Engine.Error
import BatchFlow.OrderedMap
import BatchFlow.Sorting

/-!
# Aggregates

An aggregate is an accumulator fed one value at a time, whether the values come
from a materialized bag or from a stream.  Nulls are skipped by every function.
-/

namespace BatchFlow

/-- The running state of an aggregate. -/
inductive Accumulator where
  | count (values : Int64)
  /-- Integers and doubles are summed apart. -/
  | sum (integers : Int64) (doubles : Binary64) (anyDouble seen : Bool)
  | min (least : Option Scalar)
  | max (greatest : Option Scalar)
  | average (sum : Binary64) (values : UInt64)
  /-- The first value that is not null. -/
  | first (value : Option Scalar)
  /-- The median needs every value. -/
  | median (values : List Scalar)

namespace Accumulator

/-- The state before any value.  Custom functions are known by their names. -/
def ofFunction : AggregateFunction → Except OperatorError Accumulator
  | .count => .ok (count 0)
  | .sum => .ok (sum 0 .zero false false)
  | .min => .ok (min none)
  | .max => .ok (max none)
  | .average => .ok (average .zero 0)
  | .custom name _ =>
      if name = "first" then .ok (first none)
      else if name = "median" then .ok (median [])
      else .error (.unknownFunction name)

/-- Whether the state stays bounded. -/
def isBounded : Accumulator → Bool
  | median _ => false
  | _ => true

/-- The state after one more value that is not null. -/
def updateNonNull (accumulator : Accumulator) (value : Scalar) :
    Except OperatorError Accumulator :=
  match accumulator with
  | count values => .ok (count (values + 1))
  | sum integers doubles anyDouble _ =>
      match value with
      | .int value => .ok (sum (integers + value) doubles anyDouble true)
      | .float value => .ok (sum integers (doubles.add value) true true)
      | other => .error (.notNumber .sum other)
  | min least =>
      .ok (min (if least.all fun least => value.order least == .lt then some value else least))
  | max greatest =>
      .ok (max (if greatest.all fun greatest => value.order greatest == .gt then some value
        else greatest))
  | average total values =>
      match value.asBinary64 with
      | some number => .ok (average (total.add number) (values + 1))
      | none => .error (.notNumber .average value)
  | first found => .ok (first (found <|> some value))
  | median values => .ok (median (values ++ [value]))

/-- The state after one more value. -/
def update (accumulator : Accumulator) (value : Scalar) :
    Except OperatorError Accumulator :=
  if value.isNull then .ok accumulator else accumulator.updateNonNull value

/-- The value of an aggregate. -/
def finish : Accumulator → Except OperatorError Scalar
  | count values => .ok (.int values)
  | sum integers doubles anyDouble seen =>
      .ok (if !seen then .null
        else if anyDouble then .float ((Binary64.ofInt integers.toInt).add doubles)
        else .int integers)
  | min value | max value | first value => .ok (value.getD .null)
  | average total values =>
      .ok (if values = 0 then .null else .float (total.div (Binary64.ofInt values.toNat)))
  | median values => do
      let sorted ← liftSort values (Sorting.scalars? values)
      return (sorted[(values.length - 1) / 2]?).getD .null

end Accumulator

namespace Row

/-- The cell of a row in a column. -/
def cell (row : Row) (column : UInt64) : Except OperatorError Scalar :=
  match row[column.toNat]? with
  | some value => .ok value
  | none => .error (.columnOutOfRange column row.length)

/-- The cell by which a row is sorted; a missing one counts as null. -/
def sortKey (column : UInt64) (row : Row) : Scalar :=
  row.getD column.toNat .null

/-- Whether a row must come before another one in the order of a column. -/
def sortsBefore (column : UInt64) (descending : Bool) (first second : Row) : Bool :=
  (first.sortKey column).order (second.sortKey column) == if descending then .gt else .lt

/-- Rows in the order of a column. -/
def sortBy (column : UInt64) (descending : Bool) (rows : List Row) :
    Except OperatorError (List Row) :=
  liftSort (rows.map (sortKey column)) (Sorting.sort? (sortsBefore column descending) rows)

end Row

namespace AggregateFunction

/-- The distinct values of some values, in ascending order. -/
def distinctValues (values : List Scalar) : List Scalar :=
  values.foldl (fun distinct value => OrderedSet.insertInto value distinct) []

/-- Fold the function over a column of a bag. -/
def overBag (function : AggregateFunction) (column : UInt64) (distinct : Bool)
    (bag : List Row) : Except OperatorError Scalar := do
  let accumulator ← Accumulator.ofFunction function
  let final ←
    if distinct then do
      let values ← bag.mapM fun row => row.cell column
      (distinctValues values).foldlM Accumulator.update accumulator
    else
      bag.foldlM (fun accumulator row => do accumulator.update (← row.cell column))
        accumulator
  final.finish

end AggregateFunction

end BatchFlow
