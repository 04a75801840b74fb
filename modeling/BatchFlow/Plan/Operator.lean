import BatchFlow.Ident
import BatchFlow.Scalar

/-!
# Operators

An operator of a plan reads the rows of its inputs and produces rows.  Loads
have no input; a fragment-replicate join has several, of which all but one are
read in full by every task; every other operator has one input.
-/

namespace BatchFlow

/-- Where a load reads from. -/
inductive LoadSource where
  | dataset (path : String)
  | stage (id : StageId)
deriving DecidableEq

/-- A test of one column against a constant. -/
structure Predicate where
  column : UInt64
  comparison : Comparison
  value : Scalar

/-- A function over one column of a group.  A custom function is known by its
name; `accumulative` is the claim that it folds into a bounded state. -/
inductive AggregateFunction where
  | count
  | sum
  | min
  | max
  | average
  | custom (name : String) (accumulative : Bool)
deriving DecidableEq

namespace AggregateFunction

/-- Whether the function is said to fold one row at a time into a bounded state. -/
def isIncremental : AggregateFunction → Bool
  | custom _ accumulative => accumulative
  | _ => true

/-- The name of the function. -/
def name : AggregateFunction → String
  | count => "count"
  | sum => "sum"
  | min => "min"
  | max => "max"
  | average => "avg"
  | custom name _ => name

/-- The text of a function in messages. -/
def describe : AggregateFunction → String
  | count => "Count"
  | sum => "Sum"
  | min => "Min"
  | max => "Max"
  | average => "Avg"
  | custom name accumulative =>
      "Udf \x7b name: " ++ Text.quoted name ++ ", accumulative: "
        ++ toString accumulative ++ " \x7d"

end AggregateFunction

/-- An expression of a projection.  An aggregate folds a column of the current
group's bag, over its distinct values if `distinct` is set. -/
inductive Expr where
  | column (index : UInt64)
  | literal (value : Scalar)
  | groupKey
  | aggregate (function : AggregateFunction) (column : UInt64) (distinct : Bool)
  | bag

namespace Expr

/-- Whether the expression can be computed without materializing the group. -/
def isAccumulationSafe : Expr → Bool
  | column _ | literal _ | groupKey => true
  | aggregate function _ distinct => !distinct && function.isIncremental
  | bag => false

/-- The text of an expression in messages. -/
def describe : Expr → String
  | column index => "Column(" ++ toString index.toNat ++ ")"
  | literal value => "Literal(" ++ value.describe ++ ")"
  | groupKey => "GroupKey"
  | aggregate function index distinct =>
      "Aggregate \x7b func: " ++ function.describe ++ ", column: "
        ++ toString index.toNat ++ ", distinct: " ++ toString distinct ++ " \x7d"
  | bag => "Bag"

end Expr

/-- What an operator does with its rows. -/
inductive Operation where
  /-- Read a dataset or the output of another stage. -/
  | load (source : LoadSource)
  /-- Keep the rows that pass a test. -/
  | filter (predicate : Predicate)
  /-- Put a column in front of each row, as its grouping key. -/
  | rearrange (key : UInt64)
  /-- Collect keyed rows into one row `[key, bag]` for each key. -/
  | package (parallelism : Option UInt32) (accumulative : Bool)
  /-- Compute a row of expressions from each row. -/
  | forEach (exprs : List Expr)
  /-- Order the rows by a column. -/
  | sort (column : UInt64) (descending : Bool)
  /-- Keep the first rows. -/
  | limit (count : UInt64)
  /-- Join the inputs on one key column each; every input except `fragment` is
  read in full by every task. -/
  | join (keys : List UInt64) (fragment : UInt64)
  /-- Write the rows to a target. -/
  | store (target : String)

namespace Operation

/-- The name of the operation in messages. -/
def name : Operation → String
  | load _ => "load"
  | filter _ => "filter"
  | rearrange _ => "local_rearrange"
  | package _ _ => "package"
  | forEach _ => "foreach"
  | sort _ _ => "sort"
  | limit _ => "limit"
  | join _ _ => "frjoin"
  | store _ => "store"

/-- Whether the operation is a load. -/
def isLoad : Operation → Bool
  | load _ => true
  | _ => false

/-- Whether the operation groups rows. -/
def isPackage : Operation → Bool
  | package _ _ => true
  | _ => false

/-- Whether the operation is a join. -/
def isJoin : Operation → Bool
  | join _ _ => true
  | _ => false

/-- Whether the operation is a projection. -/
def isForEach : Operation → Bool
  | forEach _ => true
  | _ => false

/-- The stage whose output the operation loads, if any. -/
def loadedStage? : Operation → Option StageId
  | load (.stage id) => some id
  | _ => none

/-- The target the operation writes, if any. -/
def target? : Operation → Option String
  | store target => some target
  | _ => none

end Operation

/-- An operator: its own identifier, what it does, and the operators it reads. -/
structure Operator where
  id : OpId
  operation : Operation
  inputs : List OpId

end BatchFlow
