import BatchFlow.Number.Decimal
import BatchFlow.Text.Quoted

/-!
# Values and rows

A row is a list of scalars, addressed by position.  Grouping produces rows of
the form `[key, bag]`, where the bag holds the rows of one group.

Scalars are compared across kinds: nulls come first, then booleans, numbers,
texts and bags.  An integer is compared with a double after conversion to a
double, and doubles are compared by their bit patterns, so that `-0.0` comes
before `0.0` and every NaN has its place.
-/

namespace BatchFlow

/-- A value in a cell of a row. -/
inductive Scalar where
  | null
  | bool (value : Bool)
  | int (value : Int64)
  | float (value : Binary64)
  | text (value : String)
  | bag (rows : List (List Scalar))
deriving Inhabited

/-- A row of cells. -/
abbrev Row :=
  List Scalar

namespace Scalar

/-- The place of a scalar's kind among the kinds. -/
def rank : Scalar → Nat
  | null => 0
  | bool _ => 1
  | int _ | float _ => 2
  | text _ => 3
  | bag _ => 4

/-- Whether the scalar is null. -/
def isNull : Scalar → Bool
  | null => true
  | _ => false

/-- The numeric value of a number, as a double. -/
def asBinary64 : Scalar → Option Binary64
  | int value => some (Binary64.ofInt value.toInt)
  | float value => some value
  | _ => none

/-- The rows of a bag. -/
def asBag : Scalar → Option (List Row)
  | bag rows => some rows
  | _ => none

mutual

/-- The comparison of scalars. -/
def order : Scalar → Scalar → Ordering
  | null, null => .eq
  | bool first, bool second => compare first second
  | int first, int second => compare first second
  | float first, float second => first.totalOrder second
  | int first, float second => (Binary64.ofInt first.toInt).totalOrder second
  | float first, int second => first.totalOrder (Binary64.ofInt second.toInt)
  | text first, text second => compare first second
  | bag first, bag second => rowsOrder first second
  | first, second => compare first.rank second.rank

/-- Rows are compared cell by cell; a row comes after its own beginnings. -/
def rowOrder : List Scalar → List Scalar → Ordering
  | [], [] => .eq
  | [], _ :: _ => .lt
  | _ :: _, [] => .gt
  | first :: firsts, second :: seconds =>
      (order first second).then (rowOrder firsts seconds)

/-- Lists of rows are compared row by row. -/
def rowsOrder : List (List Scalar) → List (List Scalar) → Ordering
  | [], [] => .eq
  | [], _ :: _ => .lt
  | _ :: _, [] => .gt
  | first :: firsts, second :: seconds =>
      (rowOrder first second).then (rowsOrder firsts seconds)

end

instance : Ord Scalar :=
  ⟨order⟩

mutual

/-- The text of a scalar in messages, such as `I64(3)`. -/
def describe : Scalar → String
  | null => "Null"
  | bool value => "Bool(" ++ toString value ++ ")"
  | int value => "I64(" ++ toString value.toInt ++ ")"
  | float value => "F64(" ++ DecimalStyle.message.text value ++ ")"
  | text value => "Str(" ++ Text.quoted value ++ ")"
  | bag rows => "Bag(" ++ Text.bracketed (describeRows rows) ++ ")"

/-- The texts of the cells of a row. -/
def describeCells : List Scalar → List String
  | [] => []
  | cell :: cells => describe cell :: describeCells cells

/-- The texts of rows. -/
def describeRows : List (List Scalar) → List String
  | [] => []
  | row :: rows => Text.bracketed (describeCells row) :: describeRows rows

end

end Scalar

/-- The comparison of a predicate. -/
inductive Comparison where
  | equal
  | notEqual
  | less
  | lessOrEqual
  | greater
  | greaterOrEqual
deriving DecidableEq

namespace Comparison

/-- Whether the comparison holds between two scalars. -/
def holds (comparison : Comparison) (left right : Scalar) : Bool :=
  match comparison, left.order right with
  | equal, outcome => outcome == .eq
  | notEqual, outcome => outcome != .eq
  | less, outcome => outcome == .lt
  | lessOrEqual, outcome => outcome != .gt
  | greater, outcome => outcome == .gt
  | greaterOrEqual, outcome => outcome != .lt

/-- The name of the comparison in plans. -/
def name : Comparison → String
  | equal => "Eq"
  | notEqual => "Ne"
  | less => "Lt"
  | lessOrEqual => "Le"
  | greater => "Gt"
  | greaterOrEqual => "Ge"

end Comparison

end BatchFlow
