import BatchFlow.Engine.Aggregate

/-!
# Keyed rows and groups

Rows are collected under scalar keys into lists of entries in key order.  Equal
keys, by the order on scalars, share an entry, and the rows of an entry keep
their order.  The shuffle deals groups to reducers in turn; a join looks up the
rows of its replicated sides by key.
-/

namespace BatchFlow

/-- Groups of rows in the order of their keys. -/
abbrev Groups :=
  List (Scalar × List Row)

namespace Groups

/-- Add a row to the group of a key. -/
def addRow (groups : Groups) (key : Scalar) (row : Row) : Groups :=
  Entries.upsert key (fun rows => rows.getD [] ++ [row]) groups

/-- Collect rows that begin with their key into groups of the rows without it. -/
def ofKeyedRows (keyed : List Row) : Except OperatorError Groups :=
  keyed.foldlM (fun groups row =>
    match row with
    | [] => .error .missingKey
    | key :: cells => .ok (groups.addRow key cells)) []

/-- Deal groups to reducers: the group at position `i` goes to reducer
`i % reducers`.  Without reducers there is one. -/
def deal (groups : Groups) (reducers : Nat) : List Groups :=
  let reducers := max reducers 1
  (List.range reducers).map fun reducer =>
    (groups.zipIdx.filter fun (_, position) => position % reducers == reducer).map Prod.fst

/-- The groups as rows of a key and a bag. -/
def materialize (groups : Groups) : List Row :=
  groups.map fun (key, rows) => [key, .bag rows]

end Groups

namespace Join

/-- The rows of a replicated side by key; null keys are left out. -/
def index (column : UInt64) (rows : List Row) : Except OperatorError Groups :=
  rows.foldlM (fun table row => do
    let key ← row.cell column
    return if key.isNull then table else table.addRow key row) []

/-- Every way of choosing one row per side, joined in the order of the sides;
rows of the last side vary fastest. -/
def combine (choices : List (List Row)) : List Row :=
  choices.foldl (fun partials rows =>
    partials.flatMap fun joined => rows.map fun row => joined ++ row) [[]]

/-- The rows that one row of the fragment side is joined to. -/
def matchRow (tables : List Groups) (fragment : Nat) (key : Scalar) (row : Row) : List Row :=
  let choices := tables.zipIdx.mapM fun (table, side) =>
    if side = fragment then some [row] else Entries.find? key table
  choices.elim [] combine

/-- The inner join of several sides on one key column each.  Every side except
the fragment is indexed in full, and the rows of the fragment are joined one
after another.  Null keys match nothing.  A side without a key column is joined
on its first column. -/
def rows (sides : List (List Row)) (keys : List UInt64) (fragment : Nat) :
    Except OperatorError (List Row) := do
  let column := fun side => keys.getD side 0
  let tables ← sides.zipIdx.mapM fun (rows, side) =>
    if side = fragment then .ok [] else index (column side) rows
  let joined ← (sides.getD fragment []).mapM fun row => do
    let key ← row.cell (column fragment)
    return if key.isNull then [] else matchRow tables fragment key row
  return joined.flatten

end Join

end BatchFlow
