import BatchFlow.Proofs.Engine.Shuffle
import Mathlib.Algebra.BigOperators.Group.List.Basic

/-!
# Inner joins

A join looks the key of a fragment row up in tables of the other sides.  As long as the keys
do not mix integers with doubles, it computes the inner join, which compares the key with
that of every row.
-/

namespace BatchFlow

open Results

theorem Scalar.order_null_ne_eq {key : Scalar} (notNull : key.isNull = false) :
    key.order .null ≠ .eq := by
  cases key <;> simp_all [isNull, order, rank]

namespace Join

section Choices

variable {α β : Type}

/-- Every way of choosing one element of each list; elements of the last list vary fastest. -/
def choices : List (List α) → List (List α)
  | [] => [[]]
  | options :: rest => options.flatMap fun chosen => (choices rest).map (chosen :: ·)

theorem mem_choices {lists : List (List α)} {chosen : List α} :
    chosen ∈ choices lists ↔ List.Forall₂ (fun element list => element ∈ list) chosen lists := by
  induction lists generalizing chosen with
  | nil => simp [choices]
  | cons options rest ih =>
      simp only [choices, List.mem_flatMap, List.mem_map, ih, List.forall₂_cons_right_iff]
      constructor
      · rintro ⟨first, isOption, others, related, rfl⟩
        exact ⟨first, others, isOption, related, rfl⟩
      · rintro ⟨first, others, isOption, related, rfl⟩
        exact ⟨first, isOption, others, related, rfl⟩

theorem length_choices (lists : List (List α)) :
    (choices lists).length = (lists.map List.length).prod := by
  induction lists with
  | nil => rfl
  | cons options rest ih => simp [choices, List.length_flatMap, ih]

theorem combine_eq_choices (lists : List (List Row)) :
    combine lists = (choices lists).map List.flatten := by
  unfold combine
  -- The choices are appended to any rows to start with.
  suffices ∀ partials : List Row, lists.foldl (fun partials rows =>
      partials.flatMap fun joined => rows.map fun row => joined ++ row) partials =
        partials.flatMap fun joined => (choices lists).map fun chosen => joined ++ chosen.flatten by
    simpa using this [[]]
  induction lists with
  | nil => simp [choices]
  | cons options rest ih =>
      intro partials
      rw [List.foldl_cons, ih, List.flatMap_assoc]
      refine List.flatMap_congr fun joined _ => ?_
      rw [choices, List.map_flatMap, List.flatMap_map]
      refine List.flatMap_congr fun chosen _ => ?_
      simp [Function.comp_def]

theorem elim_mapM_choices (options? : β → Option (List α)) (elements : List β) :
    (elements.mapM options?).elim [] choices =
      choices (elements.map fun element => (options? element).getD []) := by
  induction elements with
  | nil => rfl
  | cons element elements ih =>
      rw [List.mapM_cons, List.map_cons, choices, ← ih]
      cases options? element with
      | none => rfl
      | some options => cases elements.mapM options? <;> simp [choices]

end Choices

/-- The rows of a side whose key is equal to a given one. -/
def matching (key : Scalar) (side : List Row × UInt64) : List Row :=
  side.1.filter fun row => row[side.2.toNat]?.any fun other => key.order other == .eq

/-- What every side has to offer to a row of the fragment. -/
def offers (sides : List (List Row × UInt64)) (fragment : Nat) (key : Scalar) (row : Row) :
    List (List Row) :=
  sides.zipIdx.map fun (side, number) => if number = fragment then [row] else matching key side

/-- The inner join of sides that are given with their key columns.  Each row of the fragment
that has a key other than null is joined in every way with rows of equal keys. -/
def inner (sides : List (List Row × UInt64)) (fragment : Nat) : List Row :=
  let side := sides.getD fragment ([], 0)
  side.1.flatMap fun row : Row =>
    match row[side.2.toNat]? with
    | none | some .null => []
    | some key => (choices (offers sides fragment key row)).map List.flatten

section Inner

variable {sides : List (List Row × UInt64)} {fragment : Nat} {rows : List Row} {column : UInt64}
  (isFragment : sides[fragment]? = some (rows, column))

include isFragment

theorem inner_eq_flatMap : inner sides fragment = rows.flatMap fun row : Row =>
    match row[column.toNat]? with
    | none | some .null => []
    | some key => (choices (offers sides fragment key row)).map List.flatten := by
  rw [inner, List.getD_eq_getElem?_getD, isFragment]
  rfl

/-- No match is lost, and none comes from null keys. -/
theorem mem_inner_iff {joined : Row} :
    joined ∈ inner sides fragment ↔ ∃ row ∈ rows, ∃ key, row[column.toNat]? = some key ∧
      key.isNull = false ∧ ∃ chosen, joined = chosen.flatten ∧
        List.Forall₂ (fun part options => part ∈ options) chosen
          (offers sides fragment key row) := by
  rw [inner_eq_flatMap isFragment, List.mem_flatMap]
  refine exists_congr fun row => and_congr_right fun _ => ?_
  have combined (key : Scalar) : joined ∈ (choices (offers sides fragment key row)).map
      List.flatten ↔ ∃ chosen, joined = chosen.flatten ∧
        List.Forall₂ (fun part options => part ∈ options) chosen
          (offers sides fragment key row) := by
    simp only [List.mem_map, mem_choices, and_comm, eq_comm]
  cases row[column.toNat]? with
  | none => simp
  | some key =>
      simp only [Option.some.injEq, exists_eq_left']
      cases key with
      | null => simp [Scalar.isNull]
      | bool | int | float | text | bag => simp only [combined, Scalar.isNull, true_and]

/-- Every row of the fragment is joined as often as the rows of the other sides can be
combined. -/
theorem length_inner :
    (inner sides fragment).length = (rows.map fun row =>
      match row[column.toNat]? with
      | none | some .null => 0
      | some key => ((offers sides fragment key row).map List.length).prod).sum := by
  rw [inner_eq_flatMap isFragment, List.length_flatMap]
  refine congrArg List.sum (List.map_congr_left fun row _ => ?_)
  cases row[column.toNat]? with
  | none => rfl
  | some key =>
      cases key with
      | null => rfl
      | bool | int | float | text | bag => rw [List.length_map, length_choices]

end Inner

/-- The keys of the rows of all sides. -/
def keyValues (sides : List (List Row × UInt64)) : List Scalar :=
  sides.flatMap fun (rows, column) => rows.filterMap fun row => row[column.toNat]?

/-- A row of some side has no key column. -/
def LacksKey (sides : List (List Row × UInt64)) : Prop :=
  ∃ side ∈ sides, ∃ row ∈ side.1, row[side.2.toNat]? = none

section Tables

variable {column : UInt64} {rows : List Row} {table : Groups} {key : Scalar}

def keyedBy (column : UInt64) (rows : List Row) : List Row :=
  rows.filterMap fun row => (row[column.toNat]?.filter fun key => !key.isNull).map (· :: row)

theorem exists_index_iff :
    (∃ table, index column rows = .ok table) ↔ ∀ row ∈ rows, row[column.toNat]? ≠ none := by
  unfold index
  generalize ([] : Groups) = start
  induction rows generalizing start with
  | nil => simp
  | cons row rows ih =>
      rw [List.forall_mem_cons]
      cases atColumn : row[column.toNat]? with
      | none => simp [List.foldlM_cons, Row.cell, atColumn, bind, Except.bind]
      | some key =>
          rw [and_iff_right (Option.some_ne_none key)]
          simp only [List.foldlM_cons, Row.cell_eq_ok.mpr atColumn]
          exact ih _

/-- The table of a side groups its rows by their keys. -/
theorem ofKeyedRows_keyedBy (indexed : index column rows = .ok table) :
    Groups.ofKeyedRows (keyedBy column rows) = .ok table := by
  have haveKeys := exists_index_iff.mp ⟨table, indexed⟩
  rw [← indexed, index, Groups.ofKeyedRows]
  clear indexed
  generalize ([] : Groups) = start
  induction rows generalizing start with
  | nil => rfl
  | cons row rows ih =>
      obtain ⟨hasKey, restHave⟩ := List.forall_mem_cons.mp haveKeys
      obtain ⟨key, atColumn⟩ := Option.ne_none_iff_exists'.mp hasKey
      simp only [List.foldlM_cons, Row.cell_eq_ok.mpr atColumn]
      cases isNull : key.isNull with
      | true =>
          have leftOut : keyedBy column (row :: rows) = keyedBy column rows := by
            simp [keyedBy, atColumn, isNull]
          rw [leftOut, ih restHave start]
          simp [isNull, bind, Except.bind, pure, Except.pure]
      | false =>
          have inFront : keyedBy column (row :: rows) = (key :: row) :: keyedBy column rows := by
            simp [keyedBy, atColumn, isNull]
          rw [inFront, List.foldlM_cons]
          refine (ih restHave (Groups.addRow start key row)).trans ?_
          simp [isNull, bind, Except.bind, pure, Except.pure]

theorem filterMap_cellsOf?_keyedBy (notNull : key.isNull = false) :
    (keyedBy column rows).filterMap (Groups.cellsOf? key) = matching key (rows, column) := by
  rw [keyedBy, matching, List.filterMap_filterMap, ← List.filterMap_eq_filter]
  refine List.filterMap_congr fun row _ => ?_
  show _ = if (row[column.toNat]?.any fun other => key.order other == .eq) then some row else none
  cases row[column.toNat]? with
  | none => rfl
  | some other =>
      cases otherNull : other.isNull with
      | true =>
          obtain rfl : other = .null := by cases other <;> simp_all [Scalar.isNull]
          simp [Option.filter, Scalar.isNull, Scalar.order_null_ne_eq notNull]
      | false => simp [Option.filter, otherNull, Groups.cellsOf?]

/-- Looking a key up in the table of a side finds the rows whose keys are equal to it. -/
theorem find?_index {sides : List (List Row × UInt64)}
    (neverMix : Scalar.NeverMix (keyValues sides)) (isSide : (rows, column) ∈ sides)
    (indexed : index column rows = .ok table) (isKey : key ∈ keyValues sides)
    (notNull : key.isNull = false) :
    (Entries.find? key table).getD [] = matching key (rows, column) := by
  rw [← filterMap_cellsOf?_keyedBy notNull]
  refine (Groups.find?_ofKeyedRows neverMix.orderedAmong (ofKeyedRows_keyedBy indexed) ?_).2
    key isKey
  intro other cells member
  obtain ⟨row, inRows, keyed⟩ := List.mem_filterMap.mp member
  refine List.mem_flatMap.mpr ⟨_, isSide, List.mem_filterMap.mpr ⟨row, inRows, ?_⟩⟩
  obtain ⟨value, kept, same⟩ := Option.map_eq_some_iff.mp keyed
  obtain ⟨rfl, rfl⟩ := List.cons.inj same
  exact (Option.filter_eq_some_iff.mp kept).1

theorem matchRow_eq_choices (tables : List Groups) (fragment : Nat) (key : Scalar) (row : Row) :
    matchRow tables fragment key row =
      (choices (tables.zipIdx.map fun (table, number) =>
        if number = fragment then [row] else (Entries.find? key table).getD [])).map
          List.flatten := by
  let options? := fun entry : Groups × Nat =>
    if entry.2 = fragment then some [row] else Entries.find? key entry.1
  have offered (entry : Groups × Nat) : (options? entry).getD [] =
      if entry.2 = fragment then [row] else (Entries.find? key entry.1).getD [] := by
    by_cases here : entry.2 = fragment <;> simp [options?, here]
  simp only [← offered]
  rw [← elim_mapM_choices]
  show (tables.zipIdx.mapM options?).elim [] combine = _
  cases tables.zipIdx.mapM options? with
  | none => rfl
  | some lists => exact combine_eq_choices lists

end Tables

/-- Numbered sides with their key columns. -/
def numbered (sides : Nat → List Row) (keys : List UInt64) (count : Nat) :
    List (List Row × UInt64) :=
  (List.range count).map fun number => (sides number, keys.getD number 0)

section Numbered

variable (sides : Nat → List Row) (keys : List UInt64) {fragment count : Nat}
  (inside : fragment < count)

include inside

theorem exists_rows_iff :
    (∃ joined, Join.rows ((List.range count).map sides) keys fragment = .ok joined) ↔
      ¬ LacksKey (numbered sides keys count) := by
  have haveKeys : ¬ LacksKey (numbered sides keys count) ↔ ∀ number < count,
      ∀ row ∈ sides number, row[(keys.getD number 0).toNat]? ≠ none := by
    simp [LacksKey, numbered]
  have cells : (∀ row ∈ sides fragment, ∃ key, row.cell (keys.getD fragment 0) = .ok key) ↔
      ∀ row ∈ sides fragment, row[(keys.getD fragment 0).toNat]? ≠ none := by
    simp only [Row.cell_eq_ok, Option.ne_none_iff_exists']
  have indexed : (∃ found, tables sides keys fragment count = .ok found) ↔ ∀ number < count,
      number ≠ fragment → ∀ row ∈ sides number, row[(keys.getD number 0).toNat]? ≠ none := by
    rw [tables, exists_mapM_iff]
    simp only [List.mem_range]
    refine forall_congr' fun number => imp_congr_right fun _ => ?_
    by_cases here : number = fragment
    · simp [here]
    · simp only [here, if_false, exists_index_iff, ne_eq, not_false_eq_true, forall_const]
  rw [haveKeys]
  simp only [rows_eq_ok sides inside, cells]
  constructor
  · rintro ⟨_, found, isTables, atFragment, -⟩ number below
    by_cases here : number = fragment
    · exact here ▸ atFragment
    · exact indexed.mp ⟨found, isTables⟩ number below here
  · intro each
    obtain ⟨found, isTables⟩ := indexed.mpr fun number below _ => each number below
    exact ⟨_, found, isTables, each fragment inside, rfl⟩

variable {sides keys}

omit inside in
theorem offers_of_tables (neverMix : Scalar.NeverMix (keyValues (numbered sides keys count)))
    {found : List Groups} (isTables : tables sides keys fragment count = .ok found) {key : Scalar}
    (isKey : key ∈ keyValues (numbered sides keys count)) (notNull : key.isNull = false)
    (row : Row) :
    (found.zipIdx.map fun (table, number) =>
        if number = fragment then [row] else (Entries.find? key table).getD []) =
      offers (numbered sides keys count) fragment key row := by
  rw [tables, mapM_eq_ok_iff_map] at isTables
  obtain ⟨eachIndexed, rfl⟩ := isTables
  rw [offers, numbered, zipIdx_map_range, zipIdx_map_range, List.map_map, List.map_map]
  refine List.map_congr_left fun number below => ?_
  by_cases here : number = fragment
  · simp [here]
  · obtain ⟨table, indexed⟩ := eachIndexed number below
    rw [if_neg here] at indexed
    have isSide : (sides number, keys.getD number 0) ∈ numbered sides keys count :=
      List.mem_map.mpr ⟨number, below, rfl⟩
    simp only [Function.comp_apply, if_neg here, indexed, valueOf]
    exact find?_index neverMix isSide indexed isKey notNull

theorem eq_inner_of_rows (neverMix : Scalar.NeverMix (keyValues (numbered sides keys count)))
    {joined : List Row}
    (succeeded : Join.rows ((List.range count).map sides) keys fragment = .ok joined) :
    joined = inner (numbered sides keys count) fragment := by
  obtain ⟨found, isTables, haveKeys, rfl⟩ := (rows_eq_ok sides inside).mp succeeded
  have isFragment : (numbered sides keys count)[fragment]? =
      some (sides fragment, keys.getD fragment 0) := by
    simp [numbered, inside]
  rw [inner_eq_flatMap isFragment]
  refine List.flatMap_congr fun row inFragment => ?_
  obtain ⟨key, atKey⟩ := haveKeys row inFragment
  have atColumn := Row.cell_eq_ok.mp atKey
  have isKey : key ∈ keyValues (numbered sides keys count) := by
    refine List.mem_flatMap.mpr ⟨_, List.mem_map.mpr ⟨fragment, by simpa, rfl⟩, ?_⟩
    exact List.mem_filterMap.mpr ⟨row, inFragment, atColumn⟩
  simp only [atKey, valueOf, atColumn]
  cases notNull : key.isNull with
  | true =>
      obtain rfl : key = .null := by cases key <;> simp_all [Scalar.isNull]
      rfl
  | false =>
      rw [if_neg (by simp), matchRow_eq_choices,
        offers_of_tables neverMix isTables isKey notNull]
      cases key with
      | null => cases notNull
      | bool | int | float | text | bag => rfl

end Numbered

/-- The join fails exactly when a row of some side has no key column.  Otherwise it is the
inner join. -/
theorem rows_eq_inner {sides : List (List Row)} {keys : List UInt64} {fragment : Nat}
    (sameLength : keys.length = sides.length) (inside : fragment < sides.length)
    (neverMix : Scalar.NeverMix (keyValues (sides.zip keys))) :
    ((∃ error, Join.rows sides keys fragment = .error error) ↔ LacksKey (sides.zip keys)) ∧
      (¬ LacksKey (sides.zip keys) →
        Join.rows sides keys fragment = .ok (inner (sides.zip keys) fragment)) := by
  have asRange : sides = (List.range sides.length).map fun number => sides.getD number [] := by
    refine List.ext_getElem (by simp) fun number first second => ?_
    simp [first]
  have zipped : sides.zip keys =
      numbered (fun number => sides.getD number []) keys sides.length := by
    refine List.ext_getElem (by simp [numbered, sameLength]) fun number first second => ?_
    have below : number < sides.length := by simpa [numbered] using second
    simp [numbered, below, sameLength]
  have exists_iff : (∃ joined, Join.rows sides keys fragment = .ok joined) ↔
      ¬ LacksKey (sides.zip keys) := by
    have ranged := exists_rows_iff (fun number => sides.getD number []) keys inside
    rwa [← asRange, ← zipped] at ranged
  refine ⟨exists_error_iff.trans (not_iff_comm.mp exists_iff.symm), fun haveKeys => ?_⟩
  obtain ⟨joined, succeeded⟩ := exists_iff.mpr haveKeys
  rw [zipped] at neverMix ⊢
  rw [succeeded]
  rw [asRange] at succeeded
  exact congrArg Except.ok (eq_inner_of_rows inside neverMix succeeded)

/-- Regions, sales and shipments; the sales are the fragment. -/
def salesSides : List (List Row) :=
  [[[.int 1, .text "north"], [.int 2, .text "south"], [.null, .text "nowhere"]],
    [[.text "pen", .int 1], [.text "ink", .null], [.text "cup", .int 2], [.text "cap", .int 1]],
    [[.int 1, .text "by rail"], [.int 3, .text "by sea"], [.int 1, .text "by road"]]]

theorem neverMix_salesSides : Scalar.NeverMix (keyValues (salesSides.zip [0, 1, 0])) := by
  have draw : ∀ key ∈ keyValues (salesSides.zip [0, 1, 0]),
      Scalar.Draws (fun _ => True) (fun _ => False) key := by
    simp [keyValues, salesSides, Scalar.Draws]
  exact Scalar.neverMix_of_draws (fun _ _ _ never => never) draw

/-- Two of the four sales are joined, each with one region and two shipments. -/
theorem rows_eq_inner_salesSides :
    [0, 1, 0].length = salesSides.length ∧ 1 < salesSides.length ∧
      Scalar.NeverMix (keyValues (salesSides.zip [0, 1, 0])) ∧
      ¬ LacksKey (salesSides.zip [0, 1, 0]) ∧
      Join.rows salesSides [0, 1, 0] 1 = .ok (inner (salesSides.zip [0, 1, 0]) 1) ∧
      inner (salesSides.zip [0, 1, 0]) 1 =
        [[.int 1, .text "north", .text "pen", .int 1, .int 1, .text "by rail"],
          [.int 1, .text "north", .text "pen", .int 1, .int 1, .text "by road"],
          [.int 1, .text "north", .text "cap", .int 1, .int 1, .text "by rail"],
          [.int 1, .text "north", .text "cap", .int 1, .int 1, .text "by road"]] := by
  have haveKeys : ¬ LacksKey (salesSides.zip [0, 1, 0]) := by simp [LacksKey, salesSides]
  have inside : 1 < salesSides.length := by decide
  have joins := rows_eq_inner rfl inside neverMix_salesSides
  exact ⟨rfl, inside, neverMix_salesSides, haveKeys, joins.2 haveKeys, rfl⟩

end Join

end BatchFlow
