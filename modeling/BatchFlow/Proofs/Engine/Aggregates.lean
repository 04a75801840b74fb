import BatchFlow.Proofs.Number.Sums
import BatchFlow.Proofs.UnmixedKeys
import Mathlib.Data.Set.List

/-!
# What aggregates mean

Over the values of a column that are not null, an accumulator ends in a state that is a plain
function of these values: their number, their sum, a least one, and so on.  Over distinct values
the same function is folded over the ascending list of the values, which is determined by which
values occur.
-/

namespace BatchFlow

open Results

/-- If neither of two comparisons has an outcome, the one they compose to has it neither. -/
theorem Composes.trans_ne {firstSecond secondThird firstThird outcome : Ordering}
    (composes : Composes firstSecond secondThird firstThird) (strict : outcome ≠ .eq)
    (first : firstSecond ≠ outcome) (second : secondThird ≠ outcome) : firstThird ≠ outcome := by
  obtain ⟨left, right, same⟩ := composes
  cases firstSecond <;> cases secondThird <;> cases outcome <;> simp_all

/-- The cells of a column, of the rows that have it. -/
def columnValues (column : UInt64) (bag : List Row) : List Scalar :=
  bag.filterMap fun row => row[column.toNat]?

/-- The values that are not null. -/
def nonNull (values : List Scalar) : List Scalar :=
  values.filter fun value => !value.isNull

/-- Every row of the bag has the column. -/
def HaveColumn (column : UInt64) (bag : List Row) : Prop :=
  ∀ row ∈ bag, ∃ cell, row[column.toNat]? = some cell

theorem mapM_cell_eq_ok {column : UInt64} {bag : List Row} {values : List Scalar} :
    (bag.mapM fun row => row.cell column) = .ok values ↔
      HaveColumn column bag ∧ values = columnValues column bag := by
  induction bag generalizing values with
  | nil =>
      rw [List.mapM_nil, pure_eq_ok, eq_comm]
      simp [HaveColumn, columnValues]
  | cons row bag ih =>
      simp only [List.mapM_cons, bind_eq_ok, pure_eq_ok, Row.cell_eq_ok, ih, HaveColumn,
        columnValues, List.forall_mem_cons]
      constructor
      · rintro ⟨cell, atColumn, _, ⟨rest, rfl⟩, rfl⟩
        exact ⟨⟨⟨cell, atColumn⟩, rest⟩, by simp [atColumn]⟩
      · rintro ⟨⟨⟨cell, atColumn⟩, rest⟩, rfl⟩
        exact ⟨cell, atColumn, _, ⟨rest, rfl⟩, by simp [atColumn]⟩

namespace Accumulator

variable {accumulator next final : Accumulator} {values : List Scalar}

/-- Whether the function folds numbers only. -/
def foldsNumbers : Accumulator → Bool
  | sum .. | average .. => true
  | _ => false

theorem exists_updateNonNull_iff {value : Scalar} :
    (∃ next, accumulator.updateNonNull value = .ok next) ↔
      (accumulator.foldsNumbers = true → ∃ number, value.asBinary64 = some number) := by
  cases accumulator <;> cases value <;> simp [updateNonNull, foldsNumbers, Scalar.asBinary64]

theorem foldsNumbers_updateNonNull {value : Scalar}
    (updated : accumulator.updateNonNull value = .ok next) :
    next.foldsNumbers = accumulator.foldsNumbers := by
  cases accumulator <;> cases value <;> cases updated <;> rfl

/-- Nulls are skipped. -/
theorem foldlM_update :
    values.foldlM update accumulator = (nonNull values).foldlM updateNonNull accumulator := by
  induction values generalizing accumulator with
  | nil => rfl
  | cons value values ih =>
      rw [List.foldlM_cons, update, nonNull, List.filter_cons]
      cases isNull : value.isNull with
      | true => exact ih
      | false => exact congrArg (accumulator.updateNonNull value >>= ·) (funext fun next => ih)

/-- A fold succeeds unless it is one of numbers and meets another value. -/
theorem exists_foldlM_iff :
    (∃ final, values.foldlM updateNonNull accumulator = .ok final) ↔
      (accumulator.foldsNumbers = true →
        ∀ value ∈ values, ∃ number, value.asBinary64 = some number) := by
  induction values generalizing accumulator with
  | nil => simp
  | cons value values ih =>
      simp only [List.foldlM_cons, bind_eq_ok, List.forall_mem_cons]
      constructor
      · rintro ⟨final, next, updated, rest⟩ numbers
        refine ⟨exists_updateNonNull_iff.mp ⟨next, updated⟩ numbers, ?_⟩
        exact ih.mp ⟨final, rest⟩ (by rw [foldsNumbers_updateNonNull updated, numbers])
      · intro numbers
        obtain ⟨next, updated⟩ := exists_updateNonNull_iff.mpr fun folds => (numbers folds).1
        obtain ⟨final, rest⟩ := ih.mpr fun folds =>
          (numbers (foldsNumbers_updateNonNull updated ▸ folds)).2
        exact ⟨final, next, updated, rest⟩

section States

theorem foldlM_count (start : Int64) :
    values.foldlM updateNonNull (count start) =
      .ok (count (start + Int64.ofNat values.length)) := by
  induction values generalizing start with
  | nil => simp [pure, Except.pure]
  | cons value values ih =>
      rw [List.foldlM_cons, updateNonNull]
      refine (ih (start + 1)).trans ?_
      rw [List.length_cons, Int64.ofNat_add, Int64.add_assoc]
      simp [Int64.add_comm]

theorem foldlM_integers (integers : List Int64) (start : Int64) (doubles : Binary64)
    (anyDouble seen : Bool) :
    (integers.map Scalar.int).foldlM updateNonNull (sum start doubles anyDouble seen) =
      .ok (sum (start + Int64.ofInt (integers.map Int64.toInt).sum) doubles anyDouble
        (seen || !integers.isEmpty)) := by
  induction integers generalizing start seen with
  | nil => simp [pure, Except.pure]
  | cons integer integers ih =>
      rw [List.map_cons, List.foldlM_cons, updateNonNull]
      refine (ih (start + integer) true).trans ?_
      simp [Int64.add_assoc]

theorem foldlM_doubles (doubles : List Binary64) (integers : Int64) (start : Binary64)
    (anyDouble seen : Bool) :
    (doubles.map Scalar.float).foldlM updateNonNull (sum integers start anyDouble seen) =
      .ok (sum integers (doubles.foldl Binary64.add start) (anyDouble || !doubles.isEmpty)
        (seen || !doubles.isEmpty)) := by
  induction doubles generalizing start anyDouble seen with
  | nil => simp [pure, Except.pure]
  | cons double doubles ih =>
      rw [List.map_cons, List.foldlM_cons, updateNonNull]
      refine (ih (start.add double) true true).trans ?_
      simp

theorem foldlM_average {numbers : List Binary64}
    (numbersAre : values.map Scalar.asBinary64 = numbers.map some) (start : Binary64)
    (count : UInt64) :
    values.foldlM updateNonNull (average start count) =
      .ok (average (numbers.foldl Binary64.add start) (count + UInt64.ofNat numbers.length)) := by
  induction numbers generalizing values start count with
  | nil =>
      obtain rfl := List.map_eq_nil_iff.mp numbersAre
      simp [pure, Except.pure]
  | cons number numbers ih =>
      obtain ⟨value, rest, rfl, valueIs, restAre⟩ := List.map_eq_cons_iff.mp numbersAre
      rw [List.foldlM_cons, updateNonNull, valueIs]
      refine (ih restAre (start.add number) (count + 1)).trans ?_
      rw [List.length_cons, UInt64.ofNat_add, UInt64.add_assoc]
      simp [UInt64.add_comm]

theorem foldlM_first (found : Option Scalar) :
    values.foldlM updateNonNull (first found) = .ok (first (found <|> values.head?)) := by
  induction values generalizing found with
  | nil => simp [pure, Except.pure]
  | cons value values ih =>
      rw [List.foldlM_cons, updateNonNull]
      refine (ih _).trans ?_
      cases found <;> simp

theorem foldlM_median (seen : List Scalar) :
    values.foldlM updateNonNull (median seen) = .ok (median (seen ++ values)) := by
  induction values generalizing seen with
  | nil => simp [pure, Except.pure]
  | cons value values ih =>
      rw [List.foldlM_cons, updateNonNull]
      refine (ih _).trans ?_
      simp

/-- What is kept of two values: the second if it compares so with the first. -/
def keepExtreme (outcome : Ordering) (kept : Option Scalar) (value : Scalar) : Option Scalar :=
  if kept.all fun kept => value.order kept == outcome then some value else kept

theorem foldlM_min (least : Option Scalar) :
    values.foldlM updateNonNull (min least) = .ok (min (values.foldl (keepExtreme .lt) least)) := by
  induction values generalizing least with
  | nil => rfl
  | cons value values ih => exact ih (keepExtreme .lt least value)

theorem foldlM_max (greatest : Option Scalar) :
    values.foldlM updateNonNull (max greatest) =
      .ok (max (values.foldl (keepExtreme .gt) greatest)) := by
  induction values generalizing greatest with
  | nil => rfl
  | cons value values ih => exact ih (keepExtreme .gt greatest value)

end States

theorem order_self_ne {outcome : Ordering} (strict : outcome ≠ .eq) (value : Scalar) :
    value.order value ≠ outcome := by
  rw [Scalar.order_self]
  exact strict.symm

/-- Of two values one is kept, and neither compares so with it. -/
theorem exists_keepExtreme {outcome : Ordering} (strict : outcome ≠ .eq) (kept value : Scalar) :
    ∃ next, keepExtreme outcome (some kept) value = some next ∧ (next = kept ∨ next = value) ∧
      kept.order next ≠ outcome ∧ value.order next ≠ outcome := by
  by_cases replaced : value.order kept = outcome
  · refine ⟨value, by simp [keepExtreme, replaced], .inr rfl, ?_, order_self_ne strict value⟩
    rw [← Scalar.order_swap, replaced]
    cases outcome <;> simp_all
  · exact ⟨kept, by simp [keepExtreme, replaced], .inl rfl, order_self_ne strict kept, replaced⟩

/-- The value kept in the end is one of the values, and none compares so with it. -/
theorem exists_foldl_keepExtreme {members : Scalar → Prop} {outcome : Ordering}
    (ordered : OrderedAmong Scalar.order members) (strict : outcome ≠ .eq) {kept : Scalar}
    (areMembers : ∀ value ∈ kept :: values, members value) :
    ∃ result ∈ kept :: values, values.foldl (keepExtreme outcome) (some kept) = some result ∧
      ∀ value ∈ kept :: values, value.order result ≠ outcome := by
  induction values generalizing kept with
  | nil =>
      exact ⟨kept, List.mem_cons_self, rfl, by simpa using order_self_ne strict kept⟩
  | cons value values ih =>
      obtain ⟨keptIs, valueIs, restAre⟩ : members kept ∧ members value ∧
          ∀ other ∈ values, members other := by simpa using areMembers
      obtain ⟨next, nextIs, isOne, keptNot, valueNot⟩ := exists_keepExtreme strict kept value
      have nextMember : members next := by
        rcases isOne with rfl | rfl
        · exact keptIs
        · exact valueIs
      have nextAre : ∀ other ∈ next :: values, members other :=
        List.forall_mem_cons.mpr ⟨nextMember, restAre⟩
      obtain ⟨result, isValue, folded, extreme⟩ := ih nextAre
      have notBeyond {other : Scalar} (otherIs : members other)
          (otherNot : other.order next ≠ outcome) : other.order result ≠ outcome :=
        (ordered.composes other next result otherIs nextMember (nextAre result isValue)).trans_ne
          strict otherNot (extreme next List.mem_cons_self)
      refine ⟨result, ?_, by rw [List.foldl_cons, nextIs, folded], ?_⟩
      · rcases List.mem_cons.mp isValue with rfl | inRest
        · rcases isOne with rfl | rfl <;> simp
        · simp [inRest]
      · rw [List.forall_mem_cons, List.forall_mem_cons]
        exact ⟨notBeyond keptIs keptNot, notBeyond valueIs valueNot,
          fun other inRest => extreme other (List.mem_cons_of_mem _ inRest)⟩

end Accumulator

namespace AggregateFunction

/-- The value of a function over some values, none of them null. -/
def Summarizes : AggregateFunction → List Scalar → Scalar → Prop
  | count, values, result => ∃ number : Int64, result = .int number ∧ number.toInt = values.length
  | sum, values, result =>
      values = [] ∧ result = .null ∨
        (∃ integers : List Int64, integers ≠ [] ∧ values = integers.map .int ∧
          result = .int (Int64.ofInt (integers.map Int64.toInt).sum)) ∨
        ∃ doubles : List Binary64, doubles ≠ [] ∧ values = doubles.map .float ∧
          result = .float (doubles.foldl Binary64.add .zero)
  | min, values, result =>
      values = [] ∧ result = .null ∨
        result ∈ values ∧ ∀ value ∈ values, value.order result ≠ .lt
  | max, values, result =>
      values = [] ∧ result = .null ∨
        result ∈ values ∧ ∀ value ∈ values, value.order result ≠ .gt
  | average, values, result =>
      values = [] ∧ result = .null ∨
        ∃ numbers : List Binary64, numbers ≠ [] ∧ values.map Scalar.asBinary64 = numbers.map some ∧
          result = .float
            ((numbers.foldl Binary64.add .zero).div (Binary64.ofInt numbers.length))
  | custom name _, values, result =>
      name = "first" ∧ result = values.head?.getD .null ∨
        name = "median" ∧ ∃ sorted : List Scalar, sorted.Perm values ∧
          sorted.Pairwise (fun earlier later => earlier.order later ≠ .gt) ∧
          result = (sorted[(values.length - 1) / 2]?).getD .null

variable {function : AggregateFunction} {values : List Scalar}

section Values

/-- Values that are images of elements are the images of a list of elements. -/
theorem exists_eq_map {α β : Type} {image : α → β} {elements : List β}
    (areImages : ∀ element ∈ elements, ∃ source, image source = element) :
    ∃ sources : List α, elements = sources.map image := by
  have inRange : elements ∈ Set.range (List.map image) := by
    rw [Set.range_list_map]
    exact areImages
  obtain ⟨sources, rfl⟩ := inRange
  exact ⟨sources, rfl⟩

/-- Numbers that are not mixed are all integers or all doubles. -/
theorem integers_or_doubles (neverMix : Scalar.NeverMix values)
    (numbers : ∀ value ∈ values, ∃ number, value.asBinary64 = some number) :
    (∃ integers : List Int64, values = integers.map .int) ∨
      ∃ doubles : List Binary64, values = doubles.map .float := by
  by_cases someInteger : ∃ integer, .int integer ∈ values
  · obtain ⟨integer, isValue⟩ := someInteger
    left
    refine exists_eq_map fun value member => ?_
    cases value with
    | int other => exact ⟨other, rfl⟩
    | float double => exact (neverMix _ isValue _ member).elim
    | _ =>
        obtain ⟨number, isNumber⟩ := numbers _ member
        cases isNumber
  · right
    refine exists_eq_map fun value member => ?_
    cases value with
    | int integer => exact absurd ⟨integer, member⟩ someInteger
    | float double => exact ⟨double, rfl⟩
    | _ =>
        obtain ⟨number, isNumber⟩ := numbers _ member
        cases isNumber

theorem summarizes_sum {final : Accumulator} (neverMix : Scalar.NeverMix values)
    (folded : values.foldlM Accumulator.updateNonNull (.sum 0 .zero false false) = .ok final) :
    ∃ result, final.finish = .ok result ∧ sum.Summarizes values result := by
  have numbers := Accumulator.exists_foldlM_iff.mp ⟨final, folded⟩ rfl
  rcases integers_or_doubles neverMix numbers with ⟨integers, rfl⟩ | ⟨doubles, rfl⟩
  · rw [Accumulator.foldlM_integers] at folded
    obtain rfl := Except.ok.inj folded
    cases integers with
    | nil => exact ⟨_, rfl, .inl ⟨rfl, rfl⟩⟩
    | cons integer integers =>
        exact ⟨_, rfl, .inr (.inl ⟨integer :: integers, by simp, rfl, by simp⟩)⟩
  · rw [Accumulator.foldlM_doubles] at folded
    obtain rfl := Except.ok.inj folded
    cases doubles with
    | nil => exact ⟨_, rfl, .inl ⟨rfl, rfl⟩⟩
    | cons double doubles =>
        refine ⟨_, rfl, .inr (.inr ⟨double :: doubles, by simp, rfl, ?_⟩)⟩
        -- The sum of no integers is zero, and it is added in the end.
        exact congrArg Scalar.float (Binary64.zero_add_foldl (double :: doubles))

theorem summarizes_average {final : Accumulator} (fits : values.length < 2 ^ 63)
    (folded : values.foldlM Accumulator.updateNonNull (.average .zero 0) = .ok final) :
    ∃ result, final.finish = .ok result ∧ average.Summarizes values result := by
  have isNumber := Accumulator.exists_foldlM_iff.mp ⟨final, folded⟩ rfl
  have images : ∀ converted ∈ values.map Scalar.asBinary64, ∃ number, some number = converted := by
    intro converted member
    obtain ⟨value, isValue, rfl⟩ := List.mem_map.mp member
    obtain ⟨number, converts⟩ := isNumber value isValue
    exact ⟨number, converts.symm⟩
  obtain ⟨numbers, numbersAre⟩ := exists_eq_map images
  have sameLength : values.length = numbers.length := by
    simpa using congrArg List.length numbersAre
  rw [Accumulator.foldlM_average numbersAre] at folded
  obtain rfl := Except.ok.inj folded
  cases numbers with
  | nil => exact ⟨_, rfl, .inl ⟨List.map_eq_nil_iff.mp numbersAre, rfl⟩⟩
  | cons number numbers =>
      refine ⟨_, rfl, .inr ⟨number :: numbers, by simp, numbersAre, ?_⟩⟩
      have counted : (0 + UInt64.ofNat (number :: numbers).length).toNat =
          (number :: numbers).length := by
        rw [UInt64.zero_add, UInt64.toNat_ofNat_of_lt']
        rw [← sameLength]
        exact fits.trans (by decide)
      have notZero : 0 + UInt64.ofNat (number :: numbers).length ≠ 0 := by
        intro none
        rw [none] at counted
        cases counted
      rw [if_neg notZero, counted]

/-- A fold that keeps the extreme value. -/
theorem extreme_or_null {outcome : Ordering} (neverMix : Scalar.NeverMix values)
    (strict : outcome ≠ .eq) :
    values = [] ∧ (values.foldl (Accumulator.keepExtreme outcome) none).getD .null = .null ∨
      (values.foldl (Accumulator.keepExtreme outcome) none).getD .null ∈ values ∧
        ∀ value ∈ values, value.order
          ((values.foldl (Accumulator.keepExtreme outcome) none).getD .null) ≠ outcome := by
  cases values with
  | nil => exact .inl ⟨rfl, rfl⟩
  | cons value values =>
      obtain ⟨result, isValue, folded, extreme⟩ :=
        Accumulator.exists_foldl_keepExtreme neverMix.orderedAmong strict fun _ member => member
      rw [List.foldl_cons, show Accumulator.keepExtreme outcome none value = some value from rfl,
        folded]
      exact .inr ⟨isValue, extreme⟩

/-- Values that are never mixed are sorted without a stop. -/
theorem summarizes_median (neverMix : Scalar.NeverMix values) :
    ∃ result, (Accumulator.median values).finish = .ok result ∧
      ∃ sorted : List Scalar, sorted.Perm values ∧
        sorted.Pairwise (fun earlier later => earlier.order later ≠ .gt) ∧
        result = (sorted[(values.length - 1) / 2]?).getD .null := by
  have areMembers : ∀ value ∈ values, value ∈ values := fun _ member => member
  have isSorted : Sorting.scalars? values = some _ :=
    Sorting.sort?_of_orders (Sorting.ordersAmong_lt neverMix.orderedAmong) areMembers
  refine ⟨_, ?_, _, Sorting.perm_sort _ values,
    Sorting.pairwise_sort neverMix.orderedAmong areMembers, rfl⟩
  rw [Accumulator.finish, isSorted]
  rfl

end Values

/-- The fold over values that are not null ends with the value that the function has. -/
theorem summarizes_of_foldlM {start final : Accumulator} (neverMix : Scalar.NeverMix values)
    (fits : values.length < 2 ^ 63) (created : Accumulator.ofFunction function = .ok start)
    (folded : values.foldlM Accumulator.updateNonNull start = .ok final) :
    ∃ result, final.finish = .ok result ∧ function.Summarizes values result := by
  cases function with
  | count =>
      cases created
      rw [Accumulator.foldlM_count] at folded
      obtain rfl := Except.ok.inj folded
      exact ⟨_, rfl, _, rfl, by rw [Int64.zero_add, Int64.toInt_ofNat_of_lt fits]⟩
  | sum =>
      cases created
      exact summarizes_sum neverMix folded
  | average =>
      cases created
      exact summarizes_average fits folded
  | min =>
      cases created
      rw [Accumulator.foldlM_min] at folded
      obtain rfl := Except.ok.inj folded
      exact ⟨_, rfl, extreme_or_null neverMix (by decide)⟩
  | max =>
      cases created
      rw [Accumulator.foldlM_max] at folded
      obtain rfl := Except.ok.inj folded
      exact ⟨_, rfl, extreme_or_null neverMix (by decide)⟩
  | custom name accumulative =>
      simp only [Accumulator.ofFunction] at created
      split at created
      case isTrue isFirst =>
        cases created
        rw [Accumulator.foldlM_first] at folded
        obtain rfl := Except.ok.inj folded
        exact ⟨_, rfl, .inl ⟨isFirst, rfl⟩⟩
      case isFalse =>
        split at created
        case isTrue isMedian =>
          cases created
          rw [Accumulator.foldlM_median] at folded
          obtain rfl := Except.ok.inj folded
          obtain ⟨result, finished, isMiddle⟩ := summarizes_median neverMix
          exact ⟨result, finished, .inr ⟨isMedian, isMiddle⟩⟩
        case isFalse => cases created

section Distinct

variable {known elements : List Scalar} {element : Scalar}

theorem mem_insertInto_of_neverMix (neverMix : Scalar.NeverMix known) (isKnown : element ∈ known)
    (areKnown : ∀ other ∈ elements, other ∈ known) {member : Scalar} :
    member ∈ OrderedSet.insertInto element elements ↔ member = element ∨ member ∈ elements :=
  OrderedSet.mem_insertInto_of_lawful fun other inElements =>
    Scalar.eq_of_order_eq element other (neverMix _ isKnown _ (areKnown other inElements))

theorem pairwise_insertInto_of_neverMix (neverMix : Scalar.NeverMix known)
    (isKnown : element ∈ known) (areKnown : ∀ other ∈ elements, other ∈ known)
    (ascending : elements.Pairwise fun earlier later => earlier.order later = .lt) :
    (OrderedSet.insertInto element elements).Pairwise
      fun earlier later => earlier.order later = .lt := by
  induction elements with
  | nil => exact List.pairwise_singleton _ _
  | cons head rest ih =>
      obtain ⟨headKnown, restKnown⟩ := List.forall_mem_cons.mp areKnown
      obtain ⟨aboveHead, restAscends⟩ := List.pairwise_cons.mp ascending
      simp only [OrderedSet.insertInto]
      split
      case h_1 below =>
        refine List.pairwise_cons.mpr ⟨fun other member => ?_, ascending⟩
        rcases List.mem_cons.mp member with rfl | inRest
        · exact below
        · have above := aboveHead other inRest
          exact ((neverMix.orderedAmong.composes element head other isKnown headKnown
            (restKnown other inRest)).same (below.trans above.symm)).trans below
      case h_2 => exact ascending
      case h_3 above =>
        refine List.pairwise_cons.mpr ⟨fun other member => ?_, ih restKnown restAscends⟩
        rcases OrderedSet.mem_insertInto member with rfl | inRest
        · have swapped := Scalar.order_swap other head
          rw [show other.order head = .gt from above] at swapped
          exact swapped.symm
        · exact aboveHead other inRest

/-- The distinct values are the values, in ascending order and each once. -/
theorem distinctValues_correct (neverMix : Scalar.NeverMix values) :
    (distinctValues values).Pairwise (fun earlier later => earlier.order later = .lt) ∧
      ∀ value, value ∈ distinctValues values ↔ value ∈ values := by
  -- Values of the list are put into an ascending list of such values to start with.
  have inserted (rest start : List Scalar) (restKnown : ∀ value ∈ rest, value ∈ values)
      (startKnown : ∀ value ∈ start, value ∈ values)
      (ascending : start.Pairwise fun earlier later => earlier.order later = .lt) :
      (rest.foldl (fun distinct value => OrderedSet.insertInto value distinct) start).Pairwise
          (fun earlier later => earlier.order later = .lt) ∧
        ∀ value, value ∈ rest.foldl (fun distinct value => OrderedSet.insertInto value distinct)
          start ↔ value ∈ start ∨ value ∈ rest := by
    induction rest generalizing start with
    | nil => exact ⟨ascending, by simp⟩
    | cons value rest ih =>
        obtain ⟨isKnown, areKnown⟩ := List.forall_mem_cons.mp restKnown
        have members {member : Scalar} :
            member ∈ OrderedSet.insertInto value start ↔ member = value ∨ member ∈ start :=
          mem_insertInto_of_neverMix neverMix isKnown startKnown
        obtain ⟨ascends, all⟩ := ih (OrderedSet.insertInto value start) areKnown
          (fun member inNext => by
            rcases members.mp inNext with rfl | inStart
            · exact isKnown
            · exact startKnown member inStart)
          (pairwise_insertInto_of_neverMix neverMix isKnown startKnown ascending)
        refine ⟨ascends, fun member => ?_⟩
        rw [List.foldl_cons, all, members, List.mem_cons]
        tauto
  obtain ⟨ascends, all⟩ := inserted values [] (fun _ member => member) (by simp) .nil
  exact ⟨ascends, fun value => by rw [distinctValues, all]; simp⟩

/-- Ascending values are determined by which values there are. -/
theorem eq_of_ascending {first second : List Scalar}
    (firstAscends : first.Pairwise fun earlier later => earlier.order later = .lt)
    (secondAscends : second.Pairwise fun earlier later => earlier.order later = .lt)
    (same : ∀ value, value ∈ first ↔ value ∈ second) : first = second := by
  have irreflexive : Std.Irrefl fun earlier later : Scalar => earlier.order later = .lt :=
    ⟨fun value => by simp [Scalar.order_self]⟩
  have asymmetric : Std.Antisymm fun earlier later : Scalar => earlier.order later = .lt :=
    ⟨fun earlier later below above => by
      rw [← Scalar.order_swap, below] at above
      cases above⟩
  exact List.Pairwise.eq_of_mem_iff firstAscends secondAscends same

end Distinct

section Bags

variable {column : UInt64} {bag : List Row} {distinct : Bool} {result : Scalar}

/-- The values that are folded: all of them in their order, or the distinct ones. -/
def foldedValues (distinct : Bool) (values : List Scalar) : List Scalar :=
  if distinct then distinctValues values else values

theorem mem_nonNull_foldedValues (neverMix : Scalar.NeverMix values) {value : Scalar} :
    value ∈ nonNull (foldedValues distinct values) ↔ value ∈ values ∧ value.isNull = false := by
  rw [nonNull, List.mem_filter, Bool.not_eq_true']
  cases distinct with
  | false => rfl
  | true => exact and_congr_left fun _ => (distinctValues_correct neverMix).2 value

/-- Folding cells as they are read is reading a column and folding its values. -/
theorem foldlM_cells {start final : Accumulator} :
    bag.foldlM (fun accumulator row => do accumulator.update (← row.cell column)) start =
        .ok final ↔
      ∃ values, (bag.mapM fun row => row.cell column) = .ok values ∧
        values.foldlM Accumulator.update start = .ok final := by
  induction bag generalizing start with
  | nil => simp [pure, Except.pure]
  | cons row bag ih =>
      simp only [List.foldlM_cons, List.mapM_cons, bind_eq_ok, pure_eq_ok, ih]
      constructor
      · rintro ⟨next, ⟨cell, atColumn, updated⟩, values, read, folded⟩
        exact ⟨cell :: values, ⟨cell, atColumn, values, read, rfl⟩,
          bind_eq_ok.mpr ⟨next, updated, folded⟩⟩
      · rintro ⟨_, ⟨cell, atColumn, values, read, rfl⟩, folded⟩
        obtain ⟨next, updated, rest⟩ := bind_eq_ok.mp folded
        exact ⟨next, ⟨cell, atColumn, updated⟩, values, read, rest⟩

/-- A function succeeds over a bag if it is known, every row has the column and the fold over
the values that are not null succeeds. -/
theorem overBag_eq_ok :
    function.overBag column distinct bag = .ok result ↔
      ∃ start final, Accumulator.ofFunction function = .ok start ∧ HaveColumn column bag ∧
        (nonNull (foldedValues distinct (columnValues column bag))).foldlM
          Accumulator.updateNonNull start = .ok final ∧ final.finish = .ok result := by
  cases distinct with
  | false =>
      simp only [overBag, Bool.false_eq_true, if_false, bind_eq_ok, foldlM_cells,
        mapM_cell_eq_ok, foldedValues, ← Accumulator.foldlM_update]
      constructor
      · rintro ⟨start, created, final, ⟨_, ⟨haveColumn, rfl⟩, folded⟩, finished⟩
        exact ⟨start, final, created, haveColumn, folded, finished⟩
      · rintro ⟨start, final, created, haveColumn, folded, finished⟩
        exact ⟨start, created, final, ⟨_, ⟨haveColumn, rfl⟩, folded⟩, finished⟩
  | true =>
      simp only [overBag, if_true, bind_eq_ok, mapM_cell_eq_ok, foldedValues,
        ← Accumulator.foldlM_update]
      constructor
      · rintro ⟨start, created, _, ⟨haveColumn, rfl⟩, final, folded, finished⟩
        exact ⟨start, final, created, haveColumn, folded, finished⟩
      · rintro ⟨start, final, created, haveColumn, folded, finished⟩
        exact ⟨start, created, _, ⟨haveColumn, rfl⟩, final, folded, finished⟩

/-- With distinct values, the function is folded over them as over a bag of their own. -/
theorem overBag_distinct (haveColumn : HaveColumn column bag) :
    function.overBag column true bag =
      function.overBag 0 false
        ((distinctValues (columnValues column bag)).map fun value => [value]) := by
  have read := mapM_cell_eq_ok.mpr ⟨haveColumn, rfl⟩
  rw [overBag, overBag]
  simp only [if_true, Bool.false_eq_true, if_false, read, List.foldlM_map]
  rfl

/-- The function is a custom one of a name that has no meaning. -/
def Unknown (function : AggregateFunction) : Prop :=
  ∃ name accumulative, function = custom name accumulative ∧ name ≠ "first" ∧ name ≠ "median"

theorem exists_ofFunction_iff :
    (∃ start, Accumulator.ofFunction function = .ok start) ↔ ¬ function.Unknown := by
  cases function with
  | custom name accumulative =>
      by_cases isFirst : name = "first"
      · simp [Accumulator.ofFunction, Unknown, isFirst]
      · by_cases isMedian : name = "median" <;>
          simp [Accumulator.ofFunction, Unknown, isFirst, isMedian]
  | _ => simp [Accumulator.ofFunction, Unknown]

theorem foldsNumbers_ofFunction {start : Accumulator}
    (created : Accumulator.ofFunction function = .ok start) :
    start.foldsNumbers = true ↔ function = sum ∨ function = average := by
  cases function with
  | custom name accumulative =>
      simp only [Accumulator.ofFunction] at created
      split at created
      · cases created
        simp [Accumulator.foldsNumbers]
      · split at created
        · cases created
          simp [Accumulator.foldsNumbers]
        · cases created
  | _ =>
      cases created
      simp [Accumulator.foldsNumbers]

/-- No more values are folded than the bag has rows. -/
theorem length_nonNull_foldedValues (neverMix : Scalar.NeverMix (columnValues column bag)) :
    (nonNull (foldedValues distinct (columnValues column bag))).length ≤ bag.length := by
  have cells : (columnValues column bag).length ≤ bag.length := List.length_filterMap_le _ _
  refine (List.length_filter_le _ _).trans (le_trans ?_ cells)
  cases distinct with
  | false => exact le_rfl
  | true =>
      obtain ⟨ascends, same⟩ := distinctValues_correct neverMix
      have nodup : (distinctValues (columnValues column bag)).Nodup :=
        ascends.imp fun below equal => by simp [equal, Scalar.order_self] at below
      exact (List.subperm_of_subset nodup fun value => (same value).mp).length_le

/-- The fold over the values of a column ends with the value that the function has. -/
theorem summarizes_of_foldedValues {start final : Accumulator}
    (neverMix : Scalar.NeverMix (columnValues column bag)) (fits : bag.length < 2 ^ 63)
    (created : Accumulator.ofFunction function = .ok start)
    (folded : (nonNull (foldedValues distinct (columnValues column bag))).foldlM
      Accumulator.updateNonNull start = .ok final) :
    ∃ result, final.finish = .ok result ∧
      function.Summarizes (nonNull (foldedValues distinct (columnValues column bag))) result := by
  have neverMixToo : Scalar.NeverMix (nonNull (foldedValues distinct (columnValues column bag))) :=
    fun first isFirst second isSecond =>
      neverMix first ((mem_nonNull_foldedValues neverMix).mp isFirst).1 second
        ((mem_nonNull_foldedValues neverMix).mp isSecond).1
  exact summarizes_of_foldlM neverMixToo ((length_nonNull_foldedValues neverMix).trans_lt fits)
    created folded

/-- A known function succeeds over a column unless it folds numbers and meets another value. -/
theorem exists_overBag_iff {start : Accumulator}
    (neverMix : Scalar.NeverMix (columnValues column bag)) (fits : bag.length < 2 ^ 63)
    (haveColumn : HaveColumn column bag)
    (created : Accumulator.ofFunction function = .ok start) :
    (∃ result, function.overBag column distinct bag = .ok result) ↔
      (start.foldsNumbers = true → ∀ value ∈ columnValues column bag, value.isNull = false →
        ∃ number, value.asBinary64 = some number) := by
  have folds : (∃ final, (nonNull (foldedValues distinct (columnValues column bag))).foldlM
        Accumulator.updateNonNull start = .ok final) ↔
      (start.foldsNumbers = true → ∀ value ∈ columnValues column bag, value.isNull = false →
        ∃ number, value.asBinary64 = some number) := by
    rw [Accumulator.exists_foldlM_iff]
    simp only [mem_nonNull_foldedValues neverMix, and_imp]
  rw [← folds]
  constructor
  · rintro ⟨result, succeeds⟩
    obtain ⟨other, final, createdToo, -, folded, -⟩ := overBag_eq_ok.mp succeeds
    obtain rfl := Except.ok.inj (created.symm.trans createdToo)
    exact ⟨final, folded⟩
  · rintro ⟨final, folded⟩
    obtain ⟨result, finished, -⟩ := summarizes_of_foldedValues neverMix fits created folded
    exact ⟨result, overBag_eq_ok.mpr ⟨start, final, created, haveColumn, folded, finished⟩⟩

/-- A function fails over a bag if a row lacks the column, if it is unknown, or if it folds
numbers and a value is neither a number nor null. -/
theorem overBag_fails_iff (neverMix : Scalar.NeverMix (columnValues column bag))
    (fits : bag.length < 2 ^ 63) :
    (∃ error, function.overBag column distinct bag = .error error) ↔
      (∃ row ∈ bag, row[column.toNat]? = none) ∨ function.Unknown ∨
        (function = sum ∨ function = average) ∧ ∃ value ∈ columnValues column bag,
          value.isNull = false ∧ value.asBinary64 = none := by
  have lacks : (∃ row ∈ bag, row[column.toNat]? = none) ↔ ¬ HaveColumn column bag := by
    simp [HaveColumn, Option.eq_none_iff_forall_ne_some]
  rw [lacks, exists_error_iff]
  by_cases haveColumn : HaveColumn column bag
  · by_cases unknown : function.Unknown
    · refine iff_of_true ?_ (.inr (.inl unknown))
      rintro ⟨result, succeeds⟩
      obtain ⟨start, -, created, -⟩ := overBag_eq_ok.mp succeeds
      exact exists_ofFunction_iff.mp ⟨start, created⟩ unknown
    · obtain ⟨start, created⟩ := exists_ofFunction_iff.mpr unknown
      rw [exists_overBag_iff neverMix fits haveColumn created, foldsNumbers_ofFunction created]
      simp [haveColumn, unknown, Option.eq_none_iff_forall_ne_some]
  · refine iff_of_true ?_ (.inl haveColumn)
    rintro ⟨result, succeeds⟩
    obtain ⟨-, -, -, have_, -⟩ := overBag_eq_ok.mp succeeds
    exact haveColumn have_

theorem summarizes_of_overBag (neverMix : Scalar.NeverMix (columnValues column bag))
    (fits : bag.length < 2 ^ 63) (succeeds : function.overBag column distinct bag = .ok result) :
    function.Summarizes (nonNull (foldedValues distinct (columnValues column bag))) result := by
  obtain ⟨start, final, created, -, folded, finished⟩ := overBag_eq_ok.mp succeeds
  obtain ⟨value, finishedToo, summarizes⟩ :=
    summarizes_of_foldedValues neverMix fits created folded
  obtain rfl := Except.ok.inj (finishedToo.symm.trans finished)
  exact summarizes

end Bags

/-- An aggregate over values that never mix integers with doubles fails exactly if a row lacks
the column, the function is unknown, or a sum or average meets a value that is neither a number
nor null.  Otherwise its value is the one that the function has over the values that are not null.
With distinct values it is the same function over the ascending list of the different values, so
it depends on the set of values only.  A bag that fits into memory has fewer than 2^63 rows. -/
theorem overBag_correct (function : AggregateFunction) {column : UInt64} {bag : List Row}
    (neverMix : Scalar.NeverMix (columnValues column bag)) (fits : bag.length < 2 ^ 63) :
    (∀ distinct, (∃ error, function.overBag column distinct bag = .error error) ↔
      (∃ row ∈ bag, row[column.toNat]? = none) ∨ function.Unknown ∨
        (function = sum ∨ function = average) ∧ ∃ value ∈ columnValues column bag,
          value.isNull = false ∧ value.asBinary64 = none) ∧
    (∀ result, function.overBag column false bag = .ok result →
      function.Summarizes (nonNull (columnValues column bag)) result) ∧
    ∃ different : List Scalar,
      different.Pairwise (fun earlier later => earlier.order later = .lt) ∧
      (∀ value, value ∈ different ↔ value ∈ columnValues column bag) ∧
      (∀ result, function.overBag column true bag = .ok result →
        function.Summarizes (nonNull different) result) ∧
      (HaveColumn column bag → function.overBag column true bag =
        function.overBag 0 false (different.map fun value => [value])) ∧
      ∀ otherColumn other, HaveColumn column bag → HaveColumn otherColumn other →
        (∀ value, value ∈ columnValues otherColumn other ↔ value ∈ columnValues column bag) →
          function.overBag otherColumn true other = function.overBag column true bag := by
  obtain ⟨ascends, same⟩ := distinctValues_correct neverMix
  refine ⟨fun distinct => overBag_fails_iff neverMix fits,
    fun result => summarizes_of_overBag neverMix fits,
    distinctValues (columnValues column bag), ascends, same,
    fun result => summarizes_of_overBag neverMix fits, overBag_distinct, ?_⟩
  intro otherColumn other haveColumn otherHave sameSet
  have otherNeverMix : Scalar.NeverMix (columnValues otherColumn other) :=
    fun first isFirst second isSecond =>
      neverMix first ((sameSet first).mp isFirst) second ((sameSet second).mp isSecond)
  obtain ⟨otherAscends, otherSame⟩ := distinctValues_correct otherNeverMix
  have equal : distinctValues (columnValues otherColumn other) =
      distinctValues (columnValues column bag) :=
    eq_of_ascending otherAscends ascends fun value => by rw [otherSame, same, sameSet]
  rw [overBag_distinct haveColumn, overBag_distinct otherHave, equal]

/-- Visits with a time, one of them unknown and one time given twice. -/
def visitTimes : List Row :=
  [[.text "home", .int 30], [.text "shop", .null], [.text "home", .int 10], [.text "help", .int 30]]

theorem overBag_correct_visitTimes :
    Scalar.NeverMix (columnValues 1 visitTimes) ∧ visitTimes.length < 2 ^ 63 ∧
      (custom "median" false).overBag 1 false visitTimes = .ok (.int 30) ∧
      sum.overBag 1 true visitTimes = .ok (.int 40) ∧
      min.Summarizes [.int 30, .int 10, .int 30] (.int 10) := by
  have neverMix : Scalar.NeverMix (columnValues 1 visitTimes) := by
    have separate (_ : Int64) (_ : Binary64) : True → False → False := fun _ none => none
    refine Scalar.neverMix_of_draws separate ?_
    have cells : columnValues 1 visitTimes = [.int 30, .null, .int 10, .int 30] := by rfl
    simp [cells, Scalar.Draws]
  have fits : visitTimes.length < 2 ^ 63 := by decide
  obtain ⟨-, meaning, -⟩ := overBag_correct min neverMix fits
  exact ⟨neverMix, fits, by rfl, by rfl, meaning (.int 10) (by rfl)⟩

end AggregateFunction

end BatchFlow
