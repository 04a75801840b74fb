import BatchFlow.Proofs.Number.Rounding
import BatchFlow.Scalar

/-!
# The order of scalars

Comparing two scalars the other way round gives the opposite outcome.  The order is
transitive as long as no double among the scalars is the value of two different integers
among them: integers are compared exactly with each other, but after rounding with a
double, so such a double is equal to both of them.
-/

namespace BatchFlow

/-- The outcomes of comparing a first element with a second, the second with a third, and
the first with the third fit together. -/
structure Composes (firstSecond secondThird firstThird : Ordering) : Prop where
  left : firstSecond = .eq → firstThird = secondThird
  right : secondThird = .eq → firstThird = firstSecond
  same : firstSecond = secondThird → firstThird = firstSecond

namespace Composes

variable {firstSecond secondThird firstThird : Ordering}

theorem of_compare {α : Type} [Ord α] [Std.TransOrd α] (first second third : α) :
    Composes (compare first second) (compare second third) (compare first third) where
  left := Std.TransCmp.congr_left
  right equal := (Std.TransCmp.congr_right equal).symm
  same alike := by
    cases outcome : compare first second with
    | lt => exact Std.TransCmp.lt_trans outcome (alike ▸ outcome)
    | eq => exact Std.TransCmp.eq_trans outcome (alike ▸ outcome)
    | gt => exact Std.TransCmp.gt_trans outcome (alike ▸ outcome)

/-- The second and the third element change places. -/
theorem exchange (composes : Composes firstSecond secondThird firstThird) :
    Composes firstThird secondThird.swap firstSecond := by
  obtain ⟨left, right, same⟩ := composes
  constructor <;> cases firstSecond <;> cases secondThird <;> cases firstThird <;> simp_all

/-- The third element comes before the others. -/
theorem rotate (composes : Composes firstSecond secondThird firstThird) :
    Composes firstThird.swap firstSecond secondThird.swap := by
  obtain ⟨left, right, same⟩ := composes
  constructor <;> cases firstSecond <;> cases secondThird <;> cases firstThird <;> simp_all

/-- Comparisons decided by a second one where the first says nothing. -/
theorem andThen {firstSecond' secondThird' firstThird' : Ordering}
    (composes : Composes firstSecond secondThird firstThird)
    (rest : firstSecond = .eq → secondThird = .eq →
      Composes firstSecond' secondThird' firstThird') :
    Composes (firstSecond.then firstSecond') (secondThird.then secondThird')
      (firstThird.then firstThird') := by
  obtain ⟨left, right, same⟩ := composes
  cases firstSecond with
  | eq =>
      obtain rfl := left rfl
      cases firstThird with
      | eq => exact rest rfl rfl
      | lt | gt => constructor <;> simp [eq_comm]
  | lt | gt =>
      cases secondThird with
      | eq =>
          obtain rfl := right rfl
          constructor <;> simp
      | lt | gt => constructor <;> simp_all

theorem trans_eq (composes : Composes firstSecond secondThird firstThird)
    (first : firstSecond = .eq) (second : secondThird = .eq) : firstThird = .eq :=
  (composes.left first).trans second

theorem trans_ne_gt (composes : Composes firstSecond secondThird firstThird)
    (first : firstSecond ≠ .gt) (second : secondThird ≠ .gt) : firstThird ≠ .gt := by
  obtain ⟨left, right, same⟩ := composes
  cases firstSecond <;> cases secondThird <;> simp_all

end Composes

namespace Scalar

/-- Scalars of different kinds are ordered by their kinds. -/
theorem order_of_rank_ne {first second : Scalar} (different : first.rank ≠ second.rank) :
    first.order second = compare first.rank second.rank := by
  fun_cases order first second
  case case9 => rfl
  all_goals exact absurd rfl different

theorem order_eq_then (first second : Scalar) :
    first.order second = (compare first.rank second.rank).then (first.order second) := by
  by_cases same : first.rank = second.rank
  · rw [Std.compare_eq_iff_eq.mpr same]
    rfl
  · rw [order_of_rank_ne same]
    cases compare first.rank second.rank <;> rfl

mutual

/-- The other way round, a comparison gives the opposite outcome. -/
theorem order_swap (first second : Scalar) : (first.order second).swap = second.order first := by
  cases first <;> cases second
  case bag.bag firsts seconds => exact rowsOrder_swap firsts seconds
  case null.null => rfl
  all_goals
    simp only [order, rank, Binary64.totalOrder]
    exact Std.OrientedCmp.eq_swap.symm

theorem rowOrder_swap (first second : List Scalar) :
    (rowOrder first second).swap = rowOrder second first := by
  cases first with
  | nil => cases second <;> rfl
  | cons cell cells =>
      cases second with
      | nil => rfl
      | cons other others =>
          simp only [rowOrder]
          rw [Ordering.swap_then, order_swap cell other, rowOrder_swap cells others]

theorem rowsOrder_swap (first second : List (List Scalar)) :
    (rowsOrder first second).swap = rowsOrder second first := by
  cases first with
  | nil => cases second <;> rfl
  | cons row rows =>
      cases second with
      | nil => rfl
      | cons other others =>
          simp only [rowsOrder]
          rw [Ordering.swap_then, rowOrder_swap row other, rowsOrder_swap rows others]

end

theorem order_self (value : Scalar) : value.order value = .eq := by
  have swapped := order_swap value value
  cases outcome : value.order value <;> simp_all

mutual

/-- The integers and the doubles of a scalar, also inside its bags, are of the given ones. -/
def Draws (ints : Int64 → Prop) (floats : Binary64 → Prop) : Scalar → Prop
  | int value => ints value
  | float value => floats value
  | bag rows => RowsDraw ints floats rows
  | null | bool _ | text _ => True

/-- The cells of a row draw from the given numbers. -/
def RowDraws (ints : Int64 → Prop) (floats : Binary64 → Prop) : List Scalar → Prop
  | [] => True
  | cell :: cells => Draws ints floats cell ∧ RowDraws ints floats cells

/-- The rows of a list draw from the given numbers. -/
def RowsDraw (ints : Int64 → Prop) (floats : Binary64 → Prop) : List (List Scalar) → Prop
  | [] => True
  | row :: rows => RowDraws ints floats row ∧ RowsDraw ints floats rows

end

/-- Each of the given doubles is the value of at most one of the given integers. -/
def Unambiguous (ints : Int64 → Prop) (floats : Binary64 → Prop) : Prop :=
  ∀ first second, ints first → ints second → floats (Binary64.ofInt first.toInt) →
    Binary64.ofInt first.toInt = Binary64.ofInt second.toInt → first = second

section Numbers

/-- Rounding two integers makes them equal or keeps their order. -/
theorem totalOrder_ofInt (first second : Int64) :
    (Binary64.ofInt first.toInt).totalOrder (Binary64.ofInt second.toInt) = .eq ∨
      (Binary64.ofInt first.toInt).totalOrder (Binary64.ofInt second.toInt) =
        compare first second := by
  unfold Binary64.totalOrder
  cases outcome : compare first second with
  | eq =>
      obtain rfl := Std.compare_eq_iff_eq.mp outcome
      exact .inl Std.ReflCmp.compare_self
  | lt =>
      have below : first.toInt ≤ second.toInt :=
        (Int64.lt_iff_toInt_lt.mp (Std.compare_eq_lt.mp outcome)).le
      have rounded := Std.isLE_compare.mpr (Binary64.orderKey_ofInt_mono below)
      exact (Ordering.isLE_iff_eq_lt_or_eq_eq.mp rounded).symm
  | gt =>
      have below : second.toInt ≤ first.toInt :=
        (Int64.lt_iff_toInt_lt.mp (Std.compare_eq_gt.mp outcome)).le
      have rounded := Std.isGE_compare.mpr (Binary64.orderKey_ofInt_mono below)
      exact (Ordering.isGE_iff_eq_gt_or_eq_eq.mp rounded).symm

/-- Two integers and a double, which is not the value of both unless they are the same. -/
theorem composes_int_int_float {first second : Int64} {third : Binary64}
    (unambiguous : Binary64.ofInt first.toInt = Binary64.ofInt second.toInt →
      Binary64.ofInt second.toInt = third → first = second) :
    Composes ((int first).order (int second)) ((int second).order (float third))
      ((int first).order (float third)) := by
  have doubles := Composes.of_compare (Binary64.ofInt first.toInt).orderKey
    (Binary64.ofInt second.toInt).orderKey third.orderKey
  have rounding := totalOrder_ofInt first second
  simp only [order]
  constructor
  · intro equal
    obtain rfl := Std.compare_eq_iff_eq.mp equal
    rfl
  · intro equal
    rcases rounding with merged | kept
    · have same : first = second := unambiguous
        (Binary64.orderKey_injective (Std.compare_eq_iff_eq.mp merged))
        (Binary64.orderKey_injective (Std.compare_eq_iff_eq.mp equal))
      subst same
      exact equal.trans Std.ReflCmp.compare_self.symm
    · exact (doubles.right equal).trans kept
  · intro alike
    rcases rounding with merged | kept
    · exact (doubles.left merged).trans alike.symm
    · exact (doubles.same (kept.trans alike)).trans kept

theorem composes_int_float_int {first third : Int64} {second : Binary64}
    (unambiguous : Binary64.ofInt first.toInt = Binary64.ofInt third.toInt →
      Binary64.ofInt third.toInt = second → first = third) :
    Composes ((int first).order (float second)) ((float second).order (int third))
      ((int first).order (int third)) := by
  rw [← order_swap (int third)]
  exact (composes_int_int_float unambiguous).exchange

theorem composes_float_int_int {first : Binary64} {second third : Int64}
    (unambiguous : Binary64.ofInt second.toInt = Binary64.ofInt third.toInt →
      Binary64.ofInt third.toInt = first → second = third) :
    Composes ((float first).order (int second)) ((int second).order (int third))
      ((float first).order (int third)) := by
  rw [← order_swap (int second) (float first), ← order_swap (int third) (float first)]
  exact (composes_int_int_float unambiguous).rotate

/-- Two integers that a double does not tell apart are both equal to it. -/
theorem order_ofInt {first second : Int64}
    (same : Binary64.ofInt first.toInt = Binary64.ofInt second.toInt) :
    (int first).order (float (Binary64.ofInt second.toInt)) = .eq := by
  simp only [order, Binary64.totalOrder]
  rw [same]
  exact Std.ReflCmp.compare_self

end Numbers

section Composition

variable {ints : Int64 → Prop} {floats : Binary64 → Prop}

mutual

/-- Comparisons of scalars whose numbers are unambiguous fit together. -/
theorem order_composes (unambiguous : Unambiguous ints floats) (first second third : Scalar)
    (drawsFirst : Draws ints floats first) (drawsSecond : Draws ints floats second)
    (drawsThird : Draws ints floats third) :
    Composes (first.order second) (second.order third) (first.order third) := by
  rw [order_eq_then first, order_eq_then second, order_eq_then first third]
  refine (Composes.of_compare first.rank second.rank third.rank).andThen ?_
  intro firstSecond secondThird
  rw [Std.compare_eq_iff_eq] at firstSecond secondThird
  cases first <;> cases second <;> cases firstSecond <;> cases third <;> cases secondThird
  case null.null.refl.null.refl => constructor <;> intro <;> rfl
  case bag.bag.refl.bag.refl firsts seconds thirds =>
    exact rowsOrder_composes unambiguous firsts seconds thirds drawsFirst drawsSecond drawsThird
  case int.int.refl.float.refl first second third =>
    apply composes_int_int_float
    intro same isThird
    exact unambiguous first second drawsFirst drawsSecond (same ▸ isThird ▸ drawsThird) same
  case int.float.refl.int.refl first second third =>
    apply composes_int_float_int
    intro same isSecond
    exact unambiguous first third drawsFirst drawsThird (same ▸ isSecond ▸ drawsSecond) same
  case float.int.refl.int.refl first second third =>
    apply composes_float_int_int
    intro same isFirst
    exact unambiguous second third drawsSecond drawsThird (same ▸ isFirst ▸ drawsFirst) same
  all_goals
    simp only [order, Binary64.totalOrder]
    apply Composes.of_compare

theorem rowOrder_composes (unambiguous : Unambiguous ints floats) (first second third : List Scalar)
    (drawsFirst : RowDraws ints floats first) (drawsSecond : RowDraws ints floats second)
    (drawsThird : RowDraws ints floats third) :
    Composes (rowOrder first second) (rowOrder second third) (rowOrder first third) := by
  cases first <;> cases second <;> cases third
  case cons.cons.cons first firsts second seconds third thirds =>
    simp only [rowOrder]
    refine (order_composes unambiguous first second third drawsFirst.1 drawsSecond.1
      drawsThird.1).andThen ?_
    intros
    exact rowOrder_composes unambiguous firsts seconds thirds drawsFirst.2 drawsSecond.2
      drawsThird.2
  all_goals constructor <;> simp [rowOrder, eq_comm]

theorem rowsOrder_composes (unambiguous : Unambiguous ints floats)
    (first second third : List (List Scalar)) (drawsFirst : RowsDraw ints floats first)
    (drawsSecond : RowsDraw ints floats second) (drawsThird : RowsDraw ints floats third) :
    Composes (rowsOrder first second) (rowsOrder second third) (rowsOrder first third) := by
  cases first <;> cases second <;> cases third
  case cons.cons.cons first firsts second seconds third thirds =>
    simp only [rowsOrder]
    refine (rowOrder_composes unambiguous first second third drawsFirst.1 drawsSecond.1
      drawsThird.1).andThen ?_
    intros
    exact rowsOrder_composes unambiguous firsts seconds thirds drawsFirst.2 drawsSecond.2
      drawsThird.2
  all_goals constructor <;> simp [rowsOrder, eq_comm]

end

end Composition

/-- The order of scalars is total, and it is transitive on the scalars that draw from some
integers and doubles exactly when none of the doubles is the value of two of the integers. -/
theorem order_total_transitive_iff (ints : Int64 → Prop) (floats : Binary64 → Prop) :
    (∀ first second : Scalar, second.order first = (first.order second).swap) ∧
      ((∀ first second third : Scalar, Draws ints floats first → Draws ints floats second →
        Draws ints floats third →
          (first.order second = .eq → second.order third = .eq → first.order third = .eq) ∧
          (first.order second ≠ .gt → second.order third ≠ .gt → first.order third ≠ .gt)) ↔
        Unambiguous ints floats) := by
  refine ⟨fun first second => (order_swap first second).symm, ?_, ?_⟩
  · intro transitive first second drawsFirst drawsSecond drawsFloat same
    have equal := (transitive (int first) (float (Binary64.ofInt first.toInt)) (int second)
      drawsFirst drawsFloat drawsSecond).1 (order_ofInt rfl)
        (by rw [← order_swap, order_ofInt same.symm]; rfl)
    exact Std.compare_eq_iff_eq.mp equal
  · intro unambiguous first second third drawsFirst drawsSecond drawsThird
    have composes := order_composes unambiguous first second third drawsFirst drawsSecond
      drawsThird
    exact ⟨composes.trans_eq, composes.trans_ne_gt⟩

/-- Two different integers above two to the power 53 are equal to one double. -/
theorem order_not_transitive :
    (int 9007199254740992).order (float ⟨0x4340000000000000⟩) = .eq ∧
      (float ⟨0x4340000000000000⟩).order (int 9007199254740993) = .eq ∧
      (int 9007199254740992).order (int 9007199254740993) = .lt := by
  decide

/-- Integers of magnitude up to two to the power 53 are unambiguous beside any doubles. -/
theorem unambiguous_of_natAbs_le {ints : Int64 → Prop} {floats : Binary64 → Prop}
    (exact : ∀ value, ints value → value.toInt.natAbs ≤ 2 ^ 53) : Unambiguous ints floats := by
  intro first second drawsFirst drawsSecond drawsFloat same
  apply Int64.toInt_inj.mp
  exact Binary64.eq_of_ofInt_eq (exact first drawsFirst) (exact second drawsSecond) same

/-- Without doubles, all integers are unambiguous. -/
theorem unambiguous_of_no_floats (ints : Int64 → Prop) :
    Unambiguous ints (fun _ => False) := by
  intro first second drawsFirst drawsSecond drawsFloat
  exact drawsFloat.elim

end Scalar

end BatchFlow
