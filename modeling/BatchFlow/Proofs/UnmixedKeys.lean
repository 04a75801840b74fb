import BatchFlow.Proofs.OrderedRows

/-!
# Keys that do not mix integers with doubles

The comparison of scalars reaches an integer and a double together only where one of the
two scalars has an integer and the other a double at the same place.  Scalars in which that
happens nowhere are compared number by number of one kind, and so their order is transitive.
-/

namespace BatchFlow

namespace Scalar

mutual

/-- No place holds an integer in one of two scalars and a double in the other, also inside
their bags. -/
def Unmixed : Scalar → Scalar → Prop
  | int _, float _ | float _, int _ => False
  | bag rows, bag others => RowsUnmixed rows others
  | _, _ => True

/-- The cells of two rows at the same places are not mixed. -/
def RowUnmixed : List Scalar → List Scalar → Prop
  | cell :: cells, other :: others => Unmixed cell other ∧ RowUnmixed cells others
  | _, _ => True

/-- The rows of two lists at the same places are not mixed. -/
def RowsUnmixed : List (List Scalar) → List (List Scalar) → Prop
  | row :: rows, other :: others => RowUnmixed row other ∧ RowsUnmixed rows others
  | _, _ => True

end

/-- No two of the given scalars mix integers with doubles. -/
def NeverMix (keys : List Scalar) : Prop :=
  ∀ first ∈ keys, ∀ second ∈ keys, first.Unmixed second

mutual

/-- Comparisons of scalars that are not mixed fit together. -/
theorem composes_of_unmixed (first second third : Scalar) (firstSecond : first.Unmixed second)
    (secondThird : second.Unmixed third) (firstThird : first.Unmixed third) :
    Composes (first.order second) (second.order third) (first.order third) := by
  rw [order_eq_then first, order_eq_then second, order_eq_then first third]
  refine (Composes.of_compare first.rank second.rank third.rank).andThen ?_
  intro rankFirst rankSecond
  rw [Std.compare_eq_iff_eq] at rankFirst rankSecond
  cases first <;> cases second <;> cases rankFirst <;> cases third <;> cases rankSecond
  case null.null.refl.null.refl => constructor <;> intro <;> rfl
  case bag.bag.refl.bag.refl firsts seconds thirds =>
    exact rowsComposes_of_unmixed firsts seconds thirds firstSecond secondThird firstThird
  case int.int.refl.float.refl => exact secondThird.elim
  case int.float.refl.int.refl | int.float.refl.float.refl => exact firstSecond.elim
  case float.int.refl.int.refl | float.int.refl.float.refl => exact firstSecond.elim
  case float.float.refl.int.refl => exact secondThird.elim
  all_goals
    simp only [order, Binary64.totalOrder]
    apply Composes.of_compare

theorem rowComposes_of_unmixed (first second third : List Scalar)
    (firstSecond : RowUnmixed first second) (secondThird : RowUnmixed second third)
    (firstThird : RowUnmixed first third) :
    Composes (rowOrder first second) (rowOrder second third) (rowOrder first third) := by
  cases first <;> cases second <;> cases third
  case cons.cons.cons first firsts second seconds third thirds =>
    simp only [rowOrder]
    refine (composes_of_unmixed first second third firstSecond.1 secondThird.1
      firstThird.1).andThen ?_
    intros
    exact rowComposes_of_unmixed firsts seconds thirds firstSecond.2 secondThird.2 firstThird.2
  all_goals constructor <;> simp [rowOrder, eq_comm]

theorem rowsComposes_of_unmixed (first second third : List (List Scalar))
    (firstSecond : RowsUnmixed first second) (secondThird : RowsUnmixed second third)
    (firstThird : RowsUnmixed first third) :
    Composes (rowsOrder first second) (rowsOrder second third) (rowsOrder first third) := by
  cases first <;> cases second <;> cases third
  case cons.cons.cons first firsts second seconds third thirds =>
    simp only [rowsOrder]
    refine (rowComposes_of_unmixed first second third firstSecond.1 secondThird.1
      firstThird.1).andThen ?_
    intros
    exact rowsComposes_of_unmixed firsts seconds thirds firstSecond.2 secondThird.2 firstThird.2
  all_goals constructor <;> simp [rowsOrder, eq_comm]

end

mutual

/-- Scalars that are not mixed are equal only if they are the same. -/
theorem eq_of_order_eq (first second : Scalar) (unmixed : first.Unmixed second)
    (equal : first.order second = .eq) : first = second := by
  cases first <;> cases second
  case bag.bag rows others => rw [eq_of_rowsOrder_eq rows others unmixed equal]
  case int.float | float.int => exact unmixed.elim
  case float.float => rw [Binary64.orderKey_injective (Std.compare_eq_iff_eq.mp equal)]
  case null.null => rfl
  case bool.bool | int.int | text.text => rw [Std.compare_eq_iff_eq.mp equal]
  all_goals simp [order, rank] at equal

theorem eq_of_rowOrder_eq (first second : List Scalar) (unmixed : RowUnmixed first second)
    (equal : rowOrder first second = .eq) : first = second := by
  cases first <;> cases second
  case nil.nil => rfl
  case cons.cons cell cells other others =>
    rw [rowOrder, Ordering.then_eq_eq] at equal
    rw [eq_of_order_eq cell other unmixed.1 equal.1,
      eq_of_rowOrder_eq cells others unmixed.2 equal.2]
  all_goals cases equal

theorem eq_of_rowsOrder_eq (first second : List (List Scalar)) (unmixed : RowsUnmixed first second)
    (equal : rowsOrder first second = .eq) : first = second := by
  cases first <;> cases second
  case nil.nil => rfl
  case cons.cons row rows other others =>
    rw [rowsOrder, Ordering.then_eq_eq] at equal
    rw [eq_of_rowOrder_eq row other unmixed.1 equal.1,
      eq_of_rowsOrder_eq rows others unmixed.2 equal.2]
  all_goals cases equal

end

section Separate

variable {ints : Int64 → Prop} {floats : Binary64 → Prop}

mutual

/-- Scalars that have no integers, or no doubles, are not mixed. -/
theorem unmixed_of_draws (separate : ∀ integer double, ints integer → floats double → False)
    (first second : Scalar) (drawsFirst : Draws ints floats first)
    (drawsSecond : Draws ints floats second) : first.Unmixed second := by
  cases first <;> cases second
  case int.float integer double => exact separate integer double drawsFirst drawsSecond
  case float.int double integer => exact separate integer double drawsSecond drawsFirst
  case bag.bag rows others =>
    exact rowsUnmixed_of_draw separate rows others drawsFirst drawsSecond
  all_goals trivial

theorem rowUnmixed_of_draw (separate : ∀ integer double, ints integer → floats double → False)
    (first second : List Scalar) (drawsFirst : RowDraws ints floats first)
    (drawsSecond : RowDraws ints floats second) : RowUnmixed first second := by
  cases first <;> cases second
  case cons.cons cell cells other others =>
    exact ⟨unmixed_of_draws separate cell other drawsFirst.1 drawsSecond.1,
      rowUnmixed_of_draw separate cells others drawsFirst.2 drawsSecond.2⟩
  all_goals trivial

theorem rowsUnmixed_of_draw (separate : ∀ integer double, ints integer → floats double → False)
    (first second : List (List Scalar)) (drawsFirst : RowsDraw ints floats first)
    (drawsSecond : RowsDraw ints floats second) : RowsUnmixed first second := by
  cases first <;> cases second
  case cons.cons row rows other others =>
    exact ⟨rowUnmixed_of_draw separate row other drawsFirst.1 drawsSecond.1,
      rowsUnmixed_of_draw separate rows others drawsFirst.2 drawsSecond.2⟩
  all_goals trivial

end

theorem neverMix_of_draws (separate : ∀ integer double, ints integer → floats double → False)
    {keys : List Scalar} (draw : ∀ key ∈ keys, Draws ints floats key) : NeverMix keys :=
  fun first isFirst second isSecond =>
    unmixed_of_draws separate first second (draw first isFirst) (draw second isSecond)

end Separate

theorem NeverMix.orderedAmong {keys : List Scalar} (neverMix : NeverMix keys) :
    OrderedAmong order (· ∈ keys) where
  swap := order_swap
  composes first second third isFirst isSecond isThird :=
    composes_of_unmixed first second third (neverMix first isFirst second isSecond)
      (neverMix second isSecond third isThird) (neverMix first isFirst third isThird)

end Scalar

end BatchFlow
