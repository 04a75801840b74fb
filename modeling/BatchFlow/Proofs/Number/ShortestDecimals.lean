import BatchFlow.Proofs.Number.RoundingIntervals
import Mathlib.Tactic.NormNum

/-!
# Shortest decimals

The decimal of a double is a point of a decimal grid in the rounding interval of the double.
The search for it ends, because a grid of seventeen digits is finer than the interval is wide.
-/

namespace BatchFlow

/-- The number that a decimal stands for. -/
def Decimal.value (decimal : Decimal) : ℚ :=
  decimal.digits * 10 ^ decimal.scale

theorem Decimal.value_stripZeros (fuel : Nat) (decimal : Decimal) :
    (decimal.stripZeros fuel).value = decimal.value := by
  induction fuel generalizing decimal with
  | zero => rfl
  | succ fuel ih =>
      rw [stripZeros]
      split
      case isTrue ends =>
        simp only [Bool.and_eq_true, decide_eq_true_eq] at ends
        have digits : decimal.digits = decimal.digits / 10 * 10 := by omega
        rw [ih, value, value, zpow_add_one₀ (by norm_num)]
        nth_rewrite 2 [digits]
        push_cast
        ring
      case isFalse => rfl

namespace RoundingInterval

variable {interval : RoundingInterval}

section Grid

/-- The distance of the points of a grid, over the denominator of the interval and the factor of
the grid. -/
def gridStep (interval : RoundingInterval) (scale : Int) : Nat :=
  if 0 ≤ scale then interval.denominator * Nat.pow 10 scale.toNat else interval.denominator

/-- The factor that makes the points of a grid integers. -/
def gridFactor (scale : Int) : Nat :=
  if 0 ≤ scale then 1 else Nat.pow 10 (-scale).toNat

/-- Whether a point of a grid is in the interval. -/
abbrev HasPoint (interval : RoundingInterval) (scale : Int) (point : Nat) : Prop :=
  if interval.closed then
    interval.low * gridFactor scale ≤ point * interval.gridStep scale ∧
      point * interval.gridStep scale ≤ interval.high * gridFactor scale
  else
    interval.low * gridFactor scale < point * interval.gridStep scale ∧
      point * interval.gridStep scale < interval.high * gridFactor scale

/-- The greatest point of a grid that is not above the value. -/
def pointBelow (interval : RoundingInterval) (scale : Int) : Nat :=
  interval.value * gridFactor scale / interval.gridStep scale

/-- Whether the next point above is taken where both points around the value are in the
interval. -/
def prefersAbove (interval : RoundingInterval) (tie : Tie) (scale : Int) : Bool :=
  match compare (2 * interval.value * gridFactor scale)
    ((2 * interval.pointBelow scale + 1) * interval.gridStep scale) with
  | .lt => false
  | .gt => true
  | .eq => match tie with
    | .even => interval.pointBelow scale % 2 == 1
    | .away => true

theorem onGrid?_eq (interval : RoundingInterval) (tie : Tie) (scale : Int) :
    interval.onGrid? tie scale =
      if interval.HasPoint scale (interval.pointBelow scale) then
        if interval.HasPoint scale (interval.pointBelow scale + 1) &&
            interval.prefersAbove tie scale then
          some (interval.pointBelow scale + 1)
        else some (interval.pointBelow scale)
      else if interval.HasPoint scale (interval.pointBelow scale + 1) then
        some (interval.pointBelow scale + 1)
      else none :=
  rfl

theorem hasPoint_of_onGrid? {tie : Tie} {scale : Int} {point : Nat}
    (found : interval.onGrid? tie scale = some point) : interval.HasPoint scale point := by
  rw [onGrid?_eq] at found
  split at found
  case isTrue below =>
    split at found
    case isTrue above =>
      rw [Bool.and_eq_true, decide_eq_true_eq] at above
      exact Option.some.inj found ▸ above.1
    case isFalse => exact Option.some.inj found ▸ below
  case isFalse =>
    split at found
    case isTrue above => exact Option.some.inj found ▸ above
    case isFalse => exact nomatch found

/-- The search on a grid finds a point if one of the two around the value is in the interval. -/
theorem exists_onGrid? (tie : Tie) {scale : Int}
    (inside : interval.HasPoint scale (interval.pointBelow scale) ∨
      interval.HasPoint scale (interval.pointBelow scale + 1)) :
    ∃ point, interval.onGrid? tie scale = some point := by
  rw [onGrid?_eq]
  split
  case isTrue =>
    split
    · exact ⟨_, rfl⟩
    · exact ⟨_, rfl⟩
  case isFalse notBelow => exact ⟨_, if_pos (inside.resolve_left notBelow)⟩

theorem gridFactor_pos (scale : Int) : 0 < gridFactor scale := by
  unfold gridFactor
  split
  · exact Nat.one_pos
  · exact Nat.pow_pos (by decide)

/-- The points of a grid, over the denominator and the factor, are the multiples of a power of
ten. -/
theorem cast_point (interval : RoundingInterval) (scale : Int) (point : Nat) :
    ((point * interval.gridStep scale : Nat) : ℚ) =
      point * 10 ^ scale * interval.denominator * gridFactor scale := by
  unfold gridStep gridFactor
  split
  case isTrue whole =>
    obtain ⟨places, rfl⟩ := Int.eq_ofNat_of_zero_le whole
    simp [mul_left_comm, mul_comm]
  case isFalse =>
    obtain ⟨places, isPlaces⟩ := Int.eq_ofNat_of_zero_le (show 0 ≤ -scale by omega)
    obtain rfl : scale = -(places : ℤ) := by omega
    have nonzero : (10 : ℚ) ^ places ≠ 0 := by positivity
    simp [mul_right_comm _ _ ((10 : ℚ) ^ places), nonzero]

variable (positive : 0 < interval.denominator) (scale : Int) (point number : Nat)

include positive

theorem point_le_iff :
    point * interval.gridStep scale ≤ number * gridFactor scale ↔
      (point : ℚ) * 10 ^ scale ≤ (number : ℚ) / interval.denominator := by
  have denominatorPos : (0 : ℚ) < interval.denominator := Nat.cast_pos.mpr positive
  have factorPos : (0 : ℚ) < gridFactor scale := Nat.cast_pos.mpr (gridFactor_pos scale)
  rw [← Nat.cast_le (α := ℚ), cast_point, Nat.cast_mul, mul_le_mul_iff_of_pos_right factorPos,
    le_div_iff₀ denominatorPos]

theorem le_point_iff :
    number * gridFactor scale ≤ point * interval.gridStep scale ↔
      (number : ℚ) / interval.denominator ≤ (point : ℚ) * 10 ^ scale := by
  have denominatorPos : (0 : ℚ) < interval.denominator := Nat.cast_pos.mpr positive
  have factorPos : (0 : ℚ) < gridFactor scale := Nat.cast_pos.mpr (gridFactor_pos scale)
  rw [← Nat.cast_le (α := ℚ), cast_point, Nat.cast_mul, mul_le_mul_iff_of_pos_right factorPos,
    div_le_iff₀ denominatorPos]

/-- The points of a grid that the search accepts are the numbers of the grid in the interval. -/
theorem hasPoint_iff :
    interval.HasPoint scale point ↔ interval.Contains (point * 10 ^ scale) := by
  have atMost := fun number => point_le_iff positive scale point number
  have atLeast := fun number => le_point_iff positive scale point number
  unfold HasPoint Contains
  split
  case isTrue => rw [atMost, atLeast]
  case isFalse =>
    rw [← not_le, ← not_le, atMost, atLeast, not_le, not_le]

/-- The value lies between two neighbouring points of a grid. -/
theorem pointBelow_bounds :
    (interval.pointBelow scale : ℚ) * 10 ^ scale ≤ (interval.value : ℚ) / interval.denominator ∧
      (interval.value : ℚ) / interval.denominator <
        ((interval.pointBelow scale + 1 : Nat) : ℚ) * 10 ^ scale := by
  have stepPos : 0 < interval.gridStep scale := by
    unfold gridStep
    split
    · exact Nat.mul_pos positive (Nat.pow_pos (by decide))
    · exact positive
  rw [← point_le_iff positive, ← not_le, ← point_le_iff positive, not_le]
  refine ⟨Nat.div_mul_le_self _ _, ?_⟩
  rw [Nat.add_mul, Nat.one_mul]
  exact Nat.lt_div_mul_add stepPos

end Grid

section Search

variable (positive : 0 < interval.denominator)

include positive

omit positive in
/-- The first digits of two numbers say at least this much of their quotient. -/
theorem ten_zpow_lengths_mul_le (notZero : 0 < interval.value) :
    (10 : ℚ) ^ (((Nat.toDigits 10 interval.value).length : ℤ) -
      (Nat.toDigits 10 interval.denominator).length - 1) * interval.denominator ≤
        interval.value := by
  have small : interval.denominator < 10 ^ (Nat.toDigits 10 interval.denominator).length :=
    (Nat.length_toDigits_le_iff (by decide) (List.length_pos_iff.mpr Nat.toDigits_ne_nil)).mp
      (le_refl _)
  have someDigit : 0 < (Nat.toDigits 10 interval.value).length :=
    List.length_pos_iff.mpr Nat.toDigits_ne_nil
  have large : 10 ^ ((Nat.toDigits 10 interval.value).length - 1) ≤ interval.value := by
    rcases Nat.eq_zero_or_pos ((Nat.toDigits 10 interval.value).length - 1) with single | several
    · rw [single]
      exact notZero
    · by_contra below
      have tooFew := (Nat.length_toDigits_le_iff (by decide) several).mpr (Nat.lt_of_not_le below)
      omega
  generalize (Nat.toDigits 10 interval.denominator).length = denominatorLength at small ⊢
  generalize (Nat.toDigits 10 interval.value).length = valueLength at someDigit large ⊢
  calc
    (10 : ℚ) ^ ((valueLength : ℤ) - denominatorLength - 1) * interval.denominator ≤
        (10 : ℚ) ^ ((valueLength : ℤ) - denominatorLength - 1) * 10 ^ denominatorLength :=
      mul_le_mul_of_nonneg_left (by exact_mod_cast small.le) (by positivity)
    _ = (10 : ℚ) ^ ((valueLength : ℤ) - 1) := by
      rw [← zpow_natCast, ← zpow_add₀ (by norm_num)]
      congr 1
      omega
    _ ≤ interval.value := by
      obtain ⟨rest, rfl⟩ := Nat.exists_eq_add_of_lt someDigit
      simpa using (Nat.cast_le (α := ℚ)).mpr large

/-- The leading digit of the value stands for no more than the value. -/
theorem ten_zpow_leadingExponent_le (notZero : 0 < interval.value) :
    (10 : ℚ) ^ interval.leadingExponent ≤ (interval.value : ℚ) / interval.denominator := by
  have atLeast := ten_zpow_lengths_mul_le notZero
  rw [le_div_iff₀ (Nat.cast_pos.mpr positive)]
  unfold leadingExponent
  dsimp only
  generalize (Nat.toDigits 10 interval.denominator).length = denominatorLength at atLeast ⊢
  generalize (Nat.toDigits 10 interval.value).length = valueLength at atLeast ⊢
  split
  case isTrue longer =>
    split
    case isTrue reaches =>
      rw [← Nat.cast_sub longer, zpow_natCast, mul_comm]
      exact_mod_cast reaches
    case isFalse => exact atLeast
  case isFalse shorter =>
    split
    case isTrue reaches =>
      rw [← neg_sub, ← Nat.cast_sub (Nat.le_of_not_le shorter), zpow_neg, zpow_natCast,
        inv_mul_le_iff₀ (by positivity), mul_comm]
      exact_mod_cast reaches
    case isFalse => exact atLeast

/-- A grid that is fine enough has a point in the interval. -/
theorem hasPoint_of_fine {scale : Int} (margin : ℚ)
    (wideBelow : (interval.low : ℚ) / interval.denominator <
      (interval.value : ℚ) / interval.denominator - margin)
    (wideAbove : (interval.value : ℚ) / interval.denominator + margin <
      (interval.high : ℚ) / interval.denominator)
    (fine : (10 : ℚ) ^ scale ≤ 2 * margin) :
    interval.HasPoint scale (interval.pointBelow scale) ∨
      interval.HasPoint scale (interval.pointBelow scale + 1) := by
  obtain ⟨below, above⟩ := pointBelow_bounds positive scale
  rw [Nat.cast_add, Nat.cast_one, add_one_mul] at above
  simp only [hasPoint_iff positive]
  -- One of the two points is at most half a step away from the value.
  rcases le_total ((interval.value : ℚ) / interval.denominator - margin)
    (interval.pointBelow scale * 10 ^ scale) with near | far
  · refine .inl (contains_of_between ?_ ?_)
    · linarith
    · linarith
  · refine .inr (contains_of_between ?_ ?_)
    · rw [Nat.cast_add, Nat.cast_one, add_one_mul]
      linarith
    · rw [Nat.cast_add, Nat.cast_one, add_one_mul]
      linarith

/-- If the last grid has a point in the interval, the search ends with a point in it. -/
theorem contains_shortestFrom {tie : Tie} {leading : Int} {remaining length : Nat}
    (ends : ∃ point, interval.onGrid? tie (leading - (length + remaining : Nat) + 1) = some point) :
    interval.Contains (interval.shortestFrom tie leading remaining length).value := by
  induction remaining generalizing length with
  | zero =>
      obtain ⟨point, found⟩ := ends
      rw [Nat.add_zero] at found
      simp only [shortestFrom, found, Option.getD_some]
      exact (hasPoint_iff positive _ _).mp (hasPoint_of_onGrid? found)
  | succ remaining ih =>
      rw [shortestFrom]
      split
      case h_1 point found => exact (hasPoint_iff positive _ _).mp (hasPoint_of_onGrid? found)
      case h_2 =>
        refine ih ?_
        rwa [Nat.add_right_comm]

end Search

end RoundingInterval

namespace Binary64

open RoundingInterval

variable {x y : Binary64}

/-- The interval of a double is wide for its value: it reaches a two to the power 54th of the value
below it, and further above. -/
theorem four_mul_significand_le (x : Binary64) :
    4 * x.significand ≤ 2 ^ 54 * x.reachBelow ∧ 4 * x.significand < 2 ^ 54 * 2 := by
  have short := significand_lt x
  unfold hiddenBit at short
  refine ⟨?_, by omega⟩
  rcases reachBelow_eq_two_or x with two | ⟨one, isPower, -⟩
  · omega
  · unfold hiddenBit at isPower
    omega

theorem denominator_pos (x : Binary64) : 0 < (ofBinary64 x).denominator := by
  show 0 < if 0 ≤ x.exponent - 2 then 1 else Nat.pow 2 (-(x.exponent - 2)).toNat
  split
  · exact Nat.one_pos
  · exact Nat.pow_pos (by decide)

theorem value_pos (notZero : x.significand ≠ 0) : 0 < (ofBinary64 x).value := by
  show 0 < 4 * x.significand * if 0 ≤ x.exponent - 2 then Nat.pow 2 (x.exponent - 2).toNat else 1
  refine Nat.mul_pos (by omega) ?_
  split
  · exact Nat.pow_pos (by decide)
  · exact Nat.one_pos

/-- Half a step of a grid of seventeen digits is less than the interval reaches from the value. -/
theorem wide_for_value (notZero : x.significand ≠ 0) :
    (ofBinary64 x).low / (ofBinary64 x).denominator <
        ((ofBinary64 x).value : ℚ) / (ofBinary64 x).denominator -
          (ofBinary64 x).value / (ofBinary64 x).denominator / (2 * 10 ^ 16) ∧
      ((ofBinary64 x).value : ℚ) / (ofBinary64 x).denominator +
          (ofBinary64 x).value / (ofBinary64 x).denominator / (2 * 10 ^ 16) <
        (ofBinary64 x).high / (ofBinary64 x).denominator := by
  obtain ⟨reach, above⟩ := four_mul_significand_le x
  have reachLe : x.reachBelow ≤ 4 * x.significand := (reachBelow_le x).trans (by omega)
  have unitPos : 0 < (2 : ℚ) ^ x.shift / leastQuarters := div_pos (by positivity) leastQuarters_pos
  rw [low_div_denominator, high_div_denominator, value_div_denominator, lowEnd, highEnd]
  simp only [Nat.cast_mul, Nat.cast_sub reachLe, Nat.cast_add, Nat.cast_pow, Nat.cast_ofNat,
    mul_div_assoc _ _ leastQuarters]
  have quartersPos : (0 : ℚ) < 4 * x.significand := by positivity
  have reach : (4 * x.significand : ℚ) ≤ 2 ^ 54 * x.reachBelow := by exact_mod_cast reach
  have above : (4 * x.significand : ℚ) < 2 ^ 54 * 2 := by exact_mod_cast above
  generalize (2 : ℚ) ^ x.shift / leastQuarters = unit at unitPos ⊢
  generalize (4 * x.significand : ℚ) = quarters at quartersPos reach above ⊢
  constructor
  · have below : quarters - x.reachBelow < quarters - quarters / (2 * 10 ^ 16) := by linarith
    linarith [mul_lt_mul_of_pos_right below unitPos]
  · have beyond : quarters + quarters / (2 * 10 ^ 16) < quarters + 2 := by linarith
    linarith [mul_lt_mul_of_pos_right beyond unitPos]

/-- The shortest decimal of a double is in its interval. -/
theorem contains_shortest (notZero : x.significand ≠ 0) (tie : Tie) :
    (ofBinary64 x).Contains ((ofBinary64 x).shortest tie).value := by
  have positive := denominator_pos x
  have leading := ten_zpow_leadingExponent_le positive (value_pos notZero)
  obtain ⟨wideBelow, wideAbove⟩ := wide_for_value notZero
  rw [shortest, Decimal.value_stripZeros]
  -- The search goes on to seventeen digits, and at the latest ends there.
  refine contains_shortestFrom positive (exists_onGrid? tie ?_)
  refine hasPoint_of_fine positive _ wideBelow wideAbove ?_
  calc
    (10 : ℚ) ^ ((ofBinary64 x).leadingExponent - (1 + 16 : Nat) + 1) =
        10 ^ (ofBinary64 x).leadingExponent / 10 ^ 16 := by
      rw [← zpow_natCast, ← zpow_sub₀ (by norm_num)]
      congr 1
      omega
    _ ≤ (ofBinary64 x).value / (ofBinary64 x).denominator / 10 ^ 16 := by gcongr
    _ = 2 * ((ofBinary64 x).value / (ofBinary64 x).denominator / (2 * 10 ^ 16)) := by ring

end Binary64

end BatchFlow
