import BatchFlow.Number.Decimal
import BatchFlow.Proofs.Number.Sums
import Mathlib.Algebra.Order.Field.Power
import Mathlib.Data.Rat.Cast.Order
import Mathlib.Tactic.Linarith
import Mathlib.Tactic.Positivity
import Mathlib.Tactic.Ring

/-!
# Rounding intervals

The numbers that round to a positive double form an interval around it, whose ends are counted
in quarters of the least step between doubles.  The intervals of different doubles meet at most
in an end, which then belongs to the one with an even significand only, so a number in the
interval of a double determines the double up to its sign.
-/

namespace BatchFlow

namespace RoundingInterval

/-- Whether a number is in the interval. -/
def Contains (interval : RoundingInterval) (number : ℚ) : Prop :=
  if interval.closed then
    (interval.low : ℚ) / interval.denominator ≤ number ∧
      number ≤ (interval.high : ℚ) / interval.denominator
  else
    (interval.low : ℚ) / interval.denominator < number ∧
      number < (interval.high : ℚ) / interval.denominator

theorem Contains.bounds {interval : RoundingInterval} {number : ℚ}
    (contains : interval.Contains number) :
    (interval.low : ℚ) / interval.denominator ≤ number ∧
      number ≤ (interval.high : ℚ) / interval.denominator := by
  unfold Contains at contains
  split at contains
  · exact contains
  · exact ⟨contains.1.le, contains.2.le⟩

theorem contains_of_between {interval : RoundingInterval} {number : ℚ}
    (above : (interval.low : ℚ) / interval.denominator < number)
    (below : number < (interval.high : ℚ) / interval.denominator) : interval.Contains number := by
  unfold Contains
  split
  · exact ⟨above.le, below.le⟩
  · exact ⟨above, below⟩

end RoundingInterval

namespace Binary64

/-- How many quarters of its step the interval of a double reaches below it. -/
def reachBelow (x : Binary64) : Nat :=
  if x.fractionField = 0 && 1 < x.exponentField then 1 else 2

/-- The lower end of the interval of a double, in quarters of the least step. -/
def lowEnd (x : Binary64) : Nat :=
  (4 * x.significand - x.reachBelow) * 2 ^ x.shift

/-- The upper end of the interval of a double, in quarters of the least step. -/
def highEnd (x : Binary64) : Nat :=
  (4 * x.significand + 2) * 2 ^ x.shift

/-- The quarters of the least step in one. -/
def leastQuarters : ℚ :=
  2 ^ (1076 : ℤ)

theorem leastQuarters_pos : 0 < leastQuarters := by
  unfold leastQuarters
  positivity

variable {x y : Binary64}

theorem reachBelow_le (x : Binary64) : x.reachBelow ≤ 2 := by
  unfold reachBelow
  split <;> decide

/-- Only below a power of two is the step shorter. -/
theorem reachBelow_eq_two_or (x : Binary64) :
    x.reachBelow = 2 ∨ x.reachBelow = 1 ∧ x.significand = hiddenBit ∧ 0 < x.shift := by
  rcases least_or_hidden x with ⟨least, -, -, -⟩ | ⟨-, shift, significand⟩
  · exact .inl (by simp [reachBelow, least])
  · unfold reachBelow
    split
    case isTrue isPower =>
      simp only [Bool.and_eq_true, decide_eq_true_eq] at isPower
      exact .inr ⟨rfl, by omega, by omega⟩
    case isFalse => exact .inl rfl

theorem reachBelow_of_power (isPower : x.significand = hiddenBit) (notLeast : 0 < x.shift) :
    x.reachBelow = 1 := by
  rcases least_or_hidden x with ⟨-, -, shift, -⟩ | ⟨-, shift, significand⟩
  · omega
  · have fraction : x.fractionField = 0 := by omega
    have field : 1 < x.exponentField := by omega
    simp [reachBelow, fraction, field]

section Ends

/-- The numbers of an interval over its denominator are whole numbers of quarters. -/
theorem scaled_div_denominator (x : Binary64) (number : Nat) :
    ((number * (if 0 ≤ x.exponent - 2 then Nat.pow 2 (x.exponent - 2).toNat else 1) : Nat) : ℚ) /
        (RoundingInterval.ofBinary64 x).denominator =
      (number * 2 ^ x.shift : Nat) / leastQuarters := by
  have scale : x.exponent - 2 = (x.shift : ℤ) - 1076 := by
    rw [exponent_eq]
    omega
  have atScale : ((number * 2 ^ x.shift : Nat) : ℚ) / leastQuarters =
      number * 2 ^ (x.exponent - 2) := by
    rw [scale, zpow_sub₀ two_ne_zero, zpow_natCast, ← leastQuarters, Nat.cast_mul, Nat.cast_pow,
      Nat.cast_ofNat, mul_div_assoc]
  rw [atScale]
  show _ / (((if 0 ≤ x.exponent - 2 then 1 else Nat.pow 2 (-(x.exponent - 2)).toNat : Nat)) : ℚ) = _
  split_ifs with whole
  · obtain ⟨places, isPlaces⟩ := Int.eq_ofNat_of_zero_le whole
    simp [isPlaces]
  · obtain ⟨places, isPlaces⟩ := Int.eq_ofNat_of_zero_le (show 0 ≤ -(x.exponent - 2) by omega)
    have negative : x.exponent - 2 = -(places : ℤ) := by omega
    simp [negative, zpow_neg, div_eq_mul_inv]

theorem low_div_denominator (x : Binary64) :
    ((RoundingInterval.ofBinary64 x).low : ℚ) / (RoundingInterval.ofBinary64 x).denominator =
      x.lowEnd / leastQuarters :=
  scaled_div_denominator x _

theorem high_div_denominator (x : Binary64) :
    ((RoundingInterval.ofBinary64 x).high : ℚ) / (RoundingInterval.ofBinary64 x).denominator =
      x.highEnd / leastQuarters :=
  scaled_div_denominator x _

theorem value_div_denominator (x : Binary64) :
    ((RoundingInterval.ofBinary64 x).value : ℚ) / (RoundingInterval.ofBinary64 x).denominator =
      (4 * x.significand * 2 ^ x.shift : Nat) / leastQuarters :=
  scaled_div_denominator x _

end Ends

/-- The interval of a smaller double ends below that of a greater one, or where it begins; then
one of the two significands is odd. -/
theorem highEnd_lt_or_eq (less : x.magnitude < y.magnitude) :
    x.highEnd < y.lowEnd ∨
      x.highEnd = y.lowEnd ∧ x.significand % 2 ≠ y.significand % 2 := by
  rw [magnitude_eq, magnitude_eq] at less
  have shortX := significand_lt x
  have shortY := significand_lt y
  -- Both ends are compared at the scale of the smaller number.
  suffices ends : ∃ low, y.lowEnd = low * 2 ^ x.shift ∧ (4 * x.significand + 2 < low ∨
      4 * x.significand + 2 = low ∧ x.significand % 2 ≠ y.significand % 2) by
    obtain ⟨low, isLow, below | ⟨same, parity⟩⟩ := ends
    · rw [highEnd, isLow]
      exact .inl (Nat.mul_lt_mul_of_pos_right below (Nat.two_pow_pos _))
    · rw [highEnd, isLow, same]
      exact .inr ⟨rfl, parity⟩
  rcases Nat.lt_trichotomy x.shift y.shift with lower | same | higher
  · have hidden := (shift_eq_zero_or y).resolve_left (by omega)
    obtain ⟨places, isShift⟩ := Nat.exists_eq_add_of_lt lower
    refine ⟨(4 * y.significand - y.reachBelow) * (2 * 2 ^ places), ?_, ?_⟩
    · rw [lowEnd, isShift, Nat.mul_assoc]
      congr 1
      ring
    · have least := Nat.mul_le_mul_left (4 * y.significand - y.reachBelow)
        (Nat.mul_le_mul_left 2 (Nat.one_le_two_pow (n := places)))
      rcases hidden.eq_or_lt with isPower | above
      · -- Above a power of two the step doubles, and the ends may meet.
        have reach := reachBelow_of_power isPower.symm (Nat.zero_lt_of_lt lower)
        rcases Nat.eq_zero_or_pos places with rfl | further
        · unfold hiddenBit at *
          omega
        · have further := Nat.mul_le_mul_left (4 * y.significand - y.reachBelow)
            (Nat.mul_le_mul_left 2 (Nat.pow_le_pow_right (show 0 < 2 by decide) further))
          unfold hiddenBit at *
          omega
      · have reach := reachBelow_le y
        unfold hiddenBit at *
        omega
  · have reach := reachBelow_eq_two_or y
    refine ⟨4 * y.significand - y.reachBelow, by rw [lowEnd, same], ?_⟩
    rw [same] at less
    omega
  · -- A greater shift makes a greater number.
    have hidden := (shift_eq_zero_or x).resolve_left (by omega)
    have shifts := Nat.mul_le_mul_right hiddenBit (show y.shift + 1 ≤ x.shift from higher)
    rw [Nat.add_mul] at shifts
    omega

/-- An interval without its ends belongs to an odd significand. -/
theorem between_ends_of_odd {number : ℚ} (odd : x.significand % 2 ≠ 0)
    (inside : (RoundingInterval.ofBinary64 x).Contains number) :
    x.lowEnd / leastQuarters < number ∧ number < x.highEnd / leastQuarters := by
  have isOpen : (RoundingInterval.ofBinary64 x).closed = false := beq_eq_false_iff_ne.mpr odd
  rw [RoundingInterval.Contains, isOpen, if_neg Bool.false_ne_true, low_div_denominator,
    high_div_denominator] at inside
  exact inside

/-- A number in the intervals of two doubles determines their magnitude. -/
theorem magnitude_eq_of_contains {number : ℚ}
    (inX : (RoundingInterval.ofBinary64 x).Contains number)
    (inY : (RoundingInterval.ofBinary64 y).Contains number) : x.magnitude = y.magnitude := by
  wlog less : x.magnitude < y.magnitude generalizing x y
  · by_contra different
    exact different (this inY inX (by omega)).symm
  have below := inX.bounds.2
  have above := inY.bounds.1
  rw [high_div_denominator] at below
  rw [low_div_denominator] at above
  exfalso
  rcases highEnd_lt_or_eq less with apart | ⟨meet, parity⟩
  · have apart : (x.highEnd : ℚ) / leastQuarters < y.lowEnd / leastQuarters :=
      div_lt_div_of_pos_right (Nat.cast_lt.mpr apart) leastQuarters_pos
    linarith
  · rw [meet] at below
    by_cases oddX : x.significand % 2 = 0
    · have inside := (between_ends_of_odd (by omega) inY).1
      linarith
    · have inside := (between_ends_of_odd oddX inX).2
      rw [meet] at inside
      linarith

end Binary64

end BatchFlow
