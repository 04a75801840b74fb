import BatchFlow.Number.Binary64
import Mathlib.Data.Nat.Log
import Mathlib.Algebra.Order.Ring.Int

/-!
# Integers as doubles

Rounding an integer to a double is monotone, and exact as long as the integer has at
most 53 bits.  Doubles are compared by a word, which is the magnitude pattern moved
above all negative numbers, or complemented below the positive ones.
-/

namespace BatchFlow

namespace Binary64

/-- The integer part of the significand of an integer, of 53 bits before rounding. -/
def significandOfNat (value : Nat) : Nat :=
  roundQuotient (value * 2 ^ (52 - value.log2)) (2 ^ (value.log2 - 52))

theorem roundQuotient_mono {first second denominator : Nat} (below : first ≤ second) :
    roundQuotient first denominator ≤ roundQuotient second denominator := by
  have quotients : first / denominator ≤ second / denominator := Nat.div_le_div_right below
  have firstParts := Nat.div_add_mod first denominator
  have secondParts := Nat.div_add_mod second denominator
  unfold roundQuotient
  rcases quotients.eq_or_lt with same | less
  · rw [same] at firstParts ⊢
    dsimp only
    split_ifs <;> omega
  · dsimp only
    split_ifs <;> omega

theorem roundQuotient_le {numerator denominator bound : Nat} (positive : 0 < denominator)
    (below : numerator < bound * denominator) : roundQuotient numerator denominator ≤ bound := by
  have quotient : numerator / denominator < bound := (Nat.div_lt_iff_lt_mul positive).mpr below
  unfold roundQuotient
  dsimp only
  split_ifs <;> omega

theorem le_roundQuotient {numerator denominator bound : Nat} (positive : 0 < denominator)
    (above : bound * denominator ≤ numerator) : bound ≤ roundQuotient numerator denominator := by
  have quotient : bound ≤ numerator / denominator := (Nat.le_div_iff_mul_le positive).mpr above
  unfold roundQuotient
  dsimp only
  split_ifs <;> omega

section Significand

variable {value : Nat}

theorem le_scaled (positive : value ≠ 0) :
    2 ^ 52 * 2 ^ (value.log2 - 52) ≤ value * 2 ^ (52 - value.log2) := by
  have leading : 2 ^ value.log2 ≤ value := Nat.log2_self_le positive
  calc
    2 ^ 52 * 2 ^ (value.log2 - 52) = 2 ^ value.log2 * 2 ^ (52 - value.log2) := by
      rw [← Nat.pow_add, ← Nat.pow_add]
      congr 1
      omega
    _ ≤ value * 2 ^ (52 - value.log2) := Nat.mul_le_mul_right _ leading

theorem scaled_lt (value : Nat) :
    value * 2 ^ (52 - value.log2) < 2 ^ 53 * 2 ^ (value.log2 - 52) := by
  have leading : value < 2 ^ (value.log2 + 1) := Nat.lt_log2_self
  calc
    value * 2 ^ (52 - value.log2) < 2 ^ (value.log2 + 1) * 2 ^ (52 - value.log2) :=
      Nat.mul_lt_mul_of_pos_right leading (Nat.two_pow_pos _)
    _ = 2 ^ 53 * 2 ^ (value.log2 - 52) := by
      rw [← Nat.pow_add, ← Nat.pow_add]
      congr 1
      omega

theorem le_significandOfNat (positive : value ≠ 0) : 2 ^ 52 ≤ significandOfNat value :=
  le_roundQuotient (Nat.two_pow_pos _) (le_scaled positive)

theorem significandOfNat_le (value : Nat) : significandOfNat value ≤ 2 ^ 53 :=
  roundQuotient_le (Nat.two_pow_pos _) (scaled_lt value)

/-- An integer of at most 53 bits is its significand, moved to the left. -/
theorem significandOfNat_of_le (short : value.log2 ≤ 52) :
    significandOfNat value = value * 2 ^ (52 - value.log2) := by
  have whole : value.log2 - 52 = 0 := by omega
  simp [significandOfNat, whole, roundQuotient, Nat.mod_one]

theorem unscaled_log2 (value : Nat) :
    unscaled value 1 ((value.log2 : Int) - 52) =
      (value * 2 ^ (52 - value.log2), 2 ^ (value.log2 - 52)) := by
  unfold unscaled
  split_ifs with long
  · have up : 52 - value.log2 = 0 := by omega
    have down : ((value.log2 : Int) - 52).toNat = value.log2 - 52 := by omega
    simp [up, down]
  · have down : value.log2 - 52 = 0 := by omega
    simp [down]

theorem roundingScale_one (positive : value ≠ 0) :
    roundingScale value 1 = (value.log2 : Int) - 52 := by
  have estimate : (value.log2 : Int) - ((1 : Nat).log2 : Int) - 52 = (value.log2 : Int) - 52 := by
    simp [show (1 : Nat).log2 = 0 from rfl]
  have enough : ¬ value * 2 ^ (52 - value.log2) / 2 ^ (value.log2 - 52) < hiddenBit := by
    rw [Nat.not_lt]
    exact (Nat.le_div_iff_mul_le (Nat.two_pow_pos _)).mpr (le_scaled positive)
  unfold roundingScale
  rw [estimate]
  dsimp only
  rw [unscaled_log2]
  dsimp only
  rw [if_neg enough]
  omega

/-- The exponent field and the significand of an integer, rounded. -/
theorem roundedMagnitude_one (positive : value ≠ 0) :
    roundedMagnitude value 1 =
      min ((value.log2 + 1022) * hiddenBit + significandOfNat value) (2047 * hiddenBit) := by
  have exponent : ((value.log2 : Int) - 52 + 1074).toNat = value.log2 + 1022 := by omega
  unfold roundedMagnitude
  rw [if_neg positive, roundingScale_one positive]
  dsimp only
  rw [unscaled_log2, exponent]
  rfl

end Significand

theorem roundedMagnitude_le (numerator denominator : Nat) :
    roundedMagnitude numerator denominator ≤ 2047 * hiddenBit := by
  unfold roundedMagnitude
  split_ifs
  · exact Nat.zero_le _
  · exact Nat.min_le_right _ _

/-- Rounding is monotone: within a power of two as the quotients are, and from one power
of two to the next because no significand is rounded beyond it. -/
theorem roundedMagnitude_mono {first second : Nat} (below : first ≤ second) :
    roundedMagnitude first 1 ≤ roundedMagnitude second 1 := by
  by_cases zero : first = 0
  · subst zero
    simp [roundedMagnitude]
  have positive : second ≠ 0 := by omega
  rw [roundedMagnitude_one zero, roundedMagnitude_one positive]
  apply min_le_min_right
  have logs : first.log2 ≤ second.log2 := by
    rw [Nat.log2_eq_log_two, Nat.log2_eq_log_two]
    exact Nat.log_mono_right below
  rcases logs.eq_or_lt with same | less
  · unfold significandOfNat
    rw [same]
    exact Nat.add_le_add_left (roundQuotient_mono (Nat.mul_le_mul_right _ below)) _
  · have most := significandOfNat_le first
    have least := le_significandOfNat positive
    unfold hiddenBit
    omega

theorem roundedMagnitude_lt {first second : Nat} (less : first < second)
    (exact : second ≤ 2 ^ 53) : roundedMagnitude first 1 < roundedMagnitude second 1 := by
  have positive : second ≠ 0 := by omega
  have leastSecond := le_significandOfNat positive
  have shortSecond : second.log2 ≤ 53 := by
    rw [Nat.log2_eq_log_two]
    exact (Nat.log_mono_right exact).trans_eq (Nat.log_pow (by decide) 53)
  by_cases zero : first = 0
  · subst zero
    rw [roundedMagnitude_one positive, show roundedMagnitude 0 1 = 0 from rfl]
    unfold hiddenBit
    omega
  have shortFirst : first.log2 ≤ 52 := by
    have below : first.log2 < 53 := (Nat.log2_lt zero).mpr (by omega)
    omega
  have mostFirst : significandOfNat first < 2 ^ 53 := by
    have below := scaled_lt first
    rw [significandOfNat_of_le shortFirst]
    simpa [show first.log2 - 52 = 0 by omega] using below
  have increases : (first.log2 + 1022) * hiddenBit + significandOfNat first <
      (second.log2 + 1022) * hiddenBit + significandOfNat second := by
    have logs : first.log2 ≤ second.log2 := by
      rw [Nat.log2_eq_log_two, Nat.log2_eq_log_two]
      exact Nat.log_mono_right less.le
    rcases logs.eq_or_lt with same | lessLogs
    · rw [significandOfNat_of_le shortFirst, significandOfNat_of_le (same ▸ shortFirst), same]
      exact Nat.add_lt_add_left (Nat.mul_lt_mul_of_pos_right less (Nat.two_pow_pos _)) _
    · unfold hiddenBit
      omega
  rw [roundedMagnitude_one zero, roundedMagnitude_one positive]
  have mostSecond := significandOfNat_le second
  unfold hiddenBit at increases ⊢
  omega

theorem eq_of_roundedMagnitude_eq {first second : Nat} (firstExact : first ≤ 2 ^ 53)
    (secondExact : second ≤ 2 ^ 53) (same : roundedMagnitude first 1 = roundedMagnitude second 1) :
    first = second := by
  rcases Nat.lt_trichotomy first second with less | equal | greater
  · exact absurd same (roundedMagnitude_lt less secondExact).ne
  · exact equal
  · exact absurd same (roundedMagnitude_lt greater firstExact).ne'

section OrderKey

theorem toNat_orderKey (x : Binary64) :
    x.orderKey.toNat =
      if x.bits.toNat < signBit then signBit + x.bits.toNat
      else 2 * signBit - 1 - x.bits.toNat := by
  have negative : x.isNegative = decide (signBit ≤ x.bits.toNat) := by
    unfold isNegative
    exact decide_eq_decide.mpr UInt64.le_iff_toNat_le
  unfold orderKey
  rw [negative]
  by_cases positive : x.bits.toNat < signBit
  · rw [if_pos positive, decide_eq_false (by omega), if_neg Bool.false_ne_true, UInt64.toNat_or,
      Nat.or_comm]
    have short : x.bits.toNat < 2 ^ 63 := positive
    exact (Nat.two_pow_add_eq_or_of_lt short 1).symm
  · rw [if_neg positive, decide_eq_true (by omega), if_pos rfl, UInt64.toNat_not]
    rfl

theorem orderKey_injective {first second : Binary64} (same : first.orderKey = second.orderKey) :
    first = second := by
  have keys := congrArg UInt64.toNat same
  have firstBound := first.bits.toNat_lt
  have secondBound := second.bits.toNat_lt
  have bits : first.bits.toNat = second.bits.toNat := by
    rw [toNat_orderKey, toNat_orderKey] at keys
    unfold signBit at keys
    split_ifs at keys <;> omega
  cases first
  cases second
  exact congrArg Binary64.mk (UInt64.toNat_inj.mp bits)

theorem toNat_orderKey_ofInt (value : Int) :
    (ofInt value).orderKey.toNat =
      if value < 0 then signBit - 1 - roundedMagnitude value.natAbs 1
      else signBit + roundedMagnitude value.natAbs 1 := by
  have bounded := roundedMagnitude_le value.natAbs 1
  have bits : (ofInt value).bits.toNat =
      if value < 0 then roundedMagnitude value.natAbs 1 + signBit
      else roundedMagnitude value.natAbs 1 := by
    show (UInt64.ofNat (if decide (value < 0) = true then
      roundedMagnitude value.natAbs 1 + signBit else roundedMagnitude value.natAbs 1)).toNat = _
    rw [UInt64.toNat_ofNat']
    simp only [decide_eq_true_iff]
    apply Nat.mod_eq_of_lt
    unfold hiddenBit at bounded
    unfold signBit
    split_ifs <;> omega
  rw [toNat_orderKey, bits]
  unfold hiddenBit at bounded
  unfold signBit
  split_ifs <;> omega

/-- Integers keep their order as doubles, though different ones may become equal. -/
theorem orderKey_ofInt_mono {first second : Int} (below : first ≤ second) :
    (ofInt first).orderKey ≤ (ofInt second).orderKey := by
  rw [UInt64.le_iff_toNat_le, toNat_orderKey_ofInt, toNat_orderKey_ofInt]
  have firstBound := roundedMagnitude_le first.natAbs 1
  unfold hiddenBit at firstBound
  unfold signBit
  by_cases firstNegative : first < 0
  · by_cases secondNegative : second < 0
    · have magnitudes : roundedMagnitude second.natAbs 1 ≤ roundedMagnitude first.natAbs 1 :=
        roundedMagnitude_mono (by omega)
      rw [if_pos firstNegative, if_pos secondNegative]
      omega
    · rw [if_pos firstNegative, if_neg secondNegative]
      omega
  · have magnitudes : roundedMagnitude first.natAbs 1 ≤ roundedMagnitude second.natAbs 1 :=
      roundedMagnitude_mono (by omega)
    rw [if_neg firstNegative, if_neg (by omega)]
    omega

/-- Integers of magnitude up to two to the power 53 are doubles exactly. -/
theorem eq_of_ofInt_eq {first second : Int} (firstExact : first.natAbs ≤ 2 ^ 53)
    (secondExact : second.natAbs ≤ 2 ^ 53) (same : ofInt first = ofInt second) :
    first = second := by
  have keys : (ofInt first).orderKey.toNat = (ofInt second).orderKey.toNat := by rw [same]
  rw [toNat_orderKey_ofInt, toNat_orderKey_ofInt] at keys
  have parts : (first < 0 ↔ second < 0) ∧
      roundedMagnitude first.natAbs 1 = roundedMagnitude second.natAbs 1 := by
    have firstBound := roundedMagnitude_le first.natAbs 1
    have secondBound := roundedMagnitude_le second.natAbs 1
    unfold hiddenBit at firstBound secondBound
    unfold signBit at keys
    split_ifs at keys <;> omega
  obtain ⟨signs, rounded⟩ := parts
  have magnitudes := eq_of_roundedMagnitude_eq firstExact secondExact rounded
  omega

end OrderKey

end Binary64

end BatchFlow
