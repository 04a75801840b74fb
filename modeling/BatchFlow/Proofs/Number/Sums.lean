import BatchFlow.Proofs.Number.Rounding

/-!
# Adding zero

A finite double is its significand times a power of two, and rounding such a product gives
the double back.  So adding positive zero changes only a negative zero and a NaN that is not
quiet, and a sum that starts from positive zero is neither.
-/

namespace BatchFlow

namespace Binary64

/-- The number of places that the significand is moved to the left, from the least ones on. -/
def shift (x : Binary64) : Nat :=
  (x.exponent + 1074).toNat

section Fields

variable (x : Binary64)

theorem magnitude_lt : x.magnitude < signBit :=
  Nat.mod_lt _ (by decide)

/-- The least numbers have no hidden bit, and all others have one. -/
theorem least_or_hidden :
    x.exponentField = 0 ∧ x.exponent = -1074 ∧ x.shift = 0 ∧ x.significand = x.fractionField ∨
      x.exponent = (x.shift : Int) - 1074 ∧ x.shift + 1 = x.exponentField ∧
        x.significand = x.fractionField + hiddenBit := by
  unfold shift exponent significand
  by_cases least : x.exponentField = 0
  · rw [if_pos least, if_pos least]
    exact .inl ⟨least, rfl, rfl, rfl⟩
  · rw [if_neg least, if_neg least]
    exact .inr ⟨by omega, by omega, rfl⟩

theorem exponent_eq : x.exponent = (x.shift : Int) - 1074 := by
  rcases least_or_hidden x with ⟨-, exponent, shift, -⟩ | ⟨exponent, -, -⟩
  · rw [exponent, shift]
    rfl
  · exact exponent

/-- A pattern is the one of its shift and its significand. -/
theorem magnitude_eq : x.magnitude = x.shift * hiddenBit + x.significand := by
  have parts : x.magnitude = x.exponentField * hiddenBit + x.fractionField := by
    rw [Nat.mul_comm]
    exact (Nat.div_add_mod x.magnitude hiddenBit).symm
  rcases least_or_hidden x with ⟨field, -, shift, significand⟩ | ⟨-, shift, significand⟩
  · rw [parts, field, shift, significand]
  · rw [parts, ← shift, significand, Nat.add_mul]
    omega

theorem significand_lt : x.significand < 2 * hiddenBit := by
  have fraction : x.fractionField < hiddenBit := Nat.mod_lt _ (by decide)
  rcases least_or_hidden x with ⟨-, -, -, significand⟩ | ⟨-, -, significand⟩ <;> omega

/-- Only the least numbers have a short significand. -/
theorem shift_eq_zero_or : x.shift = 0 ∨ hiddenBit ≤ x.significand := by
  rcases least_or_hidden x with ⟨-, -, shift, -⟩ | ⟨-, -, significand⟩
  · exact .inl shift
  · exact .inr (by omega)

theorem isNegative_eq : x.isNegative = decide (signBit ≤ x.bits.toNat) :=
  decide_eq_decide.mpr UInt64.le_iff_toNat_le

/-- A double is its sign and its magnitude. -/
theorem ofMagnitude_magnitude : ofMagnitude x.isNegative x.magnitude = x := by
  have bound := x.bits.toNat_lt
  have pattern : (if x.isNegative then x.magnitude + signBit else x.magnitude) = x.bits.toNat := by
    rw [isNegative_eq]
    unfold magnitude signBit
    by_cases negative : 0x8000000000000000 ≤ x.bits.toNat
    · rw [decide_eq_true negative, if_pos rfl]
      omega
    · rw [decide_eq_false negative, if_neg Bool.false_ne_true]
      omega
  unfold ofMagnitude
  rw [pattern, UInt64.ofNat_toNat]

end Fields

theorem magnitude_ofMagnitude {negative : Bool} {magnitude : Nat} (small : magnitude < signBit) :
    (ofMagnitude negative magnitude).magnitude = magnitude := by
  unfold ofMagnitude Binary64.magnitude
  rw [UInt64.toNat_ofNat']
  unfold signBit at small ⊢
  split_ifs <;> omega

section Exact

variable {significand shift : Nat}

theorem log2_shifted (positive : significand ≠ 0) :
    (significand * 2 ^ shift).log2 = significand.log2 + shift := by
  rw [Nat.log2_eq_iff (Nat.mul_ne_zero positive (Nat.two_pow_pos _).ne')]
  have bounds := (Nat.log2_eq_iff positive).mp rfl
  rw [Nat.pow_add, Nat.add_right_comm, Nat.pow_add]
  exact ⟨Nat.mul_le_mul_right _ bounds.1, Nat.mul_lt_mul_of_pos_right bounds.2 (Nat.two_pow_pos _)⟩

/-- At its own scale a number has its significand as an exact quotient. -/
theorem unscaled_exact (significand shift : Nat) :
    ∃ bottom, 0 < bottom ∧
      unscaled (significand * 2 ^ shift) (2 ^ 1074) ((shift : Int) - 1074) =
        (significand * bottom, bottom) := by
  unfold unscaled
  split_ifs with large
  · refine ⟨2 ^ shift, Nat.two_pow_pos _, ?_⟩
    have sum : 1074 + ((shift : Int) - 1074).toNat = shift := by omega
    rw [Nat.pow_eq, ← Nat.pow_add, sum]
  · refine ⟨2 ^ 1074, Nat.two_pow_pos _, ?_⟩
    have sum : shift + (-((shift : Int) - 1074)).toNat = 1074 := by omega
    rw [Nat.pow_eq, Nat.mul_assoc, ← Nat.pow_add, sum]

theorem roundQuotient_exact {bottom : Nat} (positive : 0 < bottom) :
    roundQuotient (significand * bottom) bottom = significand := by
  unfold roundQuotient
  rw [Nat.mul_div_cancel _ positive, Nat.mul_mod_left]
  simp [positive]

/-- A number is rounded at its own scale. -/
theorem roundingScale_exact (positive : significand ≠ 0) (short : significand < 2 * hiddenBit)
    (least : shift = 0 ∨ hiddenBit ≤ significand) :
    roundingScale (significand * 2 ^ shift) (2 ^ 1074) = (shift : Int) - 1074 := by
  unfold roundingScale
  rw [log2_shifted positive, Nat.log2_two_pow]
  by_cases hidden : hiddenBit ≤ significand
  · have exact : significand.log2 = 52 := by
      unfold hiddenBit at hidden short
      rw [Nat.log2_eq_iff positive]
      omega
    have estimate : ((significand.log2 + shift : Nat) : Int) - (1074 : Nat) - 52 =
        (shift : Int) - 1074 := by omega
    obtain ⟨bottom, bottomPositive, unscaledIs⟩ := unscaled_exact significand shift
    rw [estimate]
    dsimp only
    rw [unscaledIs]
    dsimp only
    rw [Nat.mul_div_cancel _ bottomPositive, if_neg (Nat.not_lt.mpr hidden)]
    omega
  · -- The estimate is below the least scale.
    obtain rfl := least.resolve_right hidden
    have small : significand.log2 < 52 :=
      (Nat.log2_lt positive).mpr (Nat.lt_of_not_le hidden)
    dsimp only
    split_ifs <;> omega

/-- A number of at most 53 bits is rounded to itself. -/
theorem roundedMagnitude_exact (positive : significand ≠ 0) (short : significand < 2 * hiddenBit)
    (least : shift = 0 ∨ hiddenBit ≤ significand) :
    roundedMagnitude (significand * 2 ^ shift) (2 ^ 1074) =
      min (shift * hiddenBit + significand) (2047 * hiddenBit) := by
  obtain ⟨bottom, bottomPositive, unscaledIs⟩ := unscaled_exact significand shift
  have scale : ((shift : Int) - 1074 + 1074).toNat = shift := by omega
  unfold roundedMagnitude
  rw [if_neg (Nat.mul_ne_zero positive (Nat.two_pow_pos _).ne'),
    roundingScale_exact positive short least]
  dsimp only
  rw [unscaledIs, scale]
  dsimp only
  rw [roundQuotient_exact bottomPositive]

end Exact

section Zero

variable {x y : Binary64}

theorem isFinite_iff : x.isFinite = true ↔ x.magnitude < 2047 * hiddenBit := by
  have bound := magnitude_lt x
  unfold isFinite exponentField
  unfold signBit at bound
  unfold hiddenBit
  rw [bne_iff_ne]
  omega

theorem unscaled_one (number places : Nat) :
    unscaled number 1 (places : Int) = (number, 2 ^ places) := by
  unfold unscaled
  rw [if_pos (Int.natCast_nonneg _), Nat.pow_eq, Nat.one_mul, Int.toNat_natCast]

theorem unscaled_neg (numerator denominator : Nat) {places : Nat} (positive : 0 < places) :
    unscaled numerator denominator (-(places : Int)) = (numerator * 2 ^ places, denominator) := by
  have negative : ¬ 0 ≤ -(places : Int) := by omega
  unfold unscaled
  rw [if_neg negative, Nat.pow_eq, Int.neg_neg, Int.toNat_natCast]

/-- Rounding a finite number other than zero gives it back. -/
theorem round_significand (finite : x.isFinite = true) (notZero : x.significand ≠ 0) :
    round x.isNegative (x.significand * 2 ^ x.shift) 1 (-1074) = x := by
  have places : -(-1074 : Int) = (1074 : Nat) := by decide
  unfold round
  rw [places, unscaled_one]
  dsimp only
  rw [roundedMagnitude_exact notZero (significand_lt x) (shift_eq_zero_or x), ← magnitude_eq,
    Nat.min_eq_left (isFinite_iff.mp finite).le, ofMagnitude_magnitude]

theorem isNaN_of_finite (finite : x.isFinite = true) : x.isNaN = false := by
  unfold isFinite at finite
  unfold isNaN
  simp_all

theorem isInfinite_of_finite (finite : x.isFinite = true) : x.isInfinite = false := by
  unfold isFinite at finite
  unfold isInfinite
  simp_all

theorem isFinite_of_number (number : ¬ x.isNaN = true) (notInfinite : ¬ x.isInfinite = true) :
    x.isFinite = true := by
  unfold isNaN at number
  unfold isInfinite at notInfinite
  unfold isFinite
  by_cases top : x.exponentField = 2047 <;> simp_all

theorem scaledInt_least (x : Binary64) :
    x.scaledInt (-1074) = if x.isNegative then -((x.significand * 2 ^ x.shift : Nat) : Int)
      else (x.significand * 2 ^ x.shift : Nat) :=
  rfl

/-- Adding positive zero to a finite number gives it back, up to the sign of a zero. -/
theorem zero_add_of_finite (finite : x.isFinite = true) :
    zero.add x = if x.significand = 0 then zero else x := by
  have least : min zero.exponent x.exponent = -1074 := by
    have zeroIs : zero.exponent = -1074 := by decide
    rw [zeroIs, exponent_eq]
    omega
  have nothing : zero.scaledInt (-1074) = 0 := by decide
  unfold add
  rw [isNaN_of_finite finite, isInfinite_of_finite finite, least]
  dsimp only
  rw [nothing, Int.zero_add, scaledInt_least]
  have zeroIsNumber : zero.isNaN = false ∧ zero.isInfinite = false ∧ zero.isNegative = false := by
    decide
  simp only [zeroIsNumber, Bool.false_eq_true, if_false, Bool.false_and]
  by_cases isZero : x.significand = 0
  · simp [isZero, show ofMagnitude false 0 = zero from rfl]
  · have positive : 0 < x.significand * 2 ^ x.shift :=
      Nat.mul_pos (Nat.pos_of_ne_zero isZero) (Nat.two_pow_pos _)
    have rounded := round_significand finite isZero
    generalize x.significand * 2 ^ x.shift = whole at positive rounded
    rw [if_neg isZero]
    have notBelow : ¬ (whole : Int) < 0 := by omega
    cases negative : x.isNegative
    case false =>
      rw [negative] at rounded
      simpa [positive.ne', notBelow] using rounded
    case true =>
      rw [negative] at rounded
      simpa [positive.ne', positive] using rounded

/-- Adding positive zero to the number gives it back. -/
def Settled (x : Binary64) : Prop :=
  zero.add x = x

theorem settled_zero : zero.Settled :=
  rfl

theorem settled_of_infinite (infinite : x.isInfinite = true) : x.Settled := by
  have number : x.isNaN = false := by
    unfold isInfinite at infinite
    unfold isNaN
    simp_all
  have zeroIsNumber : zero.isNaN = false ∧ zero.isInfinite = false := by decide
  unfold Settled add
  simp [zeroIsNumber, number, infinite]

theorem exponentField_eq (x : Binary64) : x.exponentField = (x.bits.toNat >>> 52) % 2048 := by
  unfold exponentField magnitude signBit hiddenBit
  rw [Nat.shiftRight_eq_div_pow]
  omega

theorem settled_quieted (isNaN : x.isNaN = true) : x.quieted.Settled := by
  have zeroIsNumber : zero.isNaN = false := by decide
  have bits : x.quieted.bits.toNat = x.bits.toNat ||| 2 ^ 51 := UInt64.toNat_or ..
  have exponent : x.quieted.exponentField = x.exponentField := by
    rw [exponentField_eq, exponentField_eq, bits, Nat.shiftRight_or_distrib,
      show 2 ^ 51 >>> 52 = 0 from rfl, Nat.or_zero]
  have fraction : x.quieted.fractionField ≠ 0 := by
    intro none
    have quiet : (x.quieted.bits.toNat % 2 ^ 52).testBit 51 = true := by
      rw [Nat.testBit_mod_two_pow, bits, Nat.testBit_or, Nat.testBit_two_pow_self]
      simp
    have same : x.quieted.bits.toNat % 2 ^ 52 = x.quieted.fractionField := by
      unfold fractionField magnitude signBit hiddenBit
      omega
    rw [same, none, Nat.zero_testBit] at quiet
    cases quiet
  have isNaNToo : x.quieted.isNaN = true := by
    unfold Binary64.isNaN at isNaN ⊢
    simp_all
  unfold Settled add
  rw [zeroIsNumber, isNaNToo]
  simp [quieted, UInt64.or_assoc]

/-- A finite number is settled unless it is negative zero. -/
theorem settled_of_finite (finite : x.isFinite = true)
    (notNegativeZero : x.magnitude = 0 → x.isNegative = false) : x.Settled := by
  have parts := magnitude_eq x
  unfold Settled
  rw [zero_add_of_finite finite]
  split_ifs with isZero
  · have least : x.shift = 0 := by
      rcases shift_eq_zero_or x with least | hidden
      · exact least
      · rw [isZero] at hidden
        exact absurd hidden (by decide)
    rw [least, isZero, Nat.zero_mul] at parts
    rw [← ofMagnitude_magnitude x, parts, notNegativeZero parts]
    rfl
  · rfl

theorem settled_ofMagnitude {negative : Bool} {magnitude : Nat} (positive : 0 < magnitude)
    (bounded : magnitude ≤ 2047 * hiddenBit) : (ofMagnitude negative magnitude).Settled := by
  have kept : (ofMagnitude negative magnitude).magnitude = magnitude := by
    apply magnitude_ofMagnitude
    unfold hiddenBit at bounded
    unfold signBit
    omega
  rcases bounded.lt_or_eq with less | infinite
  · apply settled_of_finite
    · rw [isFinite_iff, kept]
      exact less
    · intro none
      omega
  · apply settled_of_infinite
    unfold isInfinite exponentField fractionField
    rw [kept, infinite]
    rfl

/-- No positive multiple of the least number is rounded to zero. -/
theorem roundedMagnitude_pos {top places : Nat} (positive : 0 < top) (few : places ≤ 1074) :
    0 < roundedMagnitude top (2 ^ places) := by
  have least : -(1074 : Nat) ≤ roundingScale top (2 ^ places) := Int.le_max_left _ _
  have most : 0 < 2047 * hiddenBit := by decide
  unfold roundedMagnitude
  rw [if_neg positive.ne']
  dsimp only
  generalize roundingScale top (2 ^ places) = scale at least
  rcases least.eq_or_lt with rfl | above
  · have quotient : 1 ≤ roundQuotient (top * 2 ^ 1074) (2 ^ places) := by
      apply le_roundQuotient (Nat.two_pow_pos _)
      exact Nat.mul_le_mul positive (pow_le_pow_right₀ (by decide) few)
    rw [unscaled_neg _ _ (by decide)]
    dsimp only
    exact Nat.lt_min.mpr ⟨by omega, most⟩
  · have shifted : 0 < (scale + 1074).toNat := by omega
    have large : 0 < (scale + 1074).toNat * hiddenBit := Nat.mul_pos shifted (by decide)
    exact Nat.lt_min.mpr ⟨by omega, most⟩

theorem settled_round {negative : Bool} {number : Nat} {scale : Int} (positive : 0 < number)
    (least : -1074 ≤ scale) : (round negative number 1 scale).Settled := by
  have scaled : ∃ top places, unscaled number 1 (-scale) = (top, 2 ^ places) ∧
      0 < top ∧ places ≤ 1074 := by
    rcases Int.lt_or_le 0 scale with up | down
    · obtain ⟨places, rfl⟩ := Int.eq_ofNat_of_zero_le up.le
      exact ⟨number * 2 ^ places, 0, unscaled_neg number 1 (by omega),
        Nat.mul_pos positive (Nat.two_pow_pos _), Nat.zero_le _⟩
    · obtain ⟨places, isPlaces⟩ := Int.eq_ofNat_of_zero_le (Int.neg_nonneg_of_nonpos down)
      exact ⟨number, places, isPlaces ▸ unscaled_one number places, positive, by omega⟩
  obtain ⟨top, places, unscaledIs, topPositive, few⟩ := scaled
  unfold round
  rw [unscaledIs]
  exact settled_ofMagnitude (roundedMagnitude_pos topPositive few) (roundedMagnitude_le _ _)

/-- A settled number that is a zero is positive zero. -/
theorem Settled.not_isNegative (settled : x.Settled) (finite : x.isFinite = true)
    (isZero : x.significand = 0) : x.isNegative = false := by
  unfold Settled at settled
  rw [zero_add_of_finite finite, if_pos isZero] at settled
  rw [← settled]
  rfl

theorem exists_scaledInt (negative : x.isNegative = true) (scale : Int) :
    ∃ number : Nat, x.scaledInt scale = -number ∧ (number = 0 → x.significand = 0) := by
  refine ⟨x.significand * 2 ^ (x.exponent - scale).toNat, ?_, fun none => ?_⟩
  · unfold scaledInt
    rw [if_pos negative]
    rfl
  · exact (Nat.mul_eq_zero.mp none).resolve_right (Nat.two_pow_pos _).ne'

/-- A sum that starts from a settled number is settled. -/
theorem Settled.add (settled : x.Settled) (y : Binary64) : (x.add y).Settled := by
  unfold Binary64.add
  split_ifs with xNaN yNaN xInfinite opposite yInfinite
  · exact settled_quieted xNaN
  · exact settled_quieted yNaN
  · rfl
  · exact settled
  · exact settled_of_infinite yInfinite
  · have xFinite := isFinite_of_number xNaN xInfinite
    have yFinite := isFinite_of_number yNaN yInfinite
    have least : -1074 ≤ min x.exponent y.exponent := by
      rw [exponent_eq, exponent_eq]
      omega
    dsimp only
    split_ifs with isZero
    · cases xNegative : x.isNegative with
      | false => exact settled_zero
      | true =>
          cases yNegative : y.isNegative with
          | false => exact settled_zero
          | true =>
              -- Two numbers that are not positive have the sum zero only if both are zero.
              obtain ⟨first, xIs, xZero⟩ := exists_scaledInt xNegative (min x.exponent y.exponent)
              obtain ⟨second, yIs, -⟩ := exists_scaledInt yNegative (min x.exponent y.exponent)
              rw [xIs, yIs] at isZero
              rw [settled.not_isNegative xFinite (xZero (by omega))] at xNegative
              cases xNegative
    · exact settled_round (Int.natAbs_pos.mpr isZero) least

/-- Adding the sum of some numbers, from left to right, to positive zero changes nothing. -/
theorem zero_add_foldl (numbers : List Binary64) :
    zero.add (numbers.foldl Binary64.add zero) = numbers.foldl Binary64.add zero := by
  have settled (start : Binary64) (isSettled : start.Settled) :
      (numbers.foldl Binary64.add start).Settled := by
    induction numbers generalizing start with
    | nil => exact isSettled
    | cons number numbers ih => exact ih _ (isSettled.add number)
  exact settled zero settled_zero

end Zero

end Binary64

end BatchFlow
