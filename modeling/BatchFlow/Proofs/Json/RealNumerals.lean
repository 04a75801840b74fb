import BatchFlow.Proofs.Json.Tokens
import BatchFlow.Proofs.Number.ShortestDecimals

/-!
# Numerals of doubles

A numeral for a finite double has a fraction or an exponent and rounds to the double, so it is
not that of an integer, and it is for no other double.  The numeral of the shortest decimal is
one of these.
-/

namespace BatchFlow

open RoundingInterval

namespace Json.Numeral

/-- The power of ten that an exponent stands for. -/
def power : Option (Bool × List Char) → ℤ
  | none => 0
  | some (negative, digits) =>
      if negative then -(Nat.ofDigitChars 10 digits 0 : ℤ) else Nat.ofDigitChars 10 digits 0

/-- The number that a numeral stands for, but for the sign. -/
def magnitude (numeral : Numeral) : ℚ :=
  Nat.ofDigitChars 10 (numeral.whole ++ numeral.fraction) 0 *
    10 ^ (power numeral.exponent - numeral.fraction.length)

end Json.Numeral

open Json (Numeral)

namespace Decimal

variable {decimal : Decimal} {negative : Bool}

/-- The numeral of a decimal without an exponent. -/
def positionalNumeral (decimal : Decimal) (negative : Bool) : Numeral :=
  if 0 ≤ decimal.scale then
    ⟨negative, decimal.digitChars ++ List.replicate decimal.scale.toNat '0', ['0'], none⟩
  else if 0 ≤ decimal.leadingExponent then
    ⟨negative, decimal.digitChars.take (decimal.leadingExponent.toNat + 1),
      decimal.digitChars.drop (decimal.leadingExponent.toNat + 1), none⟩
  else
    ⟨negative, ['0'],
      List.replicate (-decimal.leadingExponent - 1).toNat '0' ++ decimal.digitChars, none⟩

/-- The numeral of a decimal with an exponent. -/
def scientificNumeral (decimal : Decimal) (negative : Bool) : Numeral :=
  ⟨negative, decimal.digitChars.take 1, decimal.digitChars.drop 1,
    some (decide (decimal.leadingExponent < 0),
      Nat.toDigits 10 decimal.leadingExponent.natAbs)⟩

/-- The numeral of a decimal, which has an exponent if it is very large or very small. -/
def numeral (decimal : Decimal) (negative : Bool) : Numeral :=
  if -5 ≤ decimal.leadingExponent && decimal.leadingExponent < 16 then
    decimal.positionalNumeral negative
  else decimal.scientificNumeral negative

theorem negative_numeral (decimal : Decimal) (negative : Bool) :
    (decimal.numeral negative).negative = negative := by
  unfold numeral positionalNumeral
  split_ifs <;> rfl

theorem fraction_positionalNumeral_ne_nil (decimal : Decimal) (negative : Bool) :
    (decimal.positionalNumeral negative).fraction ≠ [] := by
  unfold positionalNumeral
  split_ifs with whole someWhole
  · exact List.cons_ne_nil _ _
  · intro empty
    rw [List.drop_eq_nil_iff] at empty
    unfold leadingExponent at *
    omega
  · exact List.append_ne_nil_of_right_ne_nil _ Nat.toDigits_ne_nil

/-- A numeral of a decimal has a fraction or an exponent. -/
theorem fraction_or_exponent_numeral (decimal : Decimal) (negative : Bool) :
    (decimal.numeral negative).fraction ≠ [] ∨ (decimal.numeral negative).exponent ≠ none := by
  unfold numeral
  split
  · exact .inl (decimal.fraction_positionalNumeral_ne_nil negative)
  · exact .inr (Option.some_ne_none _)

section Magnitudes

theorem ofDigitChars_digitChars (decimal : Decimal) :
    Nat.ofDigitChars 10 decimal.digitChars 0 = decimal.digits :=
  Nat.ofDigitChars_ten_toDigits

theorem length_digitChars_pos (decimal : Decimal) : 0 < decimal.digitChars.length :=
  List.length_pos_iff.mpr Nat.toDigits_ne_nil

theorem magnitude_eq_value {numeral : Numeral}
    (digits : Nat.ofDigitChars 10 (numeral.whole ++ numeral.fraction) 0 = decimal.digits)
    (scale : Numeral.power numeral.exponent - numeral.fraction.length = decimal.scale) :
    numeral.magnitude = decimal.value := by
  rw [Numeral.magnitude, digits, scale]
  rfl

theorem magnitude_positionalNumeral (decimal : Decimal) (negative : Bool) :
    (decimal.positionalNumeral negative).magnitude = decimal.value := by
  unfold positionalNumeral
  split_ifs with whole someWhole
  · obtain ⟨places, isPlaces⟩ := Int.eq_ofNat_of_zero_le whole
    simp [Numeral.magnitude, Numeral.power, Nat.ofDigitChars_append, Nat.ofDigitChars_cons,
      Nat.ofDigitChars_replicate_zero, ofDigitChars_digitChars, value, isPlaces]
    ring
  · refine magnitude_eq_value ?_ ?_
    · rw [List.take_append_drop, ofDigitChars_digitChars]
    · rw [Numeral.power, List.length_drop]
      unfold leadingExponent at *
      omega
  · refine magnitude_eq_value ?_ ?_
    · simp [Nat.ofDigitChars_append, Nat.ofDigitChars_replicate_zero, ofDigitChars_digitChars,
        Nat.ofDigitChars_cons]
    · rw [Numeral.power, List.length_append, List.length_replicate]
      unfold leadingExponent at *
      omega

theorem magnitude_scientificNumeral (decimal : Decimal) (negative : Bool) :
    (decimal.scientificNumeral negative).magnitude = decimal.value := by
  have someDigit := decimal.length_digitChars_pos
  refine magnitude_eq_value ?_ ?_
  · rw [scientificNumeral, List.take_append_drop, ofDigitChars_digitChars]
  · simp only [scientificNumeral, Numeral.power, Nat.ofDigitChars_ten_toDigits, List.length_drop]
    unfold leadingExponent at *
    split_ifs with small
    · rw [decide_eq_true_eq] at small
      omega
    · rw [decide_eq_true_eq] at small
      omega

theorem magnitude_numeral (decimal : Decimal) (negative : Bool) :
    (decimal.numeral negative).magnitude = decimal.value := by
  unfold numeral
  split
  · exact decimal.magnitude_positionalNumeral negative
  · exact decimal.magnitude_scientificNumeral negative

end Magnitudes

section Texts

/-- The digits of a decimal make well-formed numerals unless it is zero. -/
theorem wellFormed_numeral (notZero : decimal.digits ≠ 0) (negative : Bool) :
    (decimal.numeral negative).WellFormed := by
  have areDigits : ∀ character ∈ decimal.digitChars, character.isDigit = true :=
    fun _ => isDigit_toDigits
  have noZero : decimal.digitChars.head? ≠ some '0' :=
    fun zero => notZero (head?_toDigits_eq_zero zero)
  have someDigit : decimal.digitChars ≠ [] := Nat.toDigits_ne_nil
  unfold numeral positionalNumeral
  split_ifs
  · refine ⟨?_, ?_, fun zero => ?_, by simp, by simp⟩
    · simp only [List.mem_append, List.mem_replicate]
      rintro character (inDigits | ⟨-, rfl⟩)
      · exact areDigits character inDigits
      · rfl
    · exact List.append_ne_nil_of_left_ne_nil someDigit _
    · exact absurd (List.head?_append_of_ne_nil _ someDigit ▸ zero) noZero
  · refine ⟨fun _ member => areDigits _ (List.mem_of_mem_take member), by simp [someDigit],
      fun zero => ?_, fun _ member => areDigits _ (List.mem_of_mem_drop member), by simp⟩
    exact absurd (by simpa [List.head?_take] using zero) noZero
  · refine ⟨by simp, by simp, by simp, ?_, by simp⟩
    simp only [List.mem_append, List.mem_replicate]
    rintro character (⟨-, rfl⟩ | inDigits)
    · rfl
    · exact areDigits character inDigits
  · refine ⟨fun _ member => areDigits _ (List.mem_of_mem_take member),
      by simp [scientificNumeral, someDigit], fun zero => ?_,
      fun _ member => areDigits _ (List.mem_of_mem_drop member), ?_⟩
    · exact absurd (by simpa [scientificNumeral, List.head?_take] using zero) noZero
    · rintro exponent ⟨⟩
      exact ⟨Nat.toDigits_ne_nil, fun _ => isDigit_toDigits⟩

theorem toList_positional (decimal : Decimal) (negative : Bool) :
    (DecimalStyle.positional decimal).toList =
      (decimal.positionalNumeral negative).unsignedChars := by
  rw [Numeral.unsignedChars, Numeral.fractionChars,
    if_neg (decimal.fraction_positionalNumeral_ne_nil negative)]
  unfold DecimalStyle.positional positionalNumeral
  dsimp only
  split_ifs <;> simp [Numeral.exponentChars]

/-- The mark of a positive exponent and the exponent are a sign and digits. -/
theorem toList_exponent (leading : Int) :
    (if 0 ≤ leading then DecimalStyle.json.plus else "").toList ++ (toString leading).toList =
      (if leading < 0 then '-' else '+') :: Nat.toDigits 10 leading.natAbs := by
  cases leading with
  | ofNat exponent => simp [DecimalStyle.json, Int.toString_eq_repr, Int.repr]
  | negSucc exponent => simp [Int.toString_eq_repr, Int.repr]

theorem toList_scientific (decimal : Decimal) (negative : Bool) :
    (DecimalStyle.json.scientific decimal).toList =
      (decimal.scientificNumeral negative).unsignedChars := by
  have fraction : (if decimal.digitChars.length ≤ 1 then ""
      else "." ++ String.ofList (decimal.digitChars.drop 1)).toList =
        Numeral.fractionChars (decimal.digitChars.drop 1) := by
    rw [Numeral.fractionChars, apply_ite String.toList]
    exact if_congr List.drop_eq_nil_iff.symm rfl (by simp)
  have exponent := toList_exponent decimal.leadingExponent
  simp only [DecimalStyle.scientific, String.toList_append, String.toList_ofList, fraction,
    List.append_assoc, exponent]
  simp [scientificNumeral, Numeral.unsignedChars, Numeral.exponentChars]

/-- The text of a decimal is its numeral, without a sign. -/
theorem toList_unsigned (decimal : Decimal) (negative : Bool) :
    (if -5 ≤ decimal.leadingExponent && decimal.leadingExponent < 16 then
        DecimalStyle.positional decimal
      else DecimalStyle.json.scientific decimal).toList =
      (decimal.numeral negative).unsignedChars := by
  unfold numeral
  split
  · exact decimal.toList_positional negative
  · exact decimal.toList_scientific negative

end Texts

end Decimal

namespace Binary64

variable {x y : Binary64}

/-- The numeral of a finite double. -/
def numeral (x : Binary64) : Numeral :=
  if x.isZero then ⟨x.isNegative, ['0'], ['0'], none⟩
  else ((ofBinary64 x).shortest .even).numeral x.isNegative

theorem negative_numeral (x : Binary64) : x.numeral.negative = x.isNegative := by
  unfold numeral
  split
  · rfl
  · exact Decimal.negative_numeral _ _

theorem significand_ne_zero (notZero : ¬ x.isZero = true) : x.significand ≠ 0 := by
  have least := shift_eq_zero_or x
  rw [isZero, beq_iff_eq, magnitude_eq] at notZero
  unfold hiddenBit at *
  omega

/-- The text of a finite double is its numeral. -/
theorem toList_text (finite : x.isFinite = true) :
    (DecimalStyle.json.text x).toList = x.numeral.chars := by
  rw [DecimalStyle.text, if_neg (by simp [isNaN_of_finite finite]),
    if_neg (by simp [isInfinite_of_finite finite]), Numeral.chars, negative_numeral]
  have sign : (if x.isNegative then "-" else "").toList =
      if x.isNegative then ['-'] else [] := by
    split <;> rfl
  unfold numeral
  dsimp only
  split
  · rw [String.toList_append, sign]
    rfl
  · rw [← apply_ite ((if x.isNegative then "-" else "") ++ ·), String.toList_append, sign]
    exact congrArg _ (Decimal.toList_unsigned _ _)

/-- A number that rounds to a double other than zero is not zero. -/
theorem pos_of_contains {number : ℚ} (notZero : x.significand ≠ 0)
    (inside : (ofBinary64 x).Contains number) : 0 < number := by
  have above := inside.bounds.1
  rw [low_div_denominator] at above
  refine lt_of_lt_of_le (div_pos (Nat.cast_pos.mpr ?_) leastQuarters_pos) above
  have reach := reachBelow_le x
  exact Nat.mul_pos (by omega) (Nat.two_pow_pos _)

end Binary64

namespace Json.Numeral

/-- A numeral for a finite double: it is not that of an integer, has the sign of the double
and rounds to it. -/
structure Denotes (numeral : Numeral) (x : Binary64) : Prop where
  wellFormed : numeral.WellFormed
  hasPoint : numeral.fraction ≠ [] ∨ numeral.exponent ≠ none
  sign : numeral.negative = x.isNegative
  zero : x.isZero = true → numeral.magnitude = 0
  rounds : ¬ x.isZero = true → (ofBinary64 x).Contains numeral.magnitude

namespace Denotes

variable {numeral : Numeral} {x y : Binary64}

theorem ne_ofInteger (denotes : numeral.Denotes x) (value : Int) : numeral ≠ ofInteger value := by
  intro same
  have hasPoint := denotes.hasPoint
  simp [same, ofInteger] at hasPoint

theorem magnitude_eq_zero_iff (denotes : numeral.Denotes x) :
    numeral.magnitude = 0 ↔ x.isZero = true := by
  refine ⟨fun isZero => ?_, denotes.zero⟩
  by_contra notZero
  exact (Binary64.pos_of_contains (Binary64.significand_ne_zero notZero)
    (denotes.rounds notZero)).ne' isZero

/-- A numeral is for one double only. -/
theorem unique (denotes : numeral.Denotes x) (denotesToo : numeral.Denotes y) : x = y := by
  have signs : x.isNegative = y.isNegative := denotes.sign.symm.trans denotesToo.sign
  have zeros : x.isZero = true ↔ y.isZero = true :=
    denotes.magnitude_eq_zero_iff.symm.trans denotesToo.magnitude_eq_zero_iff
  have magnitudes : x.magnitude = y.magnitude := by
    by_cases isZero : x.isZero = true
    · exact (beq_iff_eq.mp isZero).trans (beq_iff_eq.mp (zeros.mp isZero)).symm
    · exact Binary64.magnitude_eq_of_contains (denotes.rounds isZero)
        (denotesToo.rounds (mt zeros.mpr isZero))
  rw [← Binary64.ofMagnitude_magnitude (x := x), signs, magnitudes,
    Binary64.ofMagnitude_magnitude]

end Denotes

end Json.Numeral

namespace Binary64

theorem wellFormed_numeral (x : Binary64) : x.numeral.WellFormed := by
  unfold numeral
  split
  case isTrue => refine ⟨?_, ?_, ?_, ?_, ?_⟩ <;> simp
  case isFalse notZero =>
    refine Decimal.wellFormed_numeral (fun zero => ?_) _
    have notZero := significand_ne_zero notZero
    have positive := pos_of_contains notZero (contains_shortest notZero .even)
    simp [Decimal.value, zero] at positive

/-- The shortest numeral of a double is a numeral for it. -/
theorem denotes_numeral (x : Binary64) : x.numeral.Denotes x where
  wellFormed := x.wellFormed_numeral
  hasPoint := by
    unfold numeral
    split
    · exact .inl (List.cons_ne_nil _ _)
    · exact Decimal.fraction_or_exponent_numeral _ _
  sign := x.negative_numeral
  zero isZero := by simp [numeral, isZero, Numeral.magnitude, Nat.ofDigitChars_cons]
  rounds notZero := by
    rw [numeral, if_neg notZero, Decimal.magnitude_numeral]
    exact contains_shortest (significand_ne_zero notZero) .even

end Binary64

end BatchFlow
