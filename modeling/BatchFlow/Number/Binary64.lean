/-!
# Double-precision numbers

A double is its 64-bit pattern.  Arithmetic is defined from the exact result:
finite operands are decoded to an integer significand and a power of two, the
operation is carried out on integers, and the exact quotient is rounded once,
to nearest with ties to the even neighbour.  Every pattern, the signs of zeros
and NaNs included, takes part in the total order.
-/

namespace BatchFlow

/-- A double-precision number, as its bit pattern. -/
structure Binary64 where
  bits : UInt64
deriving DecidableEq, Inhabited

namespace Binary64

/-- The weight of the sign bit. -/
def signBit : Nat :=
  0x8000000000000000

/-- The weight of the leading bit of a significand, which the fraction field
leaves out. -/
def hiddenBit : Nat :=
  0x10000000000000

/-- Positive zero. -/
def zero : Binary64 :=
  ⟨0⟩

/-- Positive infinity. -/
def infinity : Binary64 :=
  ⟨0x7ff0000000000000⟩

/-- The NaN with a clear sign and only the quiet bit set. -/
def quietNaN : Binary64 :=
  ⟨0x7ff8000000000000⟩

/-- The NaN that an invalid operation yields; its sign is set. -/
def invalid : Binary64 :=
  ⟨0xfff8000000000000⟩

/-- Whether the sign bit is set. -/
def isNegative (x : Binary64) : Bool :=
  x.bits ≥ 0x8000000000000000

/-- The pattern without its sign bit. -/
def magnitude (x : Binary64) : Nat :=
  x.bits.toNat % signBit

/-- The biased exponent field. -/
def exponentField (x : Binary64) : Nat :=
  x.magnitude / hiddenBit

/-- The fraction field. -/
def fractionField (x : Binary64) : Nat :=
  x.magnitude % hiddenBit

/-- Whether the pattern is a NaN. -/
def isNaN (x : Binary64) : Bool :=
  x.exponentField == 2047 && x.fractionField != 0

/-- Whether the pattern is an infinity. -/
def isInfinite (x : Binary64) : Bool :=
  x.exponentField == 2047 && x.fractionField == 0

/-- Whether the pattern is a zero or an ordinary number. -/
def isFinite (x : Binary64) : Bool :=
  x.exponentField != 2047

/-- Whether the pattern is one of the two zeros. -/
def isZero (x : Binary64) : Bool :=
  x.magnitude == 0

/-- The significand of a finite number: its magnitude is this integer times
two to the power `exponent`. -/
def significand (x : Binary64) : Nat :=
  if x.exponentField = 0 then x.fractionField else x.fractionField + hiddenBit

/-- The power of two by which the significand of a finite number is scaled. -/
def exponent (x : Binary64) : Int :=
  if x.exponentField = 0 then -1074 else (x.exponentField : Int) - 1075

/-- The double with a sign and a magnitude pattern. -/
def ofMagnitude (negative : Bool) (magnitude : Nat) : Binary64 :=
  ⟨UInt64.ofNat (if negative then magnitude + signBit else magnitude)⟩

/-- A word that orders bit patterns as numbers: negative patterns are
complemented and the others moved above them. -/
def orderKey (x : Binary64) : UInt64 :=
  if x.isNegative then ~~~x.bits else x.bits ||| 0x8000000000000000

/-- The total order on bit patterns: negative NaNs, negative numbers, `-0.0`,
`0.0`, positive numbers, positive NaNs. -/
def totalOrder (first second : Binary64) : Ordering :=
  compare first.orderKey second.orderKey

/-- The quotient of two integers rounded to an integer, ties to even. -/
def roundQuotient (numerator denominator : Nat) : Nat :=
  let quotient := numerator / denominator
  let doubled := 2 * (numerator % denominator)
  if doubled < denominator then quotient
  else if denominator < doubled then quotient + 1
  else quotient + quotient % 2

/-- The numerator and denominator of a quotient divided by a power of two. -/
def unscaled (numerator denominator : Nat) (scale : Int) : Nat × Nat :=
  if 0 ≤ scale then (numerator, denominator * Nat.pow 2 scale.toNat)
  else (numerator * Nat.pow 2 (-scale).toNat, denominator)

/-- The scale at which a positive quotient has a 53-bit integer part, or the
least scale there is. -/
def roundingScale (numerator denominator : Nat) : Int :=
  let estimate : Int := (numerator.log2 : Int) - (denominator.log2 : Int) - 52
  let (top, bottom) := unscaled numerator denominator estimate
  max (-1074) (if top / bottom < hiddenBit then estimate - 1 else estimate)

/-- The magnitude pattern nearest to a quotient, ties to even; a quotient
beyond every finite number gives infinity. -/
def roundedMagnitude (numerator denominator : Nat) : Nat :=
  if numerator = 0 then 0
  else
    let scale := roundingScale numerator denominator
    let (top, bottom) := unscaled numerator denominator scale
    min ((scale + 1074).toNat * hiddenBit + roundQuotient top bottom)
      (2047 * hiddenBit)

/-- The double nearest to a signed quotient times a power of two. -/
def round (negative : Bool) (numerator denominator : Nat) (scale : Int) : Binary64 :=
  let (top, bottom) := unscaled numerator denominator (-scale)
  ofMagnitude negative (roundedMagnitude top bottom)

/-- The double nearest to an integer. -/
def ofInt (value : Int) : Binary64 :=
  round (value < 0) value.natAbs 1 0

/-- The double nearest to `digits` times ten to the power `scale`.  Far outside
the range of doubles the power is not computed. -/
def ofDecimal (negative : Bool) (digits : Nat) (scale : Int) : Binary64 :=
  let leading := ((Nat.toDigits 10 digits).length : Int) + scale
  if digits = 0 || leading < -400 then ofMagnitude negative 0
  else if 400 < leading then ofMagnitude negative infinity.magnitude
  else if 0 ≤ scale then round negative (digits * Nat.pow 10 scale.toNat) 1 0
  else round negative digits (Nat.pow 10 (-scale).toNat) 0

/-- A NaN operand as the result of an operation. -/
def quieted (x : Binary64) : Binary64 :=
  ⟨x.bits ||| 0x0008000000000000⟩

/-- A finite number as an integer at a scale not above its own. -/
def scaledInt (x : Binary64) (scale : Int) : Int :=
  let integer := x.significand * Nat.pow 2 (x.exponent - scale).toNat
  if x.isNegative then -(integer : Int) else integer

/-- The rounded sum.  A NaN operand is kept, the first one if both are. -/
def add (first second : Binary64) : Binary64 :=
  if first.isNaN then first.quieted
  else if second.isNaN then second.quieted
  else if first.isInfinite then
    if second.isInfinite && first.isNegative != second.isNegative then invalid
    else first
  else if second.isInfinite then second
  else
    let scale := min first.exponent second.exponent
    let sum := first.scaledInt scale + second.scaledInt scale
    if sum = 0 then ofMagnitude (first.isNegative && second.isNegative) 0
    else round (sum < 0) sum.natAbs 1 scale

/-- The rounded product. -/
def mul (first second : Binary64) : Binary64 :=
  let negative := first.isNegative != second.isNegative
  if first.isNaN then first.quieted
  else if second.isNaN then second.quieted
  else if first.isInfinite || second.isInfinite then
    if first.isZero || second.isZero then invalid
    else ofMagnitude negative infinity.magnitude
  else
    round negative (first.significand * second.significand) 1
      (first.exponent + second.exponent)

/-- The rounded quotient. -/
def div (first second : Binary64) : Binary64 :=
  let negative := first.isNegative != second.isNegative
  if first.isNaN then first.quieted
  else if second.isNaN then second.quieted
  else if first.isInfinite then
    if second.isInfinite then invalid else ofMagnitude negative infinity.magnitude
  else if second.isInfinite then ofMagnitude negative 0
  else if second.isZero then
    if first.isZero then invalid else ofMagnitude negative infinity.magnitude
  else
    round negative first.significand second.significand
      (first.exponent - second.exponent)

/-- The number with the opposite sign. -/
def neg (x : Binary64) : Binary64 :=
  ⟨x.bits ^^^ 0x8000000000000000⟩

end Binary64

end BatchFlow
