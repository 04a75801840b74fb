import BatchFlow.Number.Binary64

/-!
# Decimal text of doubles

A finite double is written with the fewest decimal digits that read back as
the same double, and of those the nearest to its exact value.  The digits are
found by exact integer arithmetic: for one digit, two digits and so on, the two
neighbours of the value on that decimal grid are tested against the interval
of numbers that round to the double.  Where the point or an exponent is put is
a matter of the format, given by a `DecimalStyle`.
-/

namespace BatchFlow

/-- Which of two equally near decimals of the same length is taken. -/
inductive Tie
  | even
  | away
deriving DecidableEq

/-- An integer significand times a power of ten. -/
structure Decimal where
  digits : Nat
  scale : Int
deriving DecidableEq

namespace Decimal

/-- The decimal digits of the significand, most significant first. -/
def digitChars (decimal : Decimal) : List Char :=
  Nat.toDigits 10 decimal.digits

/-- The power of ten of the leading digit. -/
def leadingExponent (decimal : Decimal) : Int :=
  (decimal.digitChars.length : Int) - 1 + decimal.scale

/-- Move trailing zeros of the significand into the scale, at most `fuel` of them. -/
def stripZeros : Nat → Decimal → Decimal
  | 0, decimal => decimal
  | fuel + 1, decimal =>
      if decimal.digits % 10 = 0 && decimal.digits != 0 then
        stripZeros fuel ⟨decimal.digits / 10, decimal.scale + 1⟩
      else decimal

end Decimal

/-- The numbers that round to one double, over a common denominator. -/
structure RoundingInterval where
  low : Nat
  value : Nat
  high : Nat
  denominator : Nat
  closed : Bool

namespace RoundingInterval

/-- The interval of a positive finite double.  Below a power of two the next
double is only half as far away; the ends belong to the interval when the
significand is even. -/
def ofBinary64 (x : Binary64) : RoundingInterval :=
  let halfStep := if x.fractionField = 0 && 1 < x.exponentField then 1 else 2
  let quarters := 4 * x.significand
  let scale := x.exponent - 2
  let factor := if 0 ≤ scale then Nat.pow 2 scale.toNat else 1
  { low := (quarters - halfStep) * factor
    value := quarters * factor
    high := (quarters + 2) * factor
    denominator := if 0 ≤ scale then 1 else Nat.pow 2 (-scale).toNat
    closed := x.significand % 2 == 0 }

/-- The power of ten of the leading digit of the value. -/
def leadingExponent (interval : RoundingInterval) : Int :=
  let valueLength := (Nat.toDigits 10 interval.value).length
  let denominatorLength := (Nat.toDigits 10 interval.denominator).length
  let reachesPower :=
    if denominatorLength ≤ valueLength then
      interval.denominator * Nat.pow 10 (valueLength - denominatorLength) ≤ interval.value
    else
      interval.denominator ≤ interval.value * Nat.pow 10 (denominatorLength - valueLength)
  let difference := (valueLength : Int) - denominatorLength
  if reachesPower then difference else difference - 1

/-- The neighbour of the value on the grid of multiples of ten to the power
`scale` that lies in the interval and is nearest to the value. -/
def onGrid? (interval : RoundingInterval) (tie : Tie) (scale : Int) : Option Nat :=
  let step := if 0 ≤ scale then interval.denominator * Nat.pow 10 scale.toNat
    else interval.denominator
  let factor := if 0 ≤ scale then 1 else Nat.pow 10 (-scale).toNat
  let below := interval.value * factor / step
  let isInside := fun candidate : Nat =>
    if interval.closed then
      interval.low * factor ≤ candidate * step ∧ candidate * step ≤ interval.high * factor
    else
      interval.low * factor < candidate * step ∧ candidate * step < interval.high * factor
  let doubled := 2 * interval.value * factor
  let middle := (2 * below + 1) * step
  let preferAbove :=
    match compare doubled middle with
    | .lt => false
    | .gt => true
    | .eq => match tie with
      | .even => below % 2 == 1
      | .away => true
  if isInside below then
    if isInside (below + 1) && preferAbove then some (below + 1) else some below
  else if isInside (below + 1) then some (below + 1)
  else none

/-- The first grid, counting `length` digits and up, that has a point in the
interval. -/
def shortestFrom (interval : RoundingInterval) (tie : Tie) (leading : Int) :
    (remaining length : Nat) → Decimal
  | 0, length =>
      let scale := leading - length + 1
      ⟨(interval.onGrid? tie scale).getD 0, scale⟩
  | remaining + 1, length =>
      let scale := leading - length + 1
      match interval.onGrid? tie scale with
      | some digits => ⟨digits, scale⟩
      | none => shortestFrom interval tie leading remaining (length + 1)

/-- The shortest decimal in the interval; seventeen digits always suffice. -/
def shortest (interval : RoundingInterval) (tie : Tie) : Decimal :=
  (shortestFrom interval tie interval.leadingExponent 16 1).stripZeros 17

end RoundingInterval

/-- How a format writes doubles: from which to which power of ten of the leading
digit the number is written without an exponent, the mark of a positive
exponent, the preference between equally near digits, and the texts of the
values that have no digits. -/
structure DecimalStyle where
  positionalFrom : Int
  positionalBelow : Int
  plus : String
  tie : Tie
  infinity : String
  negativeInfinity : String
  nan : String

namespace DecimalStyle

/-- Numbers in JSON text; values that JSON cannot express are `null`. -/
def json : DecimalStyle :=
  ⟨-5, 16, "+", .even, "null", "null", "null"⟩

/-- Numbers in messages and rendered plans. -/
def message : DecimalStyle :=
  ⟨-4, 16, "", .away, "inf", "-inf", "NaN"⟩

/-- Numbers given as configuration values. -/
def property : DecimalStyle :=
  ⟨-5, 16, "", .even, ".inf", "-.inf", ".nan"⟩

/-- A decimal without an exponent; an integral one ends in `.0`. -/
def positional (decimal : Decimal) : String :=
  let digits := decimal.digitChars
  if 0 ≤ decimal.scale then
    String.ofList (digits ++ List.replicate decimal.scale.toNat '0') ++ ".0"
  else
    let leading := decimal.leadingExponent
    if 0 ≤ leading then
      String.ofList (digits.take (leading.toNat + 1)) ++ "."
        ++ String.ofList (digits.drop (leading.toNat + 1))
    else
      "0." ++ String.ofList (List.replicate (-leading - 1).toNat '0' ++ digits)

/-- A decimal as a leading digit, further digits and an exponent. -/
def scientific (style : DecimalStyle) (decimal : Decimal) : String :=
  let digits := decimal.digitChars
  let leading := decimal.leadingExponent
  let fraction := if digits.length ≤ 1 then "" else "." ++ String.ofList (digits.drop 1)
  String.ofList (digits.take 1) ++ fraction ++ "e"
    ++ (if 0 ≤ leading then style.plus else "") ++ toString leading

/-- The text of a double in a style. -/
def text (style : DecimalStyle) (x : Binary64) : String :=
  if x.isNaN then style.nan
  else if x.isInfinite then
    if x.isNegative then style.negativeInfinity else style.infinity
  else
    let sign := if x.isNegative then "-" else ""
    if x.isZero then sign ++ "0.0"
    else
      let decimal := (RoundingInterval.ofBinary64 x).shortest style.tie
      let leading := decimal.leadingExponent
      if style.positionalFrom ≤ leading && leading < style.positionalBelow then
        sign ++ positional decimal
      else
        sign ++ style.scientific decimal

end DecimalStyle

end BatchFlow
