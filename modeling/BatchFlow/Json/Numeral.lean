import BatchFlow.Json.Basic

/-!
# JSON numerals

A numeral without fraction and exponent that fits a 64-bit word, signed or
unsigned, is an integer.  Any other is a double: its digits are gathered into a
64-bit significand, digits that no longer fit count as powers of ten only, and
the significand is scaled by one rounded multiplication or division by a power
of ten.  A numeral beyond every double has no value.
-/

namespace BatchFlow

namespace Json

/-- The parts of a numeral: digits before the point, digits after it, and the
sign and digits of the exponent. -/
structure Numeral where
  negative : Bool
  whole : List Char
  fraction : List Char
  exponent : Option (Bool × List Char)

namespace Numeral

/-- The value of a decimal digit. -/
def digitValue (character : Char) : Nat :=
  character.toNat - '0'.toNat

/-- Gather digits before the point: the significand, and the number of digits
that it had no room for. -/
def gatherWhole (significand : Nat) : List Char → Nat × Nat
  | [] => (significand, 0)
  | digit :: rest =>
      let next := significand * 10 + digitValue digit
      if next < UInt64.size then gatherWhole next rest else (significand, rest.length + 1)

/-- Gather digits after the point until one does not fit; the others are
dropped.  Each digit gathered lowers the exponent. -/
def gatherFraction (significand : Nat) (exponent : Int) : List Char → Nat × Int
  | [] => (significand, exponent)
  | digit :: rest =>
      let next := significand * 10 + digitValue digit
      if next < UInt64.size then gatherFraction next (exponent - 1) rest
      else (significand, exponent)

/-- Scale a double by a power of ten.  Exponents below those of doubles are
reached in steps of 308; a result beyond every double is none. -/
def scale (x : Binary64) (exponent : Int) : Option Binary64 :=
  if 308 < exponent then
    if x.isZero then some x else none
  else if 0 ≤ exponent then
    let product := x.mul (Binary64.ofDecimal false 1 exponent)
    if product.isInfinite then none else some product
  else if -308 ≤ exponent then some (x.div (Binary64.ofDecimal false 1 (-exponent)))
  else if x.isZero then some x
  else scale (x.div (Binary64.ofDecimal false 1 308)) (exponent + 308)
termination_by (-exponent).toNat

/-- The value of a numeral as a double. -/
def real? (numeral : Numeral) (significand : Nat) (exponent : Int) : Option Binary64 :=
  let signed := fun x : Binary64 => if numeral.negative then x.neg else x
  match numeral.exponent with
  | none => (scale (.ofInt significand) exponent).map signed
  | some (isNegative, digits) =>
      let shift := Nat.ofDigitChars 10 digits 0
      if 0x80000000 ≤ shift then
        if significand != 0 && !isNegative then none else some (signed .zero)
      else
        (scale (.ofInt significand)
          (if isNegative then exponent - shift else exponent + shift)).map signed

/-- The JSON value of a numeral. -/
def value (numeral : Numeral) : Json :=
  let (whole, extra) := gatherWhole 0 numeral.whole
  let (significand, exponent) := gatherFraction whole extra numeral.fraction
  if extra = 0 && numeral.fraction.isEmpty && numeral.exponent.isNone then
    if !numeral.negative then .integer whole
    else if whole != 0 && whole ≤ 0x8000000000000000 then .integer (-whole)
    else .real (Binary64.ofInt whole).neg
  else
    match numeral.real? significand exponent with
    | some x => .real x
    | none => .unreadable

/-- Read an exponent, after its mark. -/
def readExponent? (characters : List Char) : Option ((Bool × List Char) × List Char) :=
  let (negative, rest) := match characters with
    | '+' :: rest => (false, rest)
    | '-' :: rest => (true, rest)
    | _ => (false, characters)
  let digits := rest.takeWhile Char.isDigit
  if digits.isEmpty then none else some ((negative, digits), rest.dropWhile Char.isDigit)

/-- Read an optional exponent. -/
def readExponentPart? (characters : List Char) :
    Option (Option (Bool × List Char) × List Char) :=
  match characters with
  | 'e' :: rest | 'E' :: rest =>
      (readExponent? rest).map fun (exponent, rest) => (some exponent, rest)
  | _ => some (none, characters)

/-- Read an optional fraction, which has at least one digit. -/
def readFractionPart? (characters : List Char) : Option (List Char × List Char) :=
  match characters with
  | '.' :: rest =>
      let digits := rest.takeWhile Char.isDigit
      if digits.isEmpty then none else some (digits, rest.dropWhile Char.isDigit)
  | _ => some ([], characters)

/-- Read the digits before the point; a zero is never followed by a digit. -/
def readWhole? (characters : List Char) : Option (List Char × List Char) :=
  let digits := characters.takeWhile Char.isDigit
  let rest := characters.dropWhile Char.isDigit
  match digits with
  | [] => none
  | '0' :: _ :: _ => none
  | _ => some (digits, rest)

/-- Read a numeral from the front of a list of characters. -/
def read? (characters : List Char) : Option (Numeral × List Char) :=
  let (negative, rest) := match characters with
    | '-' :: rest => (true, rest)
    | _ => (false, characters)
  match readWhole? rest with
  | none => none
  | some (whole, rest) =>
      match readFractionPart? rest with
      | none => none
      | some (fraction, rest) =>
          (readExponentPart? rest).map fun (exponent, rest) =>
            (⟨negative, whole, fraction, exponent⟩, rest)

end Numeral

end Json

end BatchFlow
