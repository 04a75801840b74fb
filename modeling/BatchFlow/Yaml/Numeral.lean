import BatchFlow.Number.Binary64
import BatchFlow.Number.Word
import BatchFlow.Text.Hexadecimal

/-!
# The values of plain scalars

A plain scalar is a null, a truth value, an integer, a real number, or else a
text.  Integers are decimal, or written in base 16, 8 or 2 after `0x`, `0o` or
`0b`.  Decimal digits that begin with a zero are a text.
-/

namespace BatchFlow

namespace Yaml

/-- Whether a scalar is a word for null. -/
def isNullWord (text : String) : Bool :=
  text ∈ ["null", "Null", "NULL", "~"]

/-- The truth value that a scalar is a word for. -/
def boolWord? (text : String) : Option Bool :=
  if text ∈ ["true", "True", "TRUE"] then some true
  else if text ∈ ["false", "False", "FALSE"] then some false
  else none

namespace Numeral

/-- The number that digits of a base write; there must be one at least. -/
def ofDigits? (base : Nat) (digits : List Char) : Option Nat :=
  if digits.isEmpty then none
  else
    (digits.mapM Text.hexValue?).bind fun values =>
      if values.all (· < base) then
        some (values.foldl (fun number value => number * base + value) 0)
      else none

/-- What is left without a plus or minus sign. -/
def dropSign : List Char → List Char
  | '+' :: rest | '-' :: rest => rest
  | characters => characters

/-- Whether a scalar is a zero with further digits after it. -/
def isZeroPadded (characters : List Char) : Bool :=
  match dropSign characters with
  | '0' :: second :: rest => (second :: rest).all Char.isDigit
  | _ => false

/-- The magnitude of an integer without its sign. -/
def magnitude? (digits : List Char) : Option Nat :=
  match digits with
  | '0' :: 'x' :: rest => ofDigits? 16 rest
  | '0' :: 'o' :: rest => ofDigits? 8 rest
  | '0' :: 'b' :: rest => ofDigits? 2 rest
  | _ => if isZeroPadded digits then none else ofDigits? 10 digits

/-- The integer of a scalar without a minus sign. -/
def natural? : List Char → Option Nat
  | '+' :: rest => magnitude? rest
  | characters => magnitude? characters

/-- The magnitude of the integer of a scalar with a minus sign. -/
def negated? : List Char → Option Nat
  | '-' :: rest => magnitude? rest
  | _ => none

/-- The digits of an exponent and their sign. -/
def exponent? : List Char → Option Int
  | '-' :: digits => (ofDigits? 10 digits).map fun magnitude => -(magnitude : Int)
  | '+' :: digits => (ofDigits? 10 digits).map Int.ofNat
  | digits => (ofDigits? 10 digits).map Int.ofNat

/-- The exponent after its mark; without a mark it is zero. -/
def exponentPart? : List Char → Option Int
  | [] => some 0
  | 'e' :: rest | 'E' :: rest => exponent? rest
  | _ => none

/-- The real number of digits, a point and an exponent, of which there need be no
more than one digit. -/
def finite? (negative : Bool) (characters : List Char) : Option Binary64 :=
  let whole := characters.takeWhile Char.isDigit
  let rest := characters.dropWhile Char.isDigit
  let (fraction, rest) := match rest with
    | '.' :: rest => (rest.takeWhile Char.isDigit, rest.dropWhile Char.isDigit)
    | rest => ([], rest)
  (ofDigits? 10 (whole ++ fraction)).bind fun digits =>
    (exponentPart? rest).bind fun exponent =>
      let value := Binary64.ofDecimal negative digits (exponent - fraction.length)
      if value.isFinite then some value else none

/-- Whether characters are a word for infinity. -/
def isInfinityWord (characters : List Char) : Bool :=
  String.ofList characters ∈ [".inf", ".Inf", ".INF"]

/-- Whether characters are a word for a value that is no number. -/
def isNaNWord (characters : List Char) : Bool :=
  String.ofList characters ∈ [".nan", ".NaN", ".NAN"]

/-- The real number of a scalar.  One beyond every double has none. -/
def real? (characters : List Char) : Option Binary64 :=
  match characters with
  | '-' :: rest =>
      if isInfinityWord rest then some Binary64.infinity.neg else finite? true rest
  | '+' :: rest =>
      if isInfinityWord rest then some .infinity else finite? false rest
  | _ =>
      if isInfinityWord characters then some .infinity
      else if isNaNWord characters then some .quietNaN
      else finite? false characters

end Numeral

/-- What a plain scalar says. -/
inductive PlainValue where
  | null
  | bool (value : Bool)
  | natural (value : UInt64)
  /-- An integer with a minus sign. -/
  | negated (value : Int64)
  | real (value : Binary64)
  | text (value : String)
  /-- An integer of 128 bits that does not fit 64. -/
  | oversized

namespace PlainValue

/-- The number of integers of 128 bits. -/
def doubleWordCount : Nat :=
  0x100000000000000000000000000000000

/-- The integer that a scalar says. -/
def integer? (characters : List Char) : Option PlainValue :=
  match Numeral.natural? characters, Numeral.negated? characters with
  | some magnitude, _ =>
      match Number.word? magnitude with
      | some value => some (.natural value)
      | none => if magnitude < doubleWordCount then some .oversized else none
  | none, some magnitude =>
      match Number.signedWord? (-magnitude) with
      | some value => some (.negated value)
      | none => if 2 * magnitude ≤ doubleWordCount then some .oversized else none
  | none, none => none

/-- What the text of a plain scalar says. -/
def ofText (text : String) : PlainValue :=
  let characters := text.toList
  if characters.isEmpty || isNullWord text then null
  else
    match boolWord? text, integer? characters with
    | some value, _ => bool value
    | none, some value => value
    | none, none =>
        if Numeral.isZeroPadded characters then .text text
        else
          match Numeral.real? characters with
          | some value => real value
          | none => .text text

end PlainValue

end Yaml

end BatchFlow
