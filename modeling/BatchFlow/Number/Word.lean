/-!
# Numbers that fit a word
-/

namespace BatchFlow

namespace Number

/-- A number as a word, if it fits. -/
def word? (value : Nat) : Option UInt64 :=
  if value < UInt64.size then some (UInt64.ofNat value) else none

/-- A number as a half word, if it fits. -/
def halfWord? (value : Nat) : Option UInt32 :=
  if value < UInt32.size then some (UInt32.ofNat value) else none

/-- An integer as a signed word, if it fits. -/
def signedWord? (value : Int) : Option Int64 :=
  if Int64.minValue.toInt ≤ value ∧ value ≤ Int64.maxValue.toInt then
    some (Int64.ofInt value)
  else none

end Number

end BatchFlow
