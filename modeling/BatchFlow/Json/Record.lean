import BatchFlow.Json.Basic
import BatchFlow.Number.Word

/-!
# Records, variants and bounded numbers in JSON

A record is an object with known names, in any order and among others, or an
array of the fields in their order.  A variant is a name alone or an object of
one entry.
-/

namespace BatchFlow

namespace Json

/-- When a field may be left out: never, in an object, or also at the end of an
array. -/
inductive Presence where
  | required
  | nullable
  | defaulted
deriving DecidableEq

/-- The fields of a record, in the order of its shape.  A field given twice is
an error, and so is a name without a text, whatever the others are. -/
def record? (shape : List (String × Presence)) : Json → Option (List (Option Json))
  | .object entries =>
      if entries.all fun entry => entry.1.text?.isSome then
        shape.mapM fun (name, presence) =>
          match entries.filter fun entry => entry.1.text? == some name with
          | [] => if presence = .required then none else some none
          | [(_, value)] => some (some value)
          | _ => none
      else none
  | .array elements =>
      if shape.length < elements.length then none
      else
        shape.zipIdx.mapM fun ((_, presence), index) =>
          match elements[index]? with
          | some value => some (some value)
          | none => if presence = .defaulted then some none else none
  | _ => none

/-- The name and content of a variant. -/
def variant? : Json → Option (String × Option Json)
  | .string name => some (name, none)
  | .object [(name, value)] => name.text?.map fun name => (name, some value)
  | _ => none

/-- The name of a variant without content; a null also counts as no content. -/
def bareVariant? (value : Json) : Option String :=
  match value.variant? with
  | some (name, none) => some name
  | some (name, some .null) => some name
  | _ => none

/-- A word. -/
def word? : Json → Option UInt64
  | .integer value => if value < 0 then none else Number.word? value.toNat
  | _ => none

/-- A half word. -/
def halfWord? : Json → Option UInt32
  | .integer value => if value < 0 then none else Number.halfWord? value.toNat
  | _ => none

/-- A signed word. -/
def signedWord? : Json → Option Int64
  | .integer value => Number.signedWord? value
  | _ => none

/-- A double; integers are converted. -/
def binary64? : Json → Option Binary64
  | .integer value => some (Binary64.ofInt value)
  | .real value => some value
  | _ => none

/-- A truth value. -/
def bool? : Json → Option Bool
  | .bool value => some value
  | _ => none

/-- A text. -/
def string? : Json → Option String
  | .string value => some value
  | _ => none

/-- The elements of an array. -/
def array? : Json → Option (List Json)
  | .array elements => some elements
  | _ => none

/-- The entries of an object. -/
def object? : Json → Option (List (Name × Json))
  | .object entries => some entries
  | _ => none

/-- A value or null. -/
def option? {α : Type} (decode? : Json → Option α) : Json → Option (Option α)
  | .null => some none
  | value => (decode? value).map some

/-- A list of values. -/
def list? {α : Type} (decode? : Json → Option α) (value : Json) : Option (List α) :=
  value.array?.bind fun elements => elements.mapM decode?

/-- A word as the name of an entry: decimal digits without leading zeros, none of
them escaped. -/
def wordName? : Name → Option UInt64
  | .plain text =>
      let digits := text.toList
      if digits.isEmpty || !digits.all Char.isDigit then none
      else if digits.head? == some '0' && 1 < digits.length then none
      else Number.word? (Nat.ofDigitChars 10 digits 0)
  | .escaped _ => none

end Json

end BatchFlow
