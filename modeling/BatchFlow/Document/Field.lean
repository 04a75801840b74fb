import BatchFlow.Number.Word
import BatchFlow.Scalar
import BatchFlow.Yaml.Value

/-!
# Typed fields of documents

A field of the document itself or of a stage is read from its node, so that
numbers are those the scalar is written as and names may be any scalar.  A field
of an operator is read from the value of its node, so that names must be texts.
-/

namespace BatchFlow

namespace Yaml

namespace Node

/-- Whether a node is an empty plain scalar. -/
def isBlank : Node → Bool
  | .scalar _ style text => style = .plain && text.isEmpty
  | _ => false

/-- The characters of a scalar. -/
def text? : Node → Option String
  | .scalar _ _ text => some text
  | _ => none

/-- A word: a plain scalar, or a literal one that is tagged as an integer. -/
def word? : Node → Option UInt64
  | .scalar tag style text =>
      if style = .plain || (style = .literal && tag = some Tag.integer) then
        (Numeral.natural? text.toList).bind Number.word?
      else none
  | _ => none

/-- A half word. -/
def halfWord? (node : Node) : Option UInt32 :=
  node.word?.bind fun value => Number.halfWord? value.toNat

/-- Whether a node says that there is no value; one that is tagged as a null must. -/
def isAbsent? : Node → Option Bool
  | .scalar tag .plain text =>
      match tag with
      | none => some (text.isEmpty || isNullWord text)
      | some tag =>
          if tag = Tag.null then if isNullWord text then some true else none
          else some false
  | _ => some false

/-- A value that may be absent. -/
def option? {α : Type} (decode? : Node → Option α) (node : Node) : Option (Option α) :=
  node.isAbsent?.bind fun isAbsent =>
    if isAbsent then some none else (decode? node).map some

/-- The items of a sequence; a blank node has none. -/
def items? : Node → Option (List Node)
  | .sequence _ items => some items
  | node => if node.isBlank then some [] else none

/-- A list of values. -/
def list? {α : Type} (decode? : Node → Option α) (node : Node) : Option (List α) :=
  node.items?.bind fun items => items.mapM decode?

/-- The entries of a mapping whose keys are scalars. -/
def entries? : Node → Option (List (String × Node))
  | .mapping _ entries =>
      entries.mapM fun (key, value) => key.text?.map fun key => (key, value)
  | node => if node.isBlank then some [] else none

/-- A variant without content: its name, or the name as a tag of nothing. -/
def variant? : Node → Option String
  | .scalar tag style text =>
      match tag.bind Tag.ownName? with
      | none => some text
      | some name =>
          if style = .plain && (text.isEmpty || isNullWord text) then some name else none
  | _ => none

end Node

/-- A field that is there once or not at all. -/
def field? {α : Type} (name : String) (fields : List (String × α)) : Option (Option α) :=
  match fields.filter fun field => field.1 == name with
  | [] => some none
  | [(_, value)] => some (some value)
  | _ => none

/-- A field that is there once. -/
def requiredField? {α : Type} (name : String) (fields : List (String × α)) : Option α :=
  (field? name fields).bind id

/-- Decode a field that may be left out. -/
def decodeField? {α β : Type} (default : β) (decode? : α → Option β) (name : String)
    (fields : List (String × α)) : Option β :=
  (field? name fields).bind fun value => value.elim (some default) decode?

namespace Value

/-- A word. -/
def word? : Value → Option UInt64
  | natural value => some value
  | negated value => if value = 0 then some 0 else none
  | _ => none

/-- A half word. -/
def halfWord? (value : Value) : Option UInt32 :=
  value.word?.bind fun word => Number.halfWord? word.toNat

/-- A truth value. -/
def bool? : Value → Option Bool
  | bool value => some value
  | _ => none

/-- A text. -/
def text? : Value → Option String
  | text value => some value
  | _ => none

/-- A value that may be null. -/
def option? {α : Type} (decode? : Value → Option α) : Value → Option (Option α)
  | null => some none
  | value => (decode? value).map some

/-- A list of values. -/
def list? {α : Type} (decode? : Value → Option α) : Value → Option (List α)
  | sequence items => items.mapM decode?
  | _ => none

/-- A cell of a row.  An integer beyond the signed words is a double. -/
def scalar? : Value → Option Scalar
  | null => some .null
  | bool value => some (.bool value)
  | natural value =>
      some <| match Number.signedWord? value.toNat with
        | some integer => .int integer
        | none => .float (Binary64.ofInt value.toNat)
  | negated value => some (.int value)
  | real value => some (.float value)
  | text value => some (.text value)
  | _ => none

/-- One of some names, given as it is or by its place among them. -/
def choice? (names : List String) : Value → Option String
  | text name => if name ∈ names then some name else none
  | natural place => names[place.toNat]?
  | _ => none

/-- One of some names, given as it is or as the key of nothing. -/
def bareChoice? (names : List String) : Value → Option String
  | text name => choice? names (text name)
  | mapping [(key, null)] => choice? names key
  | mapping [(key, mapping [])] => choice? names key
  | _ => none

/-- The name of a field, given as it is or by its place; places beyond the fields
name none of them. -/
def fieldName? (names : List String) : Value → Option String
  | text name => some name
  | natural place => some ((names[place.toNat]?).getD "")
  | _ => none

/-- The fields of a record, given under their names. -/
def namedFields? (names : List String) (entries : List (Value × Value)) :
    Option (List (String × Value)) :=
  entries.mapM fun (key, value) => (fieldName? names key).map (·, value)

/-- The fields of a record, given in their order. -/
def orderedFields? (names : List String) (values : List Value) :
    Option (List (String × Value)) :=
  if names.length < values.length then none else some (names.zip values)

end Value

end Yaml

end BatchFlow
