import BatchFlow.Number.Decimal
import BatchFlow.Text.Quoted
import BatchFlow.Yaml.Node
import BatchFlow.Yaml.Numeral

/-!
# Values of nodes

The value of a node follows from the node alone.  A scalar that is not plain is
a text; a tag of the core schema asks for a kind of value, and the name of a tag
of the document's own is kept.
-/

namespace BatchFlow

namespace Yaml

/-- The value of a node. -/
inductive Value where
  | null
  | bool (value : Bool)
  | natural (value : UInt64)
  /-- An integer with a minus sign. -/
  | negated (value : Int64)
  | real (value : Binary64)
  | text (value : String)
  | sequence (items : List Value)
  | mapping (entries : List (Value × Value))
  | tagged (tag : String) (value : Value)
deriving Inhabited

namespace Value

/-- The value of what a plain scalar says. -/
def ofPlain? : PlainValue → Option Value
  | .null => some null
  | .bool value => some (bool value)
  | .natural value => some (natural value)
  | .negated value => some (negated value)
  | .real value => some (real value)
  | .text value => some (text value)
  | .oversized => none

/-- The value of a scalar, but for a tag of the document's own. -/
def ofScalar? (tag : Option Tag) (style : ScalarStyle) (content : String) :
    Option Value :=
  let untagged :=
    if style = .plain then ofPlain? (.ofText content) else some (text content)
  match tag with
  | none => untagged
  | some tag =>
      if tag = Tag.bool then (boolWord? content).map bool
      else if tag = Tag.integer then
        (PlainValue.integer? content.toList).bind ofPlain?
      else if tag = Tag.real then (Numeral.real? content.toList).map real
      else if tag = Tag.null then if isNullWord content then some null else none
      else if tag.isOwn then untagged
      else some (text content)

/-- Put the tag of a document's own on a value. -/
def withTag (tag : Option Tag) (value : Value) : Value :=
  (tag.bind Tag.ownName?).elim value fun name => tagged (Tag.displayName name) value

mutual

/-- The value of a node that is nested at most `room` deep. -/
def ofNode? (room : Nat) : Node → Option Value
  | .scalar tag style content => (ofScalar? tag style content).map (withTag tag)
  | .sequence tag items =>
      match room with
      | 0 => none
      | room + 1 => (ofItems? room items).map fun items => withTag tag (sequence items)
  | .mapping tag entries =>
      match room with
      | 0 => none
      | room + 1 =>
          (ofEntries? room entries).map fun entries => withTag tag (mapping entries)
  | .endless => none

/-- The values of items. -/
def ofItems? (room : Nat) : List Node → Option (List Value)
  | [] => some []
  | item :: items =>
      (ofNode? room item).bind fun item =>
        (ofItems? room items).map fun items => item :: items

/-- The values of entries. -/
def ofEntries? (room : Nat) : List (Node × Node) → Option (List (Value × Value))
  | [] => some []
  | (key, value) :: entries =>
      (ofNode? room key).bind fun key =>
        (ofNode? room value).bind fun value =>
          (ofEntries? room entries).map fun entries => (key, value) :: entries

end

mutual

/-- Whether there is a tag of the document's own in a value. -/
def hasTag : Value → Bool
  | sequence items => hasTagInItems items
  | mapping entries => hasTagInEntries entries
  | tagged _ _ => true
  | _ => false

/-- Whether there is a tag in items. -/
def hasTagInItems : List Value → Bool
  | [] => false
  | item :: items => hasTag item || hasTagInItems items

/-- Whether there is a tag in entries. -/
def hasTagInEntries : List (Value × Value) → Bool
  | [] => false
  | (key, value) :: entries => hasTag key || hasTag value || hasTagInEntries entries

end

mutual

/-- Whether two values are the same as keys.  Zeros are the same whatever their
sign, and all values that are no numbers are; a number with a point differs from
one without.  The order of the entries of a mapping does not matter. -/
def isSameKey : Value → Value → Bool
  | null, null => true
  | bool first, bool second => first == second
  | natural first, natural second => first == second
  | negated first, negated second => first == second
  | natural first, negated second => first == 0 && second == 0
  | negated first, natural second => first == 0 && second == 0
  | real first, real second =>
      (first.isNaN && second.isNaN) || first == second || (first.isZero && second.isZero)
  | text first, text second => first == second
  | sequence first, sequence second => areSameItems first second
  | mapping first, mapping second =>
      first.length == second.length && areEntriesOf second first
  | tagged firstTag first, tagged secondTag second =>
      firstTag == secondTag && isSameKey first second
  | _, _ => false

/-- Whether items are the same one by one. -/
def areSameItems : List Value → List Value → Bool
  | [], [] => true
  | first :: firsts, second :: seconds =>
      isSameKey first second && areSameItems firsts seconds
  | _, _ => false

/-- Whether all entries are also among others. -/
def areEntriesOf (others : List (Value × Value)) : List (Value × Value) → Bool
  | [] => true
  | (key, value) :: entries =>
      (others.any fun other => isSameKey key other.1 && isSameKey value other.2)
        && areEntriesOf others entries

end

mutual

/-- Whether a mapping in a value has a key twice. -/
def hasDuplicateKey : Value → Bool
  | sequence items => hasDuplicateKeyInItems items
  | mapping entries => hasDuplicateKeyInEntries entries
  | tagged _ value => hasDuplicateKey value
  | _ => false

/-- Whether a mapping in items has a key twice. -/
def hasDuplicateKeyInItems : List Value → Bool
  | [] => false
  | item :: items => hasDuplicateKey item || hasDuplicateKeyInItems items

/-- Whether a key of the entries is there twice, or a mapping in them has a key
twice. -/
def hasDuplicateKeyInEntries : List (Value × Value) → Bool
  | [] => false
  | (key, value) :: entries =>
      (entries.any fun entry => isSameKey key entry.1) || hasDuplicateKey key
        || hasDuplicateKey value || hasDuplicateKeyInEntries entries

end

/-- The text of a number in configurations and messages. -/
def numberText? : Value → Option String
  | natural value => some (toString value.toNat)
  | negated value => some (toString value.toInt)
  | real value => some (DecimalStyle.property.text value)
  | _ => none

/-- Texts between braces, separated by commas. -/
def braced (entries : List String) : String :=
  "\x7b" ++ String.intercalate ", " entries ++ "\x7d"

mutual

/-- The text of a value in messages. -/
def describe : Value → String
  | null => "Null"
  | bool value => "Bool(" ++ toString value ++ ")"
  | natural value => "Number(" ++ toString value.toNat ++ ")"
  | negated value => "Number(" ++ toString value.toInt ++ ")"
  | real value => "Number(" ++ DecimalStyle.property.text value ++ ")"
  | text value => "String(" ++ Text.quoted value ++ ")"
  | sequence items => "Sequence " ++ Text.bracketed (describeItems items)
  | mapping entries => "Mapping " ++ braced (describeEntries entries)
  | tagged tag value =>
      "TaggedValue \x7b tag: !" ++ tag ++ ", value: " ++ describe value ++ " \x7d"

/-- The texts of items. -/
def describeItems : List Value → List String
  | [] => []
  | item :: items => describe item :: describeItems items

/-- The texts of entries.  A truth value, number or text is given as it is when it
is a key. -/
def describeEntries : List (Value × Value) → List String
  | [] => []
  | (key, value) :: entries =>
      let keyText := match key with
        | bool value => toString value
        | text value => Text.quoted value
        | key => (numberText? key).getD (describe key)
      (keyText ++ ": " ++ describe value) :: describeEntries entries

end

/-- The text of a truth value, number or text as a setting. -/
def settingText? : Value → Option String
  | bool value => some (toString value)
  | text value => some value
  | value => numberText? value

end Value

end Yaml

end BatchFlow
