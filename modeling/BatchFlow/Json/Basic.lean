import BatchFlow.Number.Decimal

/-!
# JSON values and their text

A JSON value keeps the entries of an object in the order they were written or
read.  Compact text has no blanks; indented text puts every element and every
entry on a line of its own.
-/

namespace BatchFlow

/-- The name of an entry of an object.  A plain name is written as it is; of an
escaped one some characters are given by their codes, and if they include half a
surrogate pair, it has no text. -/
inductive Json.Name where
  | plain (text : String)
  | escaped (text : Option String)
deriving DecidableEq

namespace Json.Name

instance : Coe String Name :=
  ⟨plain⟩

/-- The text of a name, if it has one. -/
def text? : Name → Option String
  | plain text => some text
  | escaped text => text

/-- The text of a name; without one it is empty. -/
def text (name : Name) : String :=
  name.text?.getD ""

end Json.Name

/-- A JSON value.  `unreadable` stands for a literal that is well formed but has
no value: a number beyond every double, or a text with half a surrogate pair. -/
inductive Json where
  | null
  | bool (value : Bool)
  | integer (value : Int)
  | real (value : Binary64)
  | string (value : String)
  | array (elements : List Json)
  | object (entries : List (Json.Name × Json))
  | unreadable
deriving Inhabited

namespace Json

/-- A word as a JSON number. -/
def word (value : UInt64) : Json :=
  .integer value.toNat

/-- A half word as a JSON number. -/
def halfWord (value : UInt32) : Json :=
  .integer value.toNat

/-- An object of one entry. -/
def single (name : String) (value : Json) : Json :=
  .object [(.plain name, value)]

/-- A value that may be absent; absence is null. -/
def optional {α : Type} (encode : α → Json) (value : Option α) : Json :=
  value.elim .null encode

mutual

/-- How deeply arrays and objects are nested. -/
def depth : Json → Nat
  | array elements => depthOfList elements + 1
  | object entries => depthOfEntries entries + 1
  | _ => 0

/-- The greatest depth of the elements. -/
def depthOfList : List Json → Nat
  | [] => 0
  | element :: rest => max (depth element) (depthOfList rest)

/-- The greatest depth of the entries. -/
def depthOfEntries : List (Name × Json) → Nat
  | [] => 0
  | (_, value) :: rest => max (depth value) (depthOfEntries rest)

end

/-- Four hexadecimal digits. -/
def hexQuad (code : Nat) : List Char :=
  [Nat.digitChar (code / 4096 % 16), Nat.digitChar (code / 256 % 16),
    Nat.digitChar (code / 16 % 16), Nat.digitChar (code % 16)]

/-- A character inside a JSON text.  Quotes, backslashes and controls are
escaped, everything else stands for itself. -/
def escapedChar (character : Char) : List Char :=
  if character = '"' then ['\\', '"']
  else if character = '\\' then ['\\', '\\']
  else if character.toNat = 8 then ['\\', 'b']
  else if character.toNat = 12 then ['\\', 'f']
  else if character = '\n' then ['\\', 'n']
  else if character = '\r' then ['\\', 'r']
  else if character = '\t' then ['\\', 't']
  else if character.toNat < 32 then ['\\', 'u'] ++ hexQuad character.toNat
  else [character]

/-- A text in JSON quotes. -/
def quote (text : String) : List Char :=
  '"' :: text.toList.flatMap escapedChar ++ ['"']

/-- The characters of an integer. -/
def integerChars (value : Int) : List Char :=
  if value < 0 then '-' :: Nat.toDigits 10 value.natAbs
  else Nat.toDigits 10 value.natAbs

mutual

/-- The characters of a value, without blanks. -/
def chars : Json → List Char
  | null => "null".toList
  | bool value => (if value then "true" else "false").toList
  | integer value => integerChars value
  | real value => (DecimalStyle.json.text value).toList
  | string value => quote value
  | array elements => '[' :: elementChars elements
  | object entries => '{' :: entryChars entries
  | unreadable => "null".toList

/-- The characters of the elements of an array and of its closing bracket. -/
def elementChars : List Json → List Char
  | [] => [']']
  | [last] => chars last ++ [']']
  | element :: next :: rest => chars element ++ ',' :: elementChars (next :: rest)

/-- The characters of the entries of an object and of its closing brace. -/
def entryChars : List (Name × Json) → List Char
  | [] => ['}']
  | [(name, value)] => quote name.text ++ ':' :: chars value ++ ['}']
  | (name, value) :: next :: rest =>
      quote name.text ++ ':' :: chars value ++ ',' :: entryChars (next :: rest)

end

/-- The compact text of a value. -/
def text (value : Json) : String :=
  String.ofList value.chars

/-- A line break and an indentation of two blanks a level. -/
def lineBreak (level : Nat) : List Char :=
  '\n' :: List.replicate (2 * level) ' '

mutual

/-- The characters of a value on lines indented from `level`. -/
def indentedChars (level : Nat) : Json → List Char
  | array [] => ['[', ']']
  | array elements => '[' :: indentedElements level elements
  | object [] => ['{', '}']
  | object entries => '{' :: indentedEntries level entries
  | value => chars value

/-- The lines of the elements of an array and of its closing bracket. -/
def indentedElements (level : Nat) : List Json → List Char
  | [] => lineBreak level ++ [']']
  | [last] =>
      lineBreak (level + 1) ++ indentedChars (level + 1) last ++ lineBreak level ++ [']']
  | element :: next :: rest =>
      lineBreak (level + 1) ++ indentedChars (level + 1) element
        ++ ',' :: indentedElements level (next :: rest)

/-- The lines of the entries of an object and of its closing brace. -/
def indentedEntries (level : Nat) : List (Name × Json) → List Char
  | [] => lineBreak level ++ ['}']
  | [(name, value)] =>
      lineBreak (level + 1) ++ quote name.text ++ [':', ' ']
        ++ indentedChars (level + 1) value ++ lineBreak level ++ ['}']
  | (name, value) :: next :: rest =>
      lineBreak (level + 1) ++ quote name.text ++ [':', ' ']
        ++ indentedChars (level + 1) value ++ ',' :: indentedEntries level (next :: rest)

end

/-- The indented text of a value. -/
def indentedText (value : Json) : String :=
  String.ofList (value.indentedChars 0)

end Json

end BatchFlow
