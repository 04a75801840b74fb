import BatchFlow.Text.Printable

/-!
# Text as shown in messages

A text is quoted so that every character can be told from its neighbours:
quotes, backslashes and the common controls have short escapes, and characters
that have no glyph, or that would join the one before them, are given by their
code point.  Lists are shown in square brackets.
-/

namespace BatchFlow

namespace Text

/-- A character inside a quoted text. -/
def quotedChar (character : Char) : List Char :=
  if character = '"' then ['\\', '"']
  else if character = '\\' then ['\\', '\\']
  else if character = '\n' then ['\\', 'n']
  else if character = '\r' then ['\\', 'r']
  else if character = '\t' then ['\\', 't']
  else if character.toNat = 0 then ['\\', '0']
  else if extendsGrapheme character || !isPrintable character then
    ['\\', 'u', '{'] ++ Nat.toDigits 16 character.toNat ++ ['}']
  else [character]

/-- A text in quotes. -/
def quoted (text : String) : String :=
  String.ofList ('"' :: text.toList.flatMap quotedChar ++ ['"'])

/-- Texts between brackets, separated by commas. -/
def bracketed (items : List String) : String :=
  "[" ++ String.intercalate ", " items ++ "]"

end Text

end BatchFlow
