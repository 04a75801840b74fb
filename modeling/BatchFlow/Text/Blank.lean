/-!
# Blank characters

The white space of the Unicode standard, and trimming it from the ends of a
text.
-/

namespace BatchFlow

namespace Text

/-- Whether a character is white space. -/
def isBlank (character : Char) : Bool :=
  let code := character.toNat
  (9 ≤ code && code ≤ 13) || code == 0x20 || code == 0x85 || code == 0xa0
    || code == 0x1680 || (0x2000 ≤ code && code ≤ 0x200a) || code == 0x2028
    || code == 0x2029 || code == 0x202f || code == 0x205f || code == 0x3000

/-- Characters without white space at either end. -/
def trimChars (characters : List Char) : List Char :=
  ((characters.dropWhile isBlank).reverse.dropWhile isBlank).reverse

/-- A text without white space at either end. -/
def trim (text : String) : String :=
  String.ofList (trimChars text.toList)

end Text

end BatchFlow
