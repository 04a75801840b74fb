/-!
# The characters of a stream

A stream is read as a list of characters that know where they stand.  All ends
of lines are line feeds here, except for the line and paragraph separators,
which are kept.
-/

namespace BatchFlow

namespace Yaml

/-- Whether a character may occur in a stream. -/
def isAllowed (character : Char) : Bool :=
  let code := character.toNat
  code == 9 || code == 10 || code == 13 || (0x20 ≤ code && code ≤ 0x7e) || code == 0x85
    || (0xa0 ≤ code && code ≤ 0xfffd) || 0x10000 ≤ code

/-- Whether a character ends a line. -/
def isBreak (character : Char) : Bool :=
  character = '\n' || character.toNat == 0x2028 || character.toNat == 0x2029

/-- Whether a character separates words within a line. -/
def isBlank (character : Char) : Bool :=
  character = ' ' || character = '\t'

/-- Whether a character separates words. -/
def isGap (character : Char) : Bool :=
  isBlank character || isBreak character

/-- Whether a character marks the byte order of the text after it. -/
def isByteOrderMark (character : Char) : Bool :=
  character.toNat == 0xfeff

/-- Whether a character may be part of a name. -/
def isNameChar (character : Char) : Bool :=
  character.isAlphanum || character = '-' || character = '_'

/-- A character and where it stands. -/
structure Placed where
  character : Char
  /-- How many bytes of the stream come before it. -/
  offset : Nat
  line : Nat
  column : Nat

/-- What is left of a stream. -/
abbrev Source :=
  List Placed

namespace Source

/-- Give characters their places, and line feeds for ends of lines. -/
def place (offset line column : Nat) : List Char → Source
  | [] => []
  | '\r' :: '\n' :: rest =>
      ⟨'\n', offset, line, column⟩ :: place (offset + 2) (line + 1) 0 rest
  | character :: rest =>
      let next := offset + character.utf8Size
      if character = '\r' || character.toNat == 0x85 then
        ⟨'\n', offset, line, column⟩ :: place next (line + 1) 0 rest
      else if isBreak character then
        ⟨character, offset, line, column⟩ :: place next (line + 1) 0 rest
      else
        ⟨character, offset, line, column⟩ :: place next line (column + 1) rest

/-- The characters of a text.  A text with a character that may not occur has
none. -/
def ofText? (text : String) : Option Source :=
  let characters := text.toList
  if characters.all isAllowed then some (place 0 0 0 characters) else none

/-- The characters without their places. -/
def characters (source : Source) : List Char :=
  source.map Placed.character

/-- Whether the next character is the given one. -/
def startsWith (source : Source) (character : Char) : Bool :=
  source.head?.any fun next => next.character == character

/-- Whether a word ends here: at a blank, at the end of a line or of the stream. -/
def endsWord (source : Source) : Bool :=
  source.head?.all fun next => isGap next.character

/-- Whether a line ends here. -/
def endsLine (source : Source) : Bool :=
  source.head?.all fun next => isBreak next.character

/-- Whether three dashes or three dots stand here as a word of their own at the
beginning of a line. -/
def isDocumentMark (mark : Char) (source : Source) : Bool :=
  source.head?.any (fun next => next.column == 0)
    && characters (source.take 3) == [mark, mark, mark] && endsWord (source.drop 3)

/-- Whether a document begins or ends here. -/
def isDocumentBoundary (source : Source) : Bool :=
  source.isDocumentMark '-' || source.isDocumentMark '.'

/-- What is left after blanks. -/
def skipBlanks (source : Source) : Source :=
  source.dropWhile fun next => isBlank next.character

/-- What is left of the stream where the line ends. -/
def skipLine (source : Source) : Source :=
  source.dropWhile fun next => !isBreak next.character

/-- The rest of a line that may hold only blanks and a comment, and the break
that ends it. -/
def skipEmptyLine? (source : Source) : Option Source :=
  let source := source.skipBlanks
  let source := if source.startsWith '#' then source.skipLine else source
  if source.endsLine then some source.tail else none

theorem length_dropWhile_le (test : Placed → Bool) (source : Source) :
    (source.dropWhile test).length ≤ source.length :=
  (List.dropWhile_sublist test).length_le

end Source

/-- The text of blanks and line breaks between two words.  Blanks within a line
are kept, one line break is a space, and of several the first is dropped;
separators are always kept. -/
def foldGap (gap : List Char) : List Char :=
  match gap.filter isBreak with
  | [] => gap
  | ['\n'] => [' ']
  | '\n' :: others => others
  | breaks => breaks

end Yaml

end BatchFlow
