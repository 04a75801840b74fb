import BatchFlow.Text.Hexadecimal
import BatchFlow.Yaml.PlainText
import BatchFlow.Yaml.Token

/-!
# Anchors, tags and directives
-/

namespace BatchFlow

namespace Yaml

/-- Take a name from the front. -/
def takeName (source : Source) : List Char × Source :=
  (Source.characters (source.takeWhile fun next => isNameChar next.character),
    source.dropWhile fun next => isNameChar next.character)

/-- Whether the name of an anchor may end here. -/
def endsAnchor (source : Source) : Bool :=
  source.endsWord || source.head?.any fun next =>
    next.character ∈ ['?', ':', ',', ']', '}', '%', '@', '`']

/-- Read the name of an anchor. -/
def readAnchor? (source : Source) : Option (String × Source) :=
  let (name, rest) := takeName source
  if name.isEmpty || !endsAnchor rest then none else some (String.ofList name, rest)

namespace TagText

/-- Whether a character stands for itself in a tag; brackets and commas do only
between angle brackets. -/
def isUriChar (verbatim : Bool) (character : Char) : Bool :=
  isNameChar character
    || character ∈ [';', '/', '?', ':', '@', '&', '=', '+', '$', '.', '!', '~', '*', '\'',
      '(', ')']
    || (verbatim && character ∈ [',', '[', ']'])

/-- The number of bytes of a character, told by the first. -/
def byteCount? (first : UInt8) : Option Nat :=
  if first < 0x80 then some 1
  else if 0xc0 ≤ first && first < 0xe0 then some 2
  else if 0xe0 ≤ first && first < 0xf0 then some 3
  else if 0xf0 ≤ first && first < 0xf8 then some 4
  else none

/-- The byte that a percent sign and two digits write. -/
def percentByte? (source : Source) : Option UInt8 :=
  match Source.characters (source.take 3) with
  | ['%', high, low] => (Text.hexNumber? [high, low]).map UInt8.ofNat
  | _ => none

/-- Whether a byte continues a character. -/
def continues (byte : UInt8) : Bool :=
  0x80 ≤ byte && byte < 0xc0

/-- The character at the front that is written as bytes, and the number of those.
The first byte tells how many there are and the others must continue it, but they
need not make a character. -/
def percentChar? (source : Source) : Option (Option Char × Nat) := do
  let count ← byteCount? (← percentByte? source)
  let bytes ← (List.range count).mapM fun index => percentByte? (source.drop (3 * index))
  if bytes.tail.all continues then
    some ((String.fromUTF8? ⟨bytes.toArray⟩).bind fun text => text.toList.head?, count)
  else none

/-- Read the characters of a tag up to one that cannot be part of it. -/
def readUri? (verbatim : Bool) (source : Source) :
    Option (List (Option Char) × Source) :=
  match source with
  | [] => some ([], [])
  | next :: rest =>
      if next.character = '%' then
        match percentChar? source with
        | none => none
        | some (character, count) =>
            (readUri? verbatim (rest.drop (3 * count - 1))).map fun (uri, rest) =>
              (character :: uri, rest)
      else if isUriChar verbatim next.character then
        (readUri? verbatim rest).map fun (uri, rest) => (some next.character :: uri, rest)
      else some ([], source)
termination_by source.length
decreasing_by
  · simp only [List.length_drop, List.length_cons]; omega
  · exact Nat.lt_succ_self _

/-- Read a tag between angle brackets, after the opening one. -/
def readVerbatim? (source : Source) : Option (TagText × Source) := do
  let (uri, rest) ← readUri? true source
  if uri.isEmpty || !Source.startsWith rest '>' then none
  else some (⟨"", .ofWritten uri⟩, rest.tail)

/-- Read a tag after its exclamation mark.  What stands up to a second mark is the
name of a handle; a mark with nothing after it is a tag of its own. -/
def readShort? (source : Source) : Option (TagText × Source) := do
  let (name, rest) := takeName source
  if Source.startsWith rest '!' then
    let (uri, rest) ← readUri? false rest.tail
    if uri.isEmpty then none
    else some (⟨String.ofList ('!' :: name ++ ['!']), .ofWritten uri⟩, rest)
  else
    let (uri, rest) ← readUri? false rest
    let suffix := Tag.ofWritten (name.map some ++ uri)
    if suffix.isEmpty then some (⟨"", .ofText "!"⟩, rest)
    else some (⟨"!", suffix⟩, rest)

/-- Read a tag after its exclamation mark, up to the end of a word. -/
def read? (inFlow : Bool) (source : Source) : Option (TagText × Source) := do
  let (tag, rest) ←
    if source.startsWith '<' then readVerbatim? source.tail else readShort? source
  if Source.endsWord rest || (inFlow && Source.startsWith rest ',') then some (tag, rest)
  else none

end TagText

namespace Directive

/-- Read a number of at most nine digits. -/
def readNumber? (source : Source) : Option (Nat × Source) :=
  let digits := Source.characters (source.takeWhile fun next => next.character.isDigit)
  if digits.isEmpty || 9 < digits.length then none
  else
    some (Nat.ofDigitChars 10 digits 0, source.dropWhile fun next => next.character.isDigit)

/-- Read the version of the language, two numbers with a point between them. -/
def readVersion? (source : Source) : Option (Token × Source) := do
  let (major, rest) ← readNumber? source.skipBlanks
  if !Source.startsWith rest '.' then none
  let (minor, rest) ← readNumber? rest.tail
  return (.version major minor, rest)

/-- Read the name of a handle: an exclamation mark, or a name between two. -/
def readHandle? (source : Source) : Option (List Char × Source) :=
  if source.startsWith '!' then
    let (name, rest) := takeName source.tail
    if Source.startsWith rest '!' then some ('!' :: name ++ ['!'], rest.tail)
    else if name.isEmpty then some (['!'], rest)
    else none
  else none

/-- Read a handle and what it stands for. -/
def readTag? (source : Source) : Option (Token × Source) := do
  let (handle, rest) ← readHandle? source.skipBlanks
  if !rest.head?.any fun next => isBlank next.character then none
  let (start, rest) ← TagText.readUri? true (Source.skipBlanks rest)
  if start.isEmpty || !Source.endsWord rest then none
  return (.handle (String.ofList handle) (.ofWritten start), rest)

/-- Read a directive after its percent sign, to the end of its line. -/
def read? (source : Source) : Option (Token × Source) := do
  let (name, rest) := takeName source
  if !Source.endsWord rest then none
  let (token, rest) ←
    if name = "YAML".toList then readVersion? rest
    else if name = "TAG".toList then readTag? rest
    else none
  return (token, ← Source.skipEmptyLine? rest)

end Directive

end Yaml

end BatchFlow
