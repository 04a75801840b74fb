import BatchFlow.Json.Numeral
import BatchFlow.Text.Hexadecimal

/-!
# Reading JSON text

A reader takes characters from the front of a list and returns what is left.
Blanks are spaces, tabs and line breaks.  The text of one value, with blanks
around it, is a document.
-/

namespace BatchFlow

namespace Json

/-- Whether a character may stand between tokens. -/
def isBlank (character : Char) : Bool :=
  character = ' ' || character = '\n' || character = '\t' || character = '\r'

/-- The characters after leading blanks. -/
def skipBlanks (characters : List Char) : List Char :=
  characters.dropWhile isBlank

/-- The character of a short escape. -/
def shortEscape? (character : Char) : Option Char :=
  match character with
  | '"' => some '"'
  | '\\' => some '\\'
  | '/' => some '/'
  | 'b' => some (Char.ofNat 8)
  | 'f' => some (Char.ofNat 12)
  | 'n' => some '\n'
  | 'r' => some '\r'
  | 't' => some '\t'
  | _ => none

/-- Whether a code unit is the first half of a surrogate pair. -/
def isHighSurrogate (unit : Nat) : Bool :=
  0xd800 ≤ unit && unit ≤ 0xdbff

/-- Whether a code unit is the second half of a surrogate pair. -/
def isLowSurrogate (unit : Nat) : Bool :=
  0xdc00 ≤ unit && unit ≤ 0xdfff

/-- A part of a text as written: a character, or a code unit given by its number. -/
inductive TextPart where
  | character (value : Char)
  | unit (code : Nat)

/-- Read the parts of a text up to its closing quote. -/
def readParts? : List Char → Option (List TextPart × List Char)
  | '"' :: rest => some ([], rest)
  | '\\' :: 'u' :: first :: second :: third :: fourth :: rest =>
      match Text.hexNumber? [first, second, third, fourth] with
      | none => none
      | some code => (readParts? rest).map fun (parts, rest) => (.unit code :: parts, rest)
  | '\\' :: character :: rest =>
      match shortEscape? character with
      | none => none
      | some character =>
          (readParts? rest).map fun (parts, rest) => (.character character :: parts, rest)
  | character :: rest =>
      if character.toNat < 32 then none
      else (readParts? rest).map fun (parts, rest) => (.character character :: parts, rest)
  | [] => none

/-- The characters of a text.  Two halves of a surrogate pair make one character;
a half alone makes none. -/
def joinParts? : List TextPart → Option (List Char)
  | [] => some []
  | .character value :: rest => (joinParts? rest).map (value :: ·)
  | .unit high :: .unit low :: rest =>
      if isHighSurrogate high then
        if isLowSurrogate low then
          (joinParts? rest).map
            (Char.ofNat (0x10000 + (high - 0xd800) * 0x400 + (low - 0xdc00)) :: ·)
        else none
      else if isLowSurrogate high then none
      else (joinParts? (.unit low :: rest)).map (Char.ofNat high :: ·)
  | .unit code :: rest =>
      if isHighSurrogate code || isLowSurrogate code then none
      else (joinParts? rest).map (Char.ofNat code :: ·)

/-- Whether a character is given by its code. -/
def TextPart.isUnit : TextPart → Bool
  | character _ => false
  | unit _ => true

/-- The name that is written with some parts. -/
def Name.ofParts (parts : List TextPart) : Name :=
  match (joinParts? parts).map String.ofList with
  | some text => if parts.any TextPart.isUnit then escaped (some text) else plain text
  | none => escaped none

/-- Take a literal word from the front. -/
def readWord? (word : List Char) (value : Json) (characters : List Char) :
    Option (Json × List Char) :=
  if word.isPrefixOf characters then some (value, characters.drop word.length) else none

mutual

/-- Read a value.  The fuel bounds how many values and separators are read. -/
def readValue? : (fuel : Nat) → List Char → Option (Json × List Char)
  | 0, _ => none
  | fuel + 1, characters =>
      match skipBlanks characters with
      | '{' :: rest =>
          match skipBlanks rest with
          | '}' :: rest => some (.object [], rest)
          | rest => (readEntries? fuel rest).map fun (entries, rest) => (.object entries, rest)
      | '[' :: rest =>
          match skipBlanks rest with
          | ']' :: rest => some (.array [], rest)
          | rest =>
              (readElements? fuel rest).map fun (elements, rest) => (.array elements, rest)
      | '"' :: rest =>
          (readParts? rest).map fun (parts, rest) =>
            ((joinParts? parts).elim .unreadable fun text => .string (String.ofList text),
              rest)
      | 'n' :: rest => readWord? ['u', 'l', 'l'] .null rest
      | 't' :: rest => readWord? ['r', 'u', 'e'] (.bool true) rest
      | 'f' :: rest => readWord? ['a', 'l', 's', 'e'] (.bool false) rest
      | characters =>
          (Numeral.read? characters).map fun (numeral, rest) => (numeral.value, rest)

/-- Read the elements of an array up to its closing bracket. -/
def readElements? : (fuel : Nat) → List Char → Option (List Json × List Char)
  | 0, _ => none
  | fuel + 1, characters =>
      match readValue? fuel characters with
      | none => none
      | some (element, rest) =>
          match skipBlanks rest with
          | ',' :: rest =>
              (readElements? fuel rest).map fun (elements, rest) =>
                (element :: elements, rest)
          | ']' :: rest => some ([element], rest)
          | _ => none

/-- Read the entries of an object up to its closing brace. -/
def readEntries? : (fuel : Nat) → List Char → Option (List (Name × Json) × List Char)
  | 0, _ => none
  | fuel + 1, characters =>
      match skipBlanks characters with
      | '"' :: rest =>
          match readParts? rest with
          | none => none
          | some (parts, rest) =>
              match skipBlanks rest with
              | ':' :: rest =>
                  match readValue? fuel rest with
                  | none => none
                  | some (value, rest) =>
                      let entry := (Name.ofParts parts, value)
                      match skipBlanks rest with
                      | ',' :: rest =>
                          (readEntries? fuel rest).map fun (entries, rest) =>
                            (entry :: entries, rest)
                      | '}' :: rest => some ([entry], rest)
                      | _ => none
              | _ => none
      | _ => none

end

/-- Read a document of one value. -/
def read? (text : String) : Option Json :=
  let characters := text.toList
  match readValue? (2 * characters.length + 2) characters with
  | some (value, rest) => if (skipBlanks rest).isEmpty then some value else none
  | none => none

end Json

end BatchFlow
