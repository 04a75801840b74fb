import BatchFlow.Text.Hexadecimal
import BatchFlow.Yaml.Source

/-!
# Quoted scalars

Within single quotes only the quote itself is written specially, as two quotes.
Within double quotes a backslash begins an escape, and one at the end of a line
joins the line with the next.
-/

namespace BatchFlow

namespace Yaml

namespace QuotedText

/-- The character of a short escape. -/
def shortEscape? (character : Char) : Option Char :=
  match character with
  | '0' => some (Char.ofNat 0)
  | 'a' => some (Char.ofNat 7)
  | 'b' => some (Char.ofNat 8)
  | 't' | '\t' => some '\t'
  | 'n' => some '\n'
  | 'v' => some (Char.ofNat 11)
  | 'f' => some (Char.ofNat 12)
  | 'r' => some '\r'
  | 'e' => some (Char.ofNat 27)
  | ' ' => some ' '
  | '"' => some '"'
  | '/' => some '/'
  | '\\' => some '\\'
  | 'N' => some (Char.ofNat 0x85)
  | '_' => some (Char.ofNat 0xa0)
  | 'L' => some (Char.ofNat 0x2028)
  | 'P' => some (Char.ofNat 0x2029)
  | _ => none

/-- The number of digits that an escape by code point has. -/
def digitCount? (character : Char) : Option Nat :=
  match character with
  | 'x' => some 2
  | 'u' => some 4
  | 'U' => some 8
  | _ => none

/-- The character that the digits of an escape name. -/
def charOfDigits? (count : Nat) (digits : List Char) : Option Char :=
  if digits.length = count then
    (Text.hexNumber? digits).bind fun code =>
      if code.isValidChar then some (Char.ofNat code) else none
  else none

/-- The character of an escape after its backslash, and the number of characters
that write it. -/
def escape? (source : Source) : Option (Char × Nat) :=
  match source with
  | [] => none
  | next :: rest =>
      match digitCount? next.character with
      | some count =>
          (charOfDigits? count (Source.characters (rest.take count))).map (·, count + 1)
      | none => (shortEscape? next.character).map (·, 1)

/-- The quote of a style. -/
def quote (double : Bool) : Char :=
  if double then '"' else '\''

/-- Read a quoted scalar after its opening quote, up to and with the closing one. -/
def read? (double : Bool) (source : Source) : Option (List Char × Source) :=
  match source with
  | [] => none
  | next :: rest =>
      if source.isDocumentBoundary then none
      else if !double && next.character = '\'' && Source.startsWith rest '\'' then
        (read? double (rest.drop 1)).map fun (text, rest) => ('\'' :: text, rest)
      else if next.character = quote double then some ([], rest)
      else if double && next.character = '\\' then
        if rest.head?.any fun second => isBreak second.character then
          let gap := (rest.drop 1).takeWhile fun next => isGap next.character
          let after := (rest.drop 1).dropWhile fun next => isGap next.character
          (read? double after).map fun (text, rest) =>
            ((Source.characters gap).filter isBreak ++ text, rest)
        else
          match escape? rest with
          | none => none
          | some (character, count) =>
              (read? double (rest.drop count)).map fun (text, rest) =>
                (character :: text, rest)
      else if isGap next.character then
        let gap := next :: rest.takeWhile fun next => isGap next.character
        let after := rest.dropWhile fun next => isGap next.character
        (read? double after).map fun (text, rest) => (foldGap (Source.characters gap) ++ text, rest)
      else (read? double rest).map fun (text, rest) => (next.character :: text, rest)
termination_by source.length
decreasing_by
  · simp only [List.length_drop, List.length_cons]; omega
  · have := Source.length_dropWhile_le (fun next => isGap next.character) (rest.drop 1)
    simp only [List.length_drop, List.length_cons] at *; omega
  · simp only [List.length_drop, List.length_cons]; omega
  · exact Nat.lt_succ_of_le (Source.length_dropWhile_le ..)
  · exact Nat.lt_succ_self _

end QuotedText

end Yaml

end BatchFlow
