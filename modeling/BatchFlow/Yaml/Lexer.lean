import BatchFlow.Yaml.BlockText
import BatchFlow.Yaml.Property
import BatchFlow.Yaml.QuotedText

/-!
# From characters to tokens

Whether a word is a key is known only at the colon after it.  So wherever a key
of one line may begin, its place among the tokens is kept, and a colon that
follows puts the mark of a key, and if need be the start of a block, in front of
the tokens written since.  There is at most one such key for each level of
brackets.
-/

namespace BatchFlow

namespace Yaml

/-- A place where a key may have begun. -/
structure PendingKey where
  /-- Nothing but a key can stand there. -/
  required : Bool
  /-- How many tokens come before it. -/
  position : Nat
  place : Placed

namespace PendingKey

/-- Whether the key can no longer be completed: it ends on its line, within 1024
bytes. -/
def isStale (key : PendingKey) (next : Placed) : Bool :=
  key.place.line < next.line || key.place.offset + 1024 < next.offset

end PendingKey

/-- What is known of the stream up to some character. -/
structure Lexer where
  /-- The tokens so far, the last one first. -/
  tokens : List Token := []
  /-- The column of the innermost block; before any block it is -1. -/
  indent : Int := -1
  /-- The columns of the blocks around it. -/
  outerIndents : List Int := []
  /-- Whether a key may begin here. -/
  keyAllowed : Bool := true
  /-- The possible key at this level of brackets. -/
  pending : Option PendingKey := none
  /-- The possible keys at the levels around it. -/
  outerPending : List (Option PendingKey) := []

namespace Lexer

/-- Whether the stream is inside brackets here. -/
def inFlow (lexer : Lexer) : Bool :=
  !lexer.outerPending.isEmpty

/-- Add a token. -/
def emit (lexer : Lexer) (token : Token) : Lexer :=
  { lexer with tokens := token :: lexer.tokens }

/-- Add a token after the first `position` tokens. -/
def insert (lexer : Lexer) (position : Nat) (token : Token) : Lexer :=
  let (later, earlier) := lexer.tokens.splitAt (lexer.tokens.length - position)
  { lexer with tokens := later ++ token :: earlier }

/-- Allow or forbid a key. -/
def allowKey (lexer : Lexer) (allowed : Bool) : Lexer :=
  { lexer with keyAllowed := allowed }

/-- Give up the possible key at this level, which must not be required. -/
def dropKey? (lexer : Lexer) : Option Lexer :=
  if lexer.pending.any PendingKey.required then none
  else some { lexer with pending := none }

/-- Give up the possible keys that can no longer be completed. -/
def dropStaleKeys? (lexer : Lexer) (next : Placed) : Option Lexer :=
  let isStale := fun pending : Option PendingKey => pending.any fun key => key.isStale next
  let isLost := fun pending : Option PendingKey =>
    pending.any fun key => key.required && key.isStale next
  if isLost lexer.pending || lexer.outerPending.any isLost then none
  else
    let keep := fun pending => if isStale pending then none else pending
    some { lexer with
      pending := keep lexer.pending
      outerPending := lexer.outerPending.map keep }

/-- Note that a key may begin here. -/
def noteKey? (lexer : Lexer) (place : Placed) : Option Lexer :=
  if lexer.keyAllowed then
    lexer.dropKey?.map fun lexer =>
      { lexer with
        pending := some
          ⟨!lexer.inFlow && lexer.indent == place.column, lexer.tokens.length, place⟩ }
  else some lexer

/-- Close the blocks that are indented deeper than a column. -/
def closeBlocks (lexer : Lexer) (column : Int) : Lexer :=
  if lexer.inFlow then lexer
  else
    let columns := lexer.indent :: lexer.outerIndents
    let closed := columns.takeWhile fun indent => column < indent
    let kept := columns.dropWhile fun indent => column < indent
    { lexer with
      tokens := closed.map (fun _ => .blockEnd) ++ lexer.tokens
      indent := kept.headD (-1)
      outerIndents := kept.tail }

/-- Open a block at a column deeper than the innermost, in front of all but the
first `position` tokens. -/
def openBlock (lexer : Lexer) (column : Nat) (position : Nat) (token : Token) : Lexer :=
  if !lexer.inFlow && lexer.indent < column then
    { lexer.insert position token with
      indent := column
      outerIndents := lexer.indent :: lexer.outerIndents }
  else lexer

/-- Open a block for a sign that stands only where a key may begin. -/
def openBlockHere? (lexer : Lexer) (place : Placed) (token : Token) : Option Lexer :=
  if lexer.inFlow then some lexer
  else if lexer.keyAllowed then
    some (lexer.openBlock place.column lexer.tokens.length token)
  else none

/-- Skip blanks, comments and line breaks; a new line may begin with a key unless
it is inside brackets, and a mark of the byte order may stand in front of it.
Tabs are blanks only where no key may begin.  Yields whether a key may begin,
and the rest. -/
def skipSpace (inFlow keyAllowed : Bool) (source : Source) : Bool × Source :=
  match source with
  | [] => (keyAllowed, [])
  | next :: rest =>
      if next.character = ' ' || (next.character = '\t' && (inFlow || !keyAllowed))
          || (next.column = 0 && isByteOrderMark next.character) then
        skipSpace inFlow keyAllowed rest
      else if next.character = '#' then skipSpace inFlow keyAllowed (Source.skipLine rest)
      else if isBreak next.character then skipSpace inFlow (keyAllowed || !inFlow) rest
      else (keyAllowed, source)
termination_by source.length
decreasing_by
  · exact Nat.lt_succ_self _
  · exact Nat.lt_succ_of_le (Source.length_dropWhile_le ..)
  · exact Nat.lt_succ_self _

/-- Add the token of a directive or of a document's boundary, which is outside
all blocks. -/
def emitOutside? (lexer : Lexer) (token : Token) : Option Lexer :=
  (lexer.closeBlocks (-1)).dropKey?.map fun lexer => (lexer.allowKey false).emit token

/-- Add the token of a word, which may be a key or the beginning of one. -/
def emitWord? (lexer : Lexer) (place : Placed) (token : Token) : Option Lexer :=
  (lexer.noteKey? place).map fun lexer => (lexer.allowKey false).emit token

/-- Open brackets. -/
def openFlow? (lexer : Lexer) (place : Placed) (token : Token) : Option Lexer :=
  (lexer.noteKey? place).map fun lexer =>
    { lexer.emit token with
      keyAllowed := true
      pending := none
      outerPending := lexer.pending :: lexer.outerPending }

/-- Close brackets. -/
def closeFlow? (lexer : Lexer) (token : Token) : Option Lexer :=
  lexer.dropKey?.map fun lexer =>
    { lexer.emit token with
      keyAllowed := false
      pending := lexer.outerPending.headD lexer.pending
      outerPending := lexer.outerPending.tail }

/-- Add a comma. -/
def emitComma? (lexer : Lexer) : Option Lexer :=
  lexer.dropKey?.map fun lexer => (lexer.allowKey true).emit .comma

/-- Add the dash of an item. -/
def emitItem? (lexer : Lexer) (place : Placed) : Option Lexer :=
  (lexer.openBlockHere? place .sequenceStart).bind fun lexer =>
    lexer.dropKey?.map fun lexer => (lexer.allowKey true).emit .item

/-- Add the question mark of a key. -/
def emitKey? (lexer : Lexer) (place : Placed) : Option Lexer :=
  (lexer.openBlockHere? place .mappingStart).bind fun lexer =>
    lexer.dropKey?.map fun lexer => (lexer.allowKey !lexer.inFlow).emit .key

/-- Add the colon of a value.  What was noted as a possible key is one now. -/
def emitValue? (lexer : Lexer) (place : Placed) : Option Lexer :=
  match lexer.pending with
  | some key =>
      let lexer := (lexer.insert key.position .key).openBlock key.place.column key.position
        .mappingStart
      some ({ lexer with pending := none, keyAllowed := false }.emit .value)
  | none =>
      (lexer.openBlockHere? place .mappingStart).map fun lexer =>
        (lexer.allowKey !lexer.inFlow).emit .value

/-- Read an anchor or a reference to one. -/
def readAnchor? (lexer : Lexer) (place : Placed) (token : String → Token) (rest : Source) :
    Option (Lexer × Source) := do
  let (name, rest) ← Yaml.readAnchor? rest
  return (← lexer.emitWord? place (token name), rest)

/-- Read a tag. -/
def readTag? (lexer : Lexer) (place : Placed) (rest : Source) :
    Option (Lexer × Source) := do
  let (tag, rest) ← TagText.read? lexer.inFlow rest
  return (← lexer.emitWord? place (.tag tag), rest)

/-- Read a quoted scalar. -/
def readQuoted? (lexer : Lexer) (place : Placed) (double : Bool) (rest : Source) :
    Option (Lexer × Source) := do
  let (text, rest) ← QuotedText.read? double rest
  return (← lexer.emitWord? place (.scalar .quoted (String.ofList text)), rest)

/-- Read a block scalar. -/
def readBlock? (lexer : Lexer) (style : ScalarStyle) (rest : Source) :
    Option (Lexer × Source) := do
  let lexer ← lexer.dropKey?
  let (text, rest) ← BlockText.read? (style == .literal) lexer.indent rest
  return ((lexer.allowKey true).emit (.scalar style (String.ofList text)), rest)

/-- Read a plain scalar. -/
def readPlain? (lexer : Lexer) (place : Placed) (source : Source) :
    Option (Lexer × Source) := do
  let plain ← PlainText.read? lexer.inFlow (lexer.indent + 1) source
  let lexer ← lexer.emitWord? place (.scalar .plain (String.ofList plain.text))
  return (lexer.allowKey plain.endsInBreak, plain.rest)

/-- Read a directive or the boundary of a document, if there is one here. -/
def readOutside? (lexer : Lexer) (place : Placed) (source : Source) :
    Option (Option (Lexer × Source)) :=
  if place.column = 0 && place.character = '%' then
    some do
      let (token, rest) ← Directive.read? source.tail
      return (← lexer.emitOutside? token, rest)
  else if source.isDocumentMark '-' then
    some ((lexer.emitOutside? .documentStart).map (·, source.drop 3))
  else if source.isDocumentMark '.' then
    some ((lexer.emitOutside? .documentEnd).map (·, source.drop 3))
  else none

/-- Read a token that begins with a character that has a meaning of its own, if
the character has one here. -/
def readIndicator? (lexer : Lexer) (place : Placed) (rest : Source) :
    Option (Option (Lexer × Source)) :=
  let take := fun result : Option Lexer => some (result.map (·, rest))
  match place.character with
  | '[' => take (lexer.openFlow? place .bracketOpen)
  | '{' => take (lexer.openFlow? place .braceOpen)
  | ']' => take (lexer.closeFlow? .bracketClose)
  | '}' => take (lexer.closeFlow? .braceClose)
  | ',' => take lexer.emitComma?
  | '-' => if rest.endsWord then take (lexer.emitItem? place) else none
  | '?' => if lexer.inFlow || rest.endsWord then take (lexer.emitKey? place) else none
  | ':' => if lexer.inFlow || rest.endsWord then take (lexer.emitValue? place) else none
  | '*' => some (lexer.readAnchor? place .reference rest)
  | '&' => some (lexer.readAnchor? place .anchor rest)
  | '!' => some (lexer.readTag? place rest)
  | '|' => if lexer.inFlow then none else some (lexer.readBlock? .literal rest)
  | '>' => if lexer.inFlow then none else some (lexer.readBlock? .folded rest)
  | '\'' => some (lexer.readQuoted? place false rest)
  | '"' => some (lexer.readQuoted? place true rest)
  | _ => none

/-- Read the next token, which begins at `place`. -/
def readToken? (lexer : Lexer) (place : Placed) (source : Source) :
    Option (Lexer × Source) :=
  match lexer.readOutside? place source with
  | some result => result
  | none =>
      match lexer.readIndicator? place source.tail with
      | some result => result
      | none =>
          if PlainText.canStart lexer.inFlow source then lexer.readPlain? place source
          else none

/-- The tokens of a stream, given what is known of its beginning.  Every token
takes at least one character, so the fuel is the number of those and one more. -/
def finish? : (fuel : Nat) → Lexer → Source → Option (List Token)
  | 0, _, _ => none
  | fuel + 1, lexer, source =>
      let (keyAllowed, source) := skipSpace lexer.inFlow lexer.keyAllowed source
      match source with
      | [] => (lexer.closeBlocks (-1)).dropKey?.map fun lexer => lexer.tokens.reverse
      | place :: _ => do
          let lexer ← (lexer.allowKey keyAllowed).dropStaleKeys? place
          let (lexer, rest) ← (lexer.closeBlocks place.column).readToken? place source
          finish? fuel lexer rest

end Lexer

/-- The tokens of a text. -/
def Token.ofText? (text : String) : Option (List Token) :=
  (Source.ofText? text).bind fun source =>
    Lexer.finish? (source.length + 1) {} source

end Yaml

end BatchFlow
