import BatchFlow.Yaml.Source

/-!
# Plain scalars

A plain scalar goes up to a colon that ends a word, a comment, a line that is
indented too little, or, within brackets, a flow indicator.
-/

namespace BatchFlow

namespace Yaml

/-- Whether a character has a meaning of its own within brackets. -/
def isFlowIndicator (character : Char) : Bool :=
  character ∈ [',', '[', ']', '{', '}']

/-- The characters that stand for something else at the beginning of a scalar. -/
def indicators : List Char :=
  ['-', '?', ':', ',', '[', ']', '{', '}', '#', '&', '*', '!', '|', '>', '\'', '"', '%', '@',
    '`']

/-- What was read of a plain scalar. -/
structure PlainText where
  text : List Char
  /-- Whether the scalar was followed by a line break. -/
  endsInBreak : Bool
  rest : Source

namespace PlainText

/-- Whether a plain scalar can begin here. -/
def canStart (inFlow : Bool) (source : Source) : Bool :=
  match source with
  | [] => false
  | next :: rest =>
      (!isGap next.character && next.character ∉ indicators)
        || (next.character = '-' && !rest.head?.any fun second => isBlank second.character)
        || (!inFlow && (next.character = '?' || next.character = ':') && !Source.endsWord rest)

/-- Whether a plain scalar ends in front of an indicator. -/
def stops (inFlow : Bool) (source : Source) : Bool :=
  match source with
  | [] => true
  | next :: rest =>
      (next.character = ':' && Source.endsWord rest) || (inFlow && isFlowIndicator next.character)

/-- Whether a colon stands where it can neither end a scalar nor be part of it. -/
def isMisplacedColon (inFlow : Bool) (source : Source) : Bool :=
  match source with
  | [] => false
  | next :: rest =>
      inFlow && next.character = ':'
        && rest.head?.any fun second =>
          isFlowIndicator second.character || second.character == '?'

/-- Whether a plain scalar ends after a gap. -/
def stopsAfterGap (inFlow : Bool) (indent : Int) (source : Source) : Bool :=
  source.startsWith '#' || source.isDocumentBoundary
    || (!inFlow && source.head?.any fun next => next.column < indent)

/-- Whether a tab stands among the blanks that indent a line. -/
def hasTabInIndent (indent : Int) (gap : Source) : Bool :=
  (gap.dropWhile fun next => !isBreak next.character).any fun next =>
    next.character == '\t' && next.column < indent

/-- Put characters in front of the text. -/
def prepend (characters : List Char) (plain : PlainText) : PlainText :=
  { plain with text := characters ++ plain.text }

/-- Read a plain scalar whose lines are indented by at least `indent`. -/
def read? (inFlow : Bool) (indent : Int) (source : Source) : Option PlainText :=
  match source with
  | [] => some ⟨[], false, []⟩
  | next :: rest =>
      if isGap next.character then
        let gap := next :: rest.takeWhile fun next => isGap next.character
        let after := rest.dropWhile fun next => isGap next.character
        if hasTabInIndent indent gap then none
        else if stopsAfterGap inFlow indent after then
          some ⟨[], gap.any fun next => isBreak next.character, after⟩
        else if isMisplacedColon inFlow after then none
        else if stops inFlow after then
          some ⟨[], gap.any fun next => isBreak next.character, after⟩
        else
          (read? inFlow indent after).map (prepend (foldGap (Source.characters gap)))
      else if isMisplacedColon inFlow source then none
      else if stops inFlow source then some ⟨[], false, source⟩
      else (read? inFlow indent rest).map (prepend [next.character])
termination_by source.length
decreasing_by
  · exact Nat.lt_succ_of_le (Source.length_dropWhile_le ..)
  · exact Nat.lt_succ_self _

end PlainText

end Yaml

end BatchFlow
