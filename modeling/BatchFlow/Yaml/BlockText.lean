import BatchFlow.Yaml.Source

/-!
# Block scalars

A block scalar is a header and the lines indented below it.  A literal scalar
keeps its line breaks; a folded one joins lines that begin with a word.  The
header may give the indentation and what becomes of the last line breaks.
-/

namespace BatchFlow

namespace Yaml

/-- What becomes of the line breaks at the end of a block scalar. -/
inductive Chomping where
  /-- All are dropped. -/
  | strip
  /-- The first is kept. -/
  | clip
  /-- All are kept. -/
  | keep
deriving DecidableEq

/-- What the header of a block scalar says. -/
structure BlockHeader where
  chomping : Chomping
  /-- How much deeper than its parent the scalar is indented. -/
  increment : Option Nat

namespace BlockHeader

/-- Take a sign of chomping, if there is one. -/
def readChomping (source : Source) : Chomping × Source :=
  if source.startsWith '+' then (.keep, source.tail)
  else if source.startsWith '-' then (.strip, source.tail)
  else (.clip, source)

/-- Take a digit of indentation, if there is one; it must not be zero. -/
def readIncrement? (source : Source) : Option (Option Nat × Source) :=
  match source with
  | [] => some (none, [])
  | next :: rest =>
      if next.character = '0' then none
      else if next.character.isDigit then
        some (some (next.character.toNat - '0'.toNat), rest)
      else some (none, source)

/-- Read a header to the end of its line. -/
def read? (source : Source) : Option (BlockHeader × Source) :=
  match readChomping source with
  | (.clip, rest) =>
      (readIncrement? rest).bind fun (increment, rest) =>
        let (chomping, rest) := if increment.isSome then readChomping rest else (.clip, rest)
        rest.skipEmptyLine?.map fun rest => (⟨chomping, increment⟩, rest)
  | (chomping, rest) =>
      (readIncrement? rest).bind fun (increment, rest) =>
        rest.skipEmptyLine?.map fun rest => (⟨chomping, increment⟩, rest)

end BlockHeader

/-- Empty lines in front of a line of a block scalar. -/
structure EmptyLines where
  breaks : List Char
  /-- The widest indentation up to and with the line that follows. -/
  width : Nat
  rest : Source

namespace EmptyLines

/-- Whether a column belongs to the indentation of a block scalar. -/
def isIndent (indent : Option Nat) (column : Nat) : Bool :=
  indent.all fun indent => column < indent

/-- Skip empty lines and the indentation of the line that follows.  A tab may not
stand in the indentation. -/
def read? (indent : Option Nat) (width : Nat) (source : Source) : Option EmptyLines :=
  match source with
  | [] => some ⟨[], width, []⟩
  | next :: rest =>
      if next.character = ' ' && isIndent indent next.column then
        read? indent (max width (next.column + 1)) rest
      else if next.character = '\t' && isIndent indent next.column then none
      else if isBreak next.character then
        (read? indent width rest).map fun lines =>
          { lines with breaks := next.character :: lines.breaks }
      else some ⟨[], width, source⟩

end EmptyLines

/-- The lines of a block scalar read so far. -/
structure BlockText where
  text : List Char := []
  /-- The break of the last line. -/
  lastBreak : Option Char := none
  /-- Whether the last line began with a blank. -/
  lastBlank : Bool := false
  /-- The breaks of the empty lines after it. -/
  emptyBreaks : List Char

namespace BlockText

/-- What stands between the last line and the next. -/
def joint (block : BlockText) (literal nextBlank : Bool) : List Char :=
  if !literal && block.lastBreak == some '\n' && !block.lastBlank && !nextBlank then
    if block.emptyBreaks.isEmpty then [' '] else block.emptyBreaks
  else block.lastBreak.toList ++ block.emptyBreaks

/-- The text with the line breaks at its end treated as the header says. -/
def chomped (block : BlockText) : Chomping → List Char
  | .strip => block.text
  | .clip => block.text ++ block.lastBreak.toList
  | .keep => block.text ++ block.lastBreak.toList ++ block.emptyBreaks

/-- Read the lines indented by `indent`.  The fuel bounds the number of lines. -/
def readLines? (literal : Bool) (indent : Nat) :
    (fuel : Nat) → BlockText → Source → Option (BlockText × Source)
  | 0, block, source => some (block, source)
  | fuel + 1, block, source =>
      match source with
      | [] => some (block, [])
      | next :: _ =>
          if next.column = indent then
            let nextBlank := isBlank next.character
            let line := source.takeWhile fun next => !isBreak next.character
            let after := source.dropWhile fun next => !isBreak next.character
            match EmptyLines.read? (some indent) 0 after.tail with
            | none => none
            | some lines =>
                readLines? literal indent fuel
                  { text := block.text ++ block.joint literal nextBlank
                      ++ Source.characters line
                    lastBreak := after.head?.map Placed.character
                    lastBlank := nextBlank
                    emptyBreaks := lines.breaks }
                  lines.rest
          else some (block, source)

/-- Read a block scalar after its indicator, inside a block indented by `parent`.
Without an indentation in its header, it is the widest of the empty lines and
the line that follows, and at least one more than that of the parent. -/
def read? (literal : Bool) (parent : Int) (source : Source) :
    Option (List Char × Source) := do
  let (header, source) ← BlockHeader.read? source
  let given := header.increment.map fun increment => parent.toNat + increment
  let lines ← EmptyLines.read? given 0 source
  let indent := given.getD (max lines.width (max (parent + 1).toNat 1))
  let (block, rest) ←
    readLines? literal indent source.length { emptyBreaks := lines.breaks } lines.rest
  return (block.chomped header.chomping, rest)

end BlockText

end Yaml

end BatchFlow
