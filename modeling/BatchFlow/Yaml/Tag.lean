/-!
# Tags

A tag names the type of a node.  Percent signs write bytes in it, which need not
be those of a character; a zero byte ends what it is written in.  Some tags are
those of the core schema; one that begins with an exclamation mark is the
document's own.
-/

namespace BatchFlow

namespace Yaml

/-- A tag, given by its characters; bytes of no character are `none`. -/
structure Tag where
  characters : List (Option Char)
deriving DecidableEq

namespace Tag

/-- The tag of a text. -/
def ofText (text : String) : Tag :=
  ⟨text.toList.map some⟩

/-- The tag that is written with some characters: those up to the first zero. -/
def ofWritten (characters : List (Option Char)) : Tag :=
  ⟨characters.takeWhile fun character => character != some (Char.ofNat 0)⟩

/-- A tag with a start put in front of it. -/
def withStart (tag start : Tag) : Tag :=
  ⟨start.characters ++ tag.characters⟩

/-- Whether there is nothing in a tag. -/
def isEmpty (tag : Tag) : Bool :=
  tag.characters.isEmpty

/-- The tag of truth values. -/
def bool : Tag :=
  ofText "tag:yaml.org,2002:bool"

/-- The tag of integers. -/
def integer : Tag :=
  ofText "tag:yaml.org,2002:int"

/-- The tag of real numbers. -/
def real : Tag :=
  ofText "tag:yaml.org,2002:float"

/-- The tag of nulls. -/
def null : Tag :=
  ofText "tag:yaml.org,2002:null"

/-- Whether a tag begins with an exclamation mark. -/
def isOwn (tag : Tag) : Bool :=
  tag.characters.head? == some (some '!')

/-- The name of a document's own tag, which is what follows the exclamation mark,
or the mark if nothing does.  There is none if it is no text. -/
def ownName? (tag : Tag) : Option String :=
  match tag.characters with
  | [some '!'] => some "!"
  | some '!' :: rest => (rest.mapM id).map String.ofList
  | _ => none

/-- The name under which own tags are compared and shown: of two exclamation marks
at the beginning one is enough. -/
def displayName (name : String) : String :=
  match name.toList with
  | ['!'] => "!"
  | '!' :: rest => String.ofList rest
  | _ => name

end Tag

end Yaml

end BatchFlow
