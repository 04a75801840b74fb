import BatchFlow.Yaml.Tag

/-!
# Tokens

The tokens of a stream.  Indentation is turned into tokens that open and close
blocks, and a key of one line is marked in front of it, although only the colon
after it tells that it is one.
-/

namespace BatchFlow

namespace Yaml

/-- How a scalar is written. -/
inductive ScalarStyle where
  | plain
  | quoted
  | literal
  | folded
deriving DecidableEq

/-- A tag as written: the handle names what is put in front of the suffix. -/
structure TagText where
  handle : String
  suffix : Tag
deriving DecidableEq

/-- A token of a stream. -/
inductive Token where
  | version (major minor : Nat)
  | handle (name : String) (start : Tag)
  | documentStart
  | documentEnd
  | sequenceStart
  | mappingStart
  | blockEnd
  | bracketOpen
  | bracketClose
  | braceOpen
  | braceClose
  | comma
  | item
  | key
  | value
  | reference (name : String)
  | anchor (name : String)
  | tag (text : TagText)
  | scalar (style : ScalarStyle) (text : String)
deriving DecidableEq

namespace Token

/-- Whether the token is a directive. -/
def isDirective : Token → Bool
  | version _ _ | handle _ _ => true
  | _ => false

end Token

end Yaml

end BatchFlow
