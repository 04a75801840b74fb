import BatchFlow.Yaml.Lexer

/-!
# From tokens to a tree

A tree is what a document says before references are followed.  A stream has
one document.  Where a node may be left out, it is an empty plain scalar.
-/

namespace BatchFlow

namespace Yaml

/-- A node as written, whose anchor and references are given as `α`. -/
inductive Tree (α : Type) where
  | reference (anchor : α)
  | scalar (anchor : Option α) (tag : Option Tag) (style : ScalarStyle) (text : String)
  | sequence (anchor : Option α) (tag : Option Tag) (items : List (Tree α))
  | mapping (anchor : Option α) (tag : Option Tag) (entries : List (Tree α × Tree α))
deriving Inhabited

/-- What the handles of tags stand for, the latest first. -/
abbrev Handles :=
  List (String × Tag)

namespace Handles

/-- The handles of every document. -/
def standard : Handles :=
  [("!", .ofText "!"), ("!!", .ofText "tag:yaml.org,2002:")]

/-- The tag that a written tag means. -/
def resolve? (handles : Handles) (tag : TagText) : Option Tag :=
  if tag.handle = "" then some tag.suffix
  else (handles.lookup tag.handle).map fun start => tag.suffix.withStart start

end Handles

/-- The anchor and tag of a node. -/
structure Properties where
  anchor : Option String := none
  tag : Option TagText := none

namespace Properties

/-- Take an anchor and a tag, in any order, from the front. -/
def take : List Token → Properties × List Token
  | .anchor anchor :: .tag tag :: rest => (⟨some anchor, some tag⟩, rest)
  | .tag tag :: .anchor anchor :: rest => (⟨some anchor, some tag⟩, rest)
  | .anchor anchor :: rest => (⟨some anchor, none⟩, rest)
  | .tag tag :: rest => (⟨none, some tag⟩, rest)
  | tokens => (⟨none, none⟩, tokens)

/-- Whether there are any. -/
def isEmpty (properties : Properties) : Bool :=
  properties.anchor.isNone && properties.tag.isNone

end Properties

namespace Tree

/-- A node that was left out. -/
def empty : Tree String :=
  .scalar none none .plain ""

mutual

/-- Read a node.  Blocks are allowed if `block` is set, and items without a block
of their own if `bare` is.  The fuel bounds the tokens read, several times over. -/
def read? (handles : Handles) :
    (fuel : Nat) → (block bare : Bool) → List Token → Option (Tree String × List Token)
  | 0, _, _, _ => none
  | _ + 1, _, _, .reference name :: rest => some (.reference name, rest)
  | fuel + 1, block, bare, tokens => do
      let (properties, tokens) := Properties.take tokens
      let anchor := properties.anchor
      let tag ← match properties.tag with
        | none => some none
        | some tag => (handles.resolve? tag).map some
      match tokens, block, bare with
      | .item :: _, _, true =>
          let (items, rest) ← readBareItems? handles fuel tokens
          return (.sequence anchor tag items, rest)
      | .scalar style text :: rest, _, _ => return (.scalar anchor tag style text, rest)
      | .bracketOpen :: rest, _, _ =>
          let (items, rest) ← readFlowItems? handles fuel true rest
          return (.sequence anchor tag items, rest)
      | .braceOpen :: rest, _, _ =>
          let (entries, rest) ← readFlowEntries? handles fuel true rest
          return (.mapping anchor tag entries, rest)
      | .sequenceStart :: rest, true, _ =>
          let (items, rest) ← readItems? handles fuel rest
          return (.sequence anchor tag items, rest)
      | .mappingStart :: rest, true, _ =>
          let (entries, rest) ← readEntries? handles fuel rest
          return (.mapping anchor tag entries, rest)
      | _, _, _ =>
          if properties.isEmpty then none else return (.scalar anchor tag .plain "", tokens)

/-- Read a node, or nothing in front of one of some tokens. -/
def readOrEmpty? (handles : Handles) (fuel : Nat) (block bare : Bool) (ends : List Token)
    (tokens : List Token) : Option (Tree String × List Token) :=
  match fuel with
  | 0 => none
  | fuel + 1 =>
      if tokens.head?.any ends.contains then some (empty, tokens)
      else read? handles fuel block bare tokens

/-- Read the items of a block and its end. -/
def readItems? (handles : Handles) :
    (fuel : Nat) → List Token → Option (List (Tree String) × List Token)
  | 0, _ => none
  | fuel + 1, .item :: rest => do
      let (item, rest) ← readOrEmpty? handles fuel true false [.item, .blockEnd] rest
      let (items, rest) ← readItems? handles fuel rest
      return (item :: items, rest)
  | _ + 1, .blockEnd :: rest => some ([], rest)
  | _ + 1, _ => none

/-- Read items that have no block of their own. -/
def readBareItems? (handles : Handles) :
    (fuel : Nat) → List Token → Option (List (Tree String) × List Token)
  | 0, _ => none
  | fuel + 1, .item :: rest => do
      let (item, rest) ←
        readOrEmpty? handles fuel true false [.item, .key, .value, .blockEnd] rest
      let (items, rest) ← readBareItems? handles fuel rest
      return (item :: items, rest)
  | _ + 1, tokens => some ([], tokens)

/-- Read the entries of a block and its end. -/
def readEntries? (handles : Handles) :
    (fuel : Nat) → List Token → Option (List (Tree String × Tree String) × List Token)
  | 0, _ => none
  | fuel + 1, .key :: rest => do
      let (key, rest) ← readOrEmpty? handles fuel true true [.key, .value, .blockEnd] rest
      let (value, rest) ← match rest with
        | .value :: rest =>
            readOrEmpty? handles fuel true true [.key, .value, .blockEnd] rest
        | _ => some (empty, rest)
      let (entries, rest) ← readEntries? handles fuel rest
      return ((key, value) :: entries, rest)
  | _ + 1, .blockEnd :: rest => some ([], rest)
  | _ + 1, _ => none

/-- Read the items between brackets and the closing one.  Items after the first
follow a comma; an item with a key is a mapping of one entry. -/
def readFlowItems? (handles : Handles) :
    (fuel : Nat) → (first : Bool) → List Token → Option (List (Tree String) × List Token)
  | 0, _, _ => none
  | _ + 1, _, .bracketClose :: rest => some ([], rest)
  | fuel + 1, first, tokens => do
      let tokens ← match first, tokens with
        | true, tokens => some tokens
        | false, .comma :: rest => some rest
        | false, _ => none
      match tokens with
      | .bracketClose :: rest => return ([], rest)
      | .key :: rest =>
          let (key, rest) ← match rest with
            | .value :: rest | .comma :: rest | .bracketClose :: rest => some (empty, rest)
            | _ => read? handles fuel false false rest
          let (value, rest) ← match rest with
            | .value :: rest =>
                readOrEmpty? handles fuel false false [.comma, .bracketClose] rest
            | _ => some (empty, rest)
          let (items, rest) ← readFlowItems? handles fuel false rest
          return (.mapping none none [(key, value)] :: items, rest)
      | _ =>
          let (item, rest) ← read? handles fuel false false tokens
          let (items, rest) ← readFlowItems? handles fuel false rest
          return (item :: items, rest)

/-- Read the entries between braces and the closing one.  Entries after the first
follow a comma; an entry may be a key alone. -/
def readFlowEntries? (handles : Handles) :
    (fuel : Nat) → (first : Bool) → List Token →
      Option (List (Tree String × Tree String) × List Token)
  | 0, _, _ => none
  | _ + 1, _, .braceClose :: rest => some ([], rest)
  | fuel + 1, first, tokens => do
      let tokens ← match first, tokens with
        | true, tokens => some tokens
        | false, .comma :: rest => some rest
        | false, _ => none
      match tokens with
      | .braceClose :: rest => return ([], rest)
      | .key :: rest =>
          let (key, rest) ←
            readOrEmpty? handles fuel false false [.value, .comma, .braceClose] rest
          let (value, rest) ← match rest with
            | .value :: rest =>
                readOrEmpty? handles fuel false false [.comma, .braceClose] rest
            | _ => some (empty, rest)
          let (entries, rest) ← readFlowEntries? handles fuel false rest
          return ((key, value) :: entries, rest)
      | _ =>
          let (key, rest) ← read? handles fuel false false tokens
          let (entries, rest) ← readFlowEntries? handles fuel false rest
          return ((key, empty) :: entries, rest)

end

/-- The handles that directives define.  Each may be defined once, and the version
may be given once. -/
def readDirectives? : List Token → Option Handles
  | directives => do
      let versions := directives.filterMap fun directive =>
        match directive with
        | .version major minor => some (major, minor)
        | _ => none
      let handles := directives.filterMap fun directive =>
        match directive with
        | .handle name start => some (name, start)
        | _ => none
      let isKnown := fun version : Nat × Nat =>
        version.1 == 1 && (version.2 == 1 || version.2 == 2)
      if 1 < versions.length || !versions.all isKnown then none
      if (handles.map Prod.fst).eraseDups.length < handles.length then none
      return handles ++ Handles.standard

/-- Whether a document has no content in front of the tokens. -/
def isContentEnd (tokens : List Token) : Bool :=
  tokens.head?.all fun token =>
    token.isDirective || token == .documentStart || token == .documentEnd

/-- Read a document: directives, its start and its content.  Without directives the
start may be left out, but then there must be content. -/
def readDocument? (tokens : List Token) : Option (Tree String × List Token) :=
  let fuel := 4 * tokens.length + 4
  match tokens.span Token.isDirective with
  | (directives, .documentStart :: rest) => do
      let handles ← readDirectives? directives
      if isContentEnd rest then return (empty, rest)
      else read? handles fuel true false rest
  | ([], rest) => read? .standard fuel true false rest
  | _ => none

/-- The tree of a stream of one document. -/
def ofTokens? (tokens : List Token) : Option (Tree String) := do
  let (tree, rest) ← readDocument? tokens
  if rest.all (· == .documentEnd) then some tree else none

/-- The tree of a text. -/
def ofText? (text : String) : Option (Tree String) :=
  (Token.ofText? text).bind ofTokens?

end Tree

end Yaml

end BatchFlow
