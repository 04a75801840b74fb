import BatchFlow.Yaml.Tree

/-!
# Nodes

A node is a tree whose references have been followed.  Anchors are numbered in
the order of the stream: an anchor gets the number of names known before it, so
a name used again takes a new number, and the next new name shares that one.  A
reference means the last node under the number that its name has there.  A
reference inside what it means, or one too many, has no node.

Only what is to be read of a document becomes its node: the values of fields that
nobody asks for are left out, and references in them are not followed.
-/

namespace BatchFlow

namespace Yaml

/-- A node of a document. -/
inductive Node where
  | scalar (tag : Option Tag) (style : ScalarStyle) (text : String)
  | sequence (tag : Option Tag) (items : List Node)
  | mapping (tag : Option Tag) (entries : List (Node × Node))
  /-- A reference that does not end. -/
  | endless
deriving Inhabited

/-- What is to be read of a node: all of it, the same of all items of a sequence, or
some fields of a mapping and what is to be read of each. -/
inductive Scope where
  | whole
  | items (each : Scope)
  | fields (known : List (String × Scope))

namespace Scope

/-- What is to be read of an item. -/
def item : Scope → Scope
  | items each => each
  | _ => whole

/-- What is to be read of the value under a key, if anything.  A field is known by
a scalar; a key of another kind is never passed over. -/
def value? (scope : Scope) (key : Node) : Option Scope :=
  match scope, key with
  | fields known, .scalar _ _ name => known.lookup name
  | _, _ => some whole

end Scope

/-- The numbers of anchors, by name. -/
abbrev AnchorNumbers :=
  List (String × Nat)

namespace AnchorNumbers

/-- Number an anchor. -/
def note (numbers : AnchorNumbers) (name : String) : AnchorNumbers :=
  (name, numbers.length) :: numbers.filter fun entry => entry.1 != name

/-- Number an anchor, if there is one; yields its number. -/
def noteAnchor (numbers : AnchorNumbers) : Option String → Option Nat × AnchorNumbers
  | none => (none, numbers)
  | some name => (some numbers.length, numbers.note name)

end AnchorNumbers

namespace Tree

mutual

/-- Replace the names of anchors and references by numbers.  A reference to a name
not known yet is an error. -/
def number? (numbers : AnchorNumbers) : Tree String → Option (Tree Nat × AnchorNumbers)
  | .reference name =>
      (numbers.lookup name).map fun number => (.reference number, numbers)
  | .scalar anchor tag style text =>
      let (anchor, numbers) := numbers.noteAnchor anchor
      some (.scalar anchor tag style text, numbers)
  | .sequence anchor tag items =>
      let (anchor, numbers) := numbers.noteAnchor anchor
      (numberItems? numbers items).map fun (items, numbers) =>
        (.sequence anchor tag items, numbers)
  | .mapping anchor tag entries =>
      let (anchor, numbers) := numbers.noteAnchor anchor
      (numberEntries? numbers entries).map fun (entries, numbers) =>
        (.mapping anchor tag entries, numbers)

/-- Number the anchors of items. -/
def numberItems? (numbers : AnchorNumbers) :
    List (Tree String) → Option (List (Tree Nat) × AnchorNumbers)
  | [] => some ([], numbers)
  | item :: items =>
      match number? numbers item with
      | none => none
      | some (item, numbers) =>
          (numberItems? numbers items).map fun (items, numbers) => (item :: items, numbers)

/-- Number the anchors of entries. -/
def numberEntries? (numbers : AnchorNumbers) :
    List (Tree String × Tree String) →
      Option (List (Tree Nat × Tree Nat) × AnchorNumbers)
  | [] => some ([], numbers)
  | (key, value) :: entries =>
      match number? numbers key with
      | none => none
      | some (key, numbers) =>
          match number? numbers value with
          | none => none
          | some (value, numbers) =>
              (numberEntries? numbers entries).map fun (entries, numbers) =>
                ((key, value) :: entries, numbers)

end

/-- A tree under the number of its anchor. -/
def anchored (tree : Tree Nat) : Option Nat → List (Nat × Tree Nat)
  | none => []
  | some number => [(number, tree)]

mutual

/-- The anchored trees in the order of the stream. -/
def anchors : Tree Nat → List (Nat × Tree Nat)
  | .reference _ => []
  | .scalar anchor tag style text => anchored (.scalar anchor tag style text) anchor
  | .sequence anchor tag items =>
      anchored (.sequence anchor tag items) anchor ++ anchorsOfItems items
  | .mapping anchor tag entries =>
      anchored (.mapping anchor tag entries) anchor ++ anchorsOfEntries entries

/-- The anchored trees of items. -/
def anchorsOfItems : List (Tree Nat) → List (Nat × Tree Nat)
  | [] => []
  | item :: items => anchors item ++ anchorsOfItems items

/-- The anchored trees of entries. -/
def anchorsOfEntries : List (Tree Nat × Tree Nat) → List (Nat × Tree Nat)
  | [] => []
  | (key, value) :: entries => anchors key ++ anchors value ++ anchorsOfEntries entries

end

mutual

/-- The number of beginnings and ends of nodes in a tree. -/
def eventCount {α : Type} : Tree α → Nat
  | .reference _ => 1
  | .scalar _ _ _ _ => 1
  | .sequence _ _ items => eventCountOfItems items + 2
  | .mapping _ _ entries => eventCountOfEntries entries + 2

/-- The number of beginnings and ends of nodes in items. -/
def eventCountOfItems {α : Type} : List (Tree α) → Nat
  | [] => 0
  | item :: items => eventCount item + eventCountOfItems items

/-- The number of beginnings and ends of nodes in entries. -/
def eventCountOfEntries {α : Type} : List (Tree α × Tree α) → Nat
  | [] => 0
  | (key, value) :: entries =>
      eventCount key + eventCount value + eventCountOfEntries entries

end

mutual

/-- Follow the references in what is to be read of a tree.  A chain of references
may be `depth` long, and `budget` references may be followed in all; yields what is
left of those. -/
def follow (anchors : List (Nat × Tree Nat)) (depth budget : Nat) (scope : Scope)
    (tree : Tree Nat) : Node × Nat :=
  match tree with
  | .reference number =>
      match depth, budget, anchors.lookup number with
      | depth + 1, budget + 1, some target => follow anchors depth budget scope target
      | _, _, _ => (.endless, budget)
  | .scalar _ tag style text => (.scalar tag style text, budget)
  | .sequence _ tag items =>
      let (items, budget) := followItems anchors depth budget scope.item items
      (.sequence tag items, budget)
  | .mapping _ tag entries =>
      let (entries, budget) := followEntries anchors depth budget scope entries
      (.mapping tag entries, budget)
termination_by (depth, sizeOf tree)

/-- Follow the references of items. -/
def followItems (anchors : List (Nat × Tree Nat)) (depth budget : Nat) (scope : Scope)
    (items : List (Tree Nat)) : List Node × Nat :=
  match items with
  | [] => ([], budget)
  | item :: items =>
      let (item, budget) := follow anchors depth budget scope item
      let (items, budget) := followItems anchors depth budget scope items
      (item :: items, budget)
termination_by (depth, sizeOf items)

/-- Follow the references of the entries that are to be read. -/
def followEntries (anchors : List (Nat × Tree Nat)) (depth budget : Nat) (scope : Scope)
    (entries : List (Tree Nat × Tree Nat)) : List (Node × Node) × Nat :=
  match entries with
  | [] => ([], budget)
  | (key, value) :: entries =>
      let (key, budget) := follow anchors depth budget .whole key
      match scope.value? key with
      | none => followEntries anchors depth budget scope entries
      | some part =>
          let (value, budget) := follow anchors depth budget part value
          let (entries, budget) := followEntries anchors depth budget scope entries
          ((key, value) :: entries, budget)
termination_by (depth, sizeOf entries)

end

/-- The node that a tree means, as far as it is to be read. -/
def node? (tree : Tree String) (scope : Scope) : Option Node :=
  (tree.number? []).map fun (tree, _) =>
    let anchors := tree.anchors.reverse
    (tree.follow anchors anchors.length (100 * tree.eventCount) scope).1

end Tree

/-- The node of a text, as far as it is to be read. -/
def Node.ofText? (text : String) (scope : Scope) : Option Node :=
  (Tree.ofText? text).bind fun tree => tree.node? scope

end Yaml

end BatchFlow
