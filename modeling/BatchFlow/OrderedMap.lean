/-!
# Maps and sets in key order

A finite map is the list of its entries in strictly ascending key order, and a
finite set the list of its elements.  Two maps with the same entries are
therefore equal, and iteration needs no sorting.  The functions on bare lists
scan from the smallest key and stop at the first key that is not smaller, so
they are also usable where the comparison is not a total order.
-/

namespace BatchFlow

variable {κ ν : Type} [Ord κ]

namespace Entries

/-- The value of a key in a list of entries in key order. -/
def find? (key : κ) : List (κ × ν) → Option ν
  | [] => none
  | (head, value) :: rest =>
      match compare key head with
      | .lt => none
      | .eq => some value
      | .gt => find? key rest

/-- Give `key` the value `change previous`, in its place in key order. -/
def upsert (key : κ) (change : Option ν → ν) : List (κ × ν) → List (κ × ν)
  | [] => [(key, change none)]
  | (head, value) :: rest =>
      match compare key head with
      | .lt => (key, change none) :: (head, value) :: rest
      | .eq => (head, change (some value)) :: rest
      | .gt => (head, value) :: upsert key change rest

/-- Keys strictly ascend along the list. -/
def Ascending (entries : List (κ × ν)) : Prop :=
  entries.Pairwise fun earlier later => compare earlier.1 later.1 = .lt

theorem compare_of_mem_upsert {key : κ} {change : Option ν → ν}
    {entries : List (κ × ν)} {entry : κ × ν}
    (member : entry ∈ upsert key change entries) :
    entry.1 = key ∨ ∃ old ∈ entries, entry.1 = old.1 := by
  induction entries with
  | nil => simp_all [upsert]
  | cons head rest ih =>
      obtain ⟨headKey, headValue⟩ := head
      simp only [upsert] at member
      split at member
      · grind
      · rcases List.mem_cons.mp member with rfl | inRest
        · exact .inr ⟨_, List.mem_cons_self, rfl⟩
        · exact .inr ⟨_, List.mem_cons_of_mem _ inRest, rfl⟩
      · rcases List.mem_cons.mp member with rfl | inRest
        · exact .inr ⟨_, List.mem_cons_self, rfl⟩
        · grind

theorem Ascending.upsert [Std.TransOrd κ] {key : κ} {change : Option ν → ν}
    {entries : List (κ × ν)} (ascending : Ascending entries) :
    Ascending (upsert key change entries) := by
  induction entries with
  | nil => simp [Entries.upsert, Ascending]
  | cons head rest ih =>
      obtain ⟨headKey, headValue⟩ := head
      have parts := List.pairwise_cons.mp ascending
      simp only [Entries.upsert]
      split
      case h_1 below =>
        refine List.pairwise_cons.mpr ⟨fun entry member => ?_, ascending⟩
        rcases List.mem_cons.mp member with rfl | inRest
        · exact below
        · exact Std.TransCmp.lt_trans below (parts.1 entry inRest)
      case h_2 => exact List.pairwise_cons.mpr ⟨parts.1, parts.2⟩
      case h_3 above =>
        refine List.pairwise_cons.mpr ⟨fun entry member => ?_, ih parts.2⟩
        rcases compare_of_mem_upsert member with same | ⟨old, inRest, same⟩
        · show compare headKey entry.1 = .lt
          rw [same]
          exact Std.OrientedCmp.lt_of_gt above
        · show compare headKey entry.1 = .lt
          rw [same]
          exact parts.1 old inRest

end Entries

/-- A finite map, as its entries in strictly ascending key order. -/
structure OrderedMap (κ ν : Type) [Ord κ] where
  entries : List (κ × ν)
  ascending : Entries.Ascending entries

namespace OrderedMap

/-- The map without entries. -/
def empty : OrderedMap κ ν :=
  ⟨[], List.Pairwise.nil⟩

instance : EmptyCollection (OrderedMap κ ν) :=
  ⟨empty⟩

instance : Inhabited (OrderedMap κ ν) :=
  ⟨empty⟩

@[ext]
theorem ext {first second : OrderedMap κ ν}
    (equal : first.entries = second.entries) : first = second := by
  cases first
  cases second
  exact (OrderedMap.mk.injEq ..).mpr equal

/-- The keys in ascending order. -/
def keys (map : OrderedMap κ ν) : List κ :=
  map.entries.map Prod.fst

/-- The values in the order of their keys. -/
def values (map : OrderedMap κ ν) : List ν :=
  map.entries.map Prod.snd

/-- The number of entries. -/
def size (map : OrderedMap κ ν) : Nat :=
  map.entries.length

/-- Whether the map has no entry. -/
def isEmpty (map : OrderedMap κ ν) : Bool :=
  map.entries.isEmpty

/-- The value of a key. -/
def get? (map : OrderedMap κ ν) (key : κ) : Option ν :=
  Entries.find? key map.entries

/-- Whether the map has the key. -/
def contains (map : OrderedMap κ ν) (key : κ) : Bool :=
  (map.get? key).isSome

/-- Give a key the value `change previous`. -/
def upsert [Std.TransOrd κ] (map : OrderedMap κ ν) (key : κ)
    (change : Option ν → ν) : OrderedMap κ ν :=
  ⟨Entries.upsert key change map.entries, map.ascending.upsert⟩

/-- Give a key a value; a previous value is replaced. -/
def insert [Std.TransOrd κ] (map : OrderedMap κ ν) (key : κ) (value : ν) :
    OrderedMap κ ν :=
  map.upsert key fun _ => value

/-- Change the value of a key that the map has. -/
def modify (map : OrderedMap κ ν) (key : κ) (change : ν → ν) : OrderedMap κ ν where
  entries := map.entries.map fun entry =>
    if compare key entry.1 = .eq then (entry.1, change entry.2) else entry
  ascending := by
    refine List.pairwise_map.mpr (map.ascending.imp fun {first second} below => ?_)
    split <;> split <;> exact below

/-- The entries that pass a test. -/
def filter (map : OrderedMap κ ν) (test : κ → ν → Bool) : OrderedMap κ ν :=
  ⟨map.entries.filter fun entry => test entry.1 entry.2, map.ascending.filter _⟩

/-- The map without a key. -/
def erase (map : OrderedMap κ ν) (key : κ) : OrderedMap κ ν :=
  map.filter fun other _ => compare key other != .eq

/-- The map with every value changed. -/
def mapValues {μ : Type} (map : OrderedMap κ ν) (change : ν → μ) :
    OrderedMap κ μ where
  entries := map.entries.map fun entry => (entry.1, change entry.2)
  ascending := by
    refine List.pairwise_map.mpr ?_
    exact map.ascending

/-- The map of a list of entries; of two entries with one key the later counts. -/
def ofList [Std.TransOrd κ] (entries : List (κ × ν)) : OrderedMap κ ν :=
  entries.foldl (fun map entry => map.insert entry.1 entry.2) empty

end OrderedMap

/-- A finite set, as its elements in strictly ascending order. -/
structure OrderedSet (κ : Type) [Ord κ] where
  elements : List κ
  ascending : elements.Pairwise fun earlier later => compare earlier later = .lt

namespace OrderedSet

/-- Put an element in its place unless the list has it. -/
def insertInto (element : κ) : List κ → List κ
  | [] => [element]
  | head :: rest =>
      match compare element head with
      | .lt => element :: head :: rest
      | .eq => head :: rest
      | .gt => head :: insertInto element rest

theorem mem_insertInto {element member : κ} {elements : List κ}
    (isMember : member ∈ insertInto element elements) :
    member = element ∨ member ∈ elements := by
  induction elements with
  | nil => simp_all [insertInto]
  | cons head rest ih =>
      simp only [insertInto] at isMember
      split at isMember <;> grind

theorem pairwise_insertInto [Std.TransOrd κ] {element : κ} {elements : List κ}
    (ascending : elements.Pairwise fun earlier later => compare earlier later = .lt) :
    (insertInto element elements).Pairwise
      fun earlier later => compare earlier later = .lt := by
  induction elements with
  | nil => simp [insertInto]
  | cons head rest ih =>
      have parts := List.pairwise_cons.mp ascending
      simp only [insertInto]
      split
      case h_1 below =>
        refine List.pairwise_cons.mpr ⟨fun member isMember => ?_, ascending⟩
        rcases List.mem_cons.mp isMember with rfl | inRest
        · exact below
        · exact Std.TransCmp.lt_trans below (parts.1 member inRest)
      case h_2 => exact ascending
      case h_3 above =>
        refine List.pairwise_cons.mpr ⟨fun member isMember => ?_, ih parts.2⟩
        rcases mem_insertInto isMember with rfl | inRest
        · exact Std.OrientedCmp.lt_of_gt above
        · exact parts.1 member inRest

/-- The set without elements. -/
def empty : OrderedSet κ :=
  ⟨[], List.Pairwise.nil⟩

instance : EmptyCollection (OrderedSet κ) :=
  ⟨empty⟩

instance : Inhabited (OrderedSet κ) :=
  ⟨empty⟩

@[ext]
theorem ext {first second : OrderedSet κ}
    (equal : first.elements = second.elements) : first = second := by
  cases first
  cases second
  exact (OrderedSet.mk.injEq ..).mpr equal

/-- Whether the set has the element. -/
def contains (set : OrderedSet κ) (element : κ) : Bool :=
  set.elements.any fun member => compare element member == .eq

/-- The set with one more element. -/
def insert [Std.TransOrd κ] (set : OrderedSet κ) (element : κ) : OrderedSet κ :=
  ⟨insertInto element set.elements, pairwise_insertInto set.ascending⟩

/-- The set without an element. -/
def erase (set : OrderedSet κ) (element : κ) : OrderedSet κ :=
  ⟨set.elements.filter fun member => compare element member != .eq,
    set.ascending.filter _⟩

/-- The set of the elements of a list. -/
def ofList [Std.TransOrd κ] (elements : List κ) : OrderedSet κ :=
  elements.foldl insert empty

end OrderedSet

end BatchFlow
