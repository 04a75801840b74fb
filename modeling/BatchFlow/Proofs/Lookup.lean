import BatchFlow.OrderedMap
import Mathlib.Data.List.Sort

/-!
# Lookup in maps and sets

A map is known by its lookups: two maps with the same lookups are equal, and
every operation on maps has an equation for the lookups of its result.  The
comparison of the keys is here a total order whose equality is equality.
-/

namespace BatchFlow

/-- In an ascending list, the elements of a range follow one another after those
below it. -/
theorem takeWhile_dropWhile_eq_filter {α : Type} {before : α → α → Prop} {below inside : α → Bool}
    {elements : List α} (ascending : elements.Pairwise before)
    (notBelow : ∀ element, inside element = true → below element = false)
    (stays : ∀ first second, before first second → below first = false → below second = false)
    (convex : ∀ first second, before first second → below first = false →
      inside second = true → inside first = true) :
    (elements.dropWhile below).takeWhile inside = elements.filter inside := by
  induction elements with
  | nil => rfl
  | cons first rest ih =>
      obtain ⟨beforeRest, ascendingRest⟩ := List.pairwise_cons.mp ascending
      have ofRest := ih ascendingRest
      cases isBelow : below first with
      | true =>
          have outside : inside first = false := by
            by_contra isInside
            have := notBelow first (by simpa using isInside)
            simp [this] at isBelow
          simpa [isBelow, outside] using ofRest
      | false =>
          have restStays : rest.dropWhile below = rest := by
            cases rest with
            | nil => rfl
            | cons second rest =>
                have stay := stays first second (beforeRest second List.mem_cons_self) isBelow
                simp [stay]
          rw [restStays] at ofRest
          cases isInside : inside first with
          | true => simpa [isBelow, isInside] using ofRest
          | false =>
              have noneInside : ∀ element ∈ rest, inside element ≠ true := by
                intro element member elementInside
                have := convex first element (beforeRest element member) isBelow elementInside
                simp [this] at isInside
              simpa [isBelow, isInside] using List.filter_eq_nil_iff.mpr noneInside

variable {κ ν : Type} [Ord κ]

namespace Entries

theorem Ascending.tail {entry : κ × ν} {rest : List (κ × ν)}
    (ascending : Ascending (entry :: rest)) : Ascending rest :=
  (List.pairwise_cons.mp ascending).2

variable [Std.LawfulEqOrd κ]

theorem mem_of_find? {key : κ} {value : ν} {entries : List (κ × ν)}
    (found : find? key entries = some value) : (key, value) ∈ entries := by
  induction entries with
  | nil => simp [find?] at found
  | cons entry rest ih =>
      obtain ⟨head, headValue⟩ := entry
      simp only [find?] at found
      split at found
      case h_1 => simp at found
      case h_2 equal =>
        have same : key = head := Std.LawfulEqOrd.eq_of_compare equal
        simp_all
      case h_3 => exact List.mem_cons_of_mem _ (ih found)

variable [Std.TransOrd κ]

theorem find?_of_mem {key : κ} {value : ν} {entries : List (κ × ν)}
    (ascending : Ascending entries) (member : (key, value) ∈ entries) :
    find? key entries = some value := by
  induction entries with
  | nil => simp at member
  | cons entry rest ih =>
      obtain ⟨head, headValue⟩ := entry
      rcases List.mem_cons.mp member with atHead | inRest
      · obtain ⟨rfl, rfl⟩ := Prod.mk.injEq .. ▸ atHead
        simp [find?, Std.ReflOrd.compare_self]
      · have below := (List.pairwise_cons.mp ascending).1 _ inRest
        have above : compare key head = .gt := Std.OrientedCmp.gt_of_lt below
        simp [find?, above, ih ascending.tail inRest]

theorem find?_eq_some_iff {key : κ} {value : ν} {entries : List (κ × ν)}
    (ascending : Ascending entries) :
    find? key entries = some value ↔ (key, value) ∈ entries :=
  ⟨mem_of_find?, find?_of_mem ascending⟩

theorem find?_upsert [DecidableEq κ] (key other : κ) (change : Option ν → ν)
    (entries : List (κ × ν)) :
    find? other (upsert key change entries) =
      if other = key then some (change (find? key entries)) else find? other entries := by
  induction entries with
  | nil =>
      by_cases same : other = key
      · simp [upsert, find?, same, Std.ReflOrd.compare_self]
      · cases compared : compare other key with
        | eq => exact absurd (Std.LawfulEqOrd.eq_of_compare compared) same
        | lt | gt => simp [upsert, find?, same, compared]
  | cons entry rest ih =>
      obtain ⟨head, headValue⟩ := entry
      simp only [upsert]
      cases placed : compare key head with
      | lt =>
          by_cases same : other = key
          · simp [find?, same, placed, Std.ReflOrd.compare_self]
          · cases compared : compare other key with
            | eq => exact absurd (Std.LawfulEqOrd.eq_of_compare compared) same
            | lt => simp [find?, same, compared, Std.TransCmp.lt_trans compared placed]
            | gt => simp [find?, same, compared]
      | eq =>
          obtain rfl : key = head := Std.LawfulEqOrd.eq_of_compare placed
          by_cases same : other = key
          · simp [find?, same, Std.ReflOrd.compare_self]
          · cases compared : compare other key with
            | eq => exact absurd (Std.LawfulEqOrd.eq_of_compare compared) same
            | lt | gt => simp [find?, same, compared]
      | gt =>
          simp only [find?, ih]
          by_cases same : other = key
          · simp [same, placed]
          · simp [same]

end Entries

namespace OrderedMap

@[simp]
theorem get?_empty (key : κ) : (∅ : OrderedMap κ ν).get? key = none :=
  rfl

theorem contains_iff {map : OrderedMap κ ν} {key : κ} :
    map.contains key = true ↔ ∃ value, map.get? key = some value :=
  Option.isSome_iff_exists

theorem pairwise_keys (map : OrderedMap κ ν) :
    map.keys.Pairwise fun earlier later => compare earlier later = .lt :=
  List.pairwise_map.mpr map.ascending

variable [Std.TransOrd κ] [Std.LawfulEqOrd κ]

theorem get?_eq_some_iff {map : OrderedMap κ ν} {key : κ} {value : ν} :
    map.get? key = some value ↔ (key, value) ∈ map.entries :=
  Entries.find?_eq_some_iff map.ascending

theorem mem_keys_iff {map : OrderedMap κ ν} {key : κ} :
    key ∈ map.keys ↔ ∃ value, map.get? key = some value := by
  simp [keys, get?_eq_some_iff]

theorem mem_values_iff {map : OrderedMap κ ν} {value : ν} :
    value ∈ map.values ↔ ∃ key, map.get? key = some value := by
  simp [values, get?_eq_some_iff]

omit [Std.TransOrd κ] in
theorem nodup_keys (map : OrderedMap κ ν) : map.keys.Nodup :=
  map.pairwise_keys.imp fun below equal => by
    simp [equal, Std.ReflOrd.compare_self] at below

/-- Lists with the same elements in ascending order of keys are equal. -/
theorem eq_of_ascending {α : Type} {key : α → κ} {first second : List α}
    (ascendingFirst : first.Pairwise fun earlier later => compare (key earlier) (key later) = .lt)
    (ascendingSecond : second.Pairwise fun earlier later =>
      compare (key earlier) (key later) = .lt)
    (same : ∀ element, element ∈ first ↔ element ∈ second) : first = second := by
  have irreflexive : Std.Irrefl fun earlier later : α =>
      compare (key earlier) (key later) = .lt :=
    ⟨fun element => by simp [Std.ReflOrd.compare_self]⟩
  have asymmetric : Std.Antisymm fun earlier later : α =>
      compare (key earlier) (key later) = .lt :=
    ⟨fun earlier later below above => by
      simp [Std.OrientedCmp.gt_of_lt below] at above⟩
  exact List.Pairwise.eq_of_mem_iff ascendingFirst ascendingSecond same

/-- Maps with the same lookups are equal. -/
theorem ext_get? {first second : OrderedMap κ ν}
    (same : ∀ key, first.get? key = second.get? key) : first = second := by
  refine OrderedMap.ext (eq_of_ascending first.ascending second.ascending fun entry => ?_)
  rw [← get?_eq_some_iff, ← get?_eq_some_iff, same entry.1]

section Operations

variable [DecidableEq κ]

theorem get?_upsert (map : OrderedMap κ ν) (key other : κ) (change : Option ν → ν) :
    (map.upsert key change).get? other =
      if other = key then some (change (map.get? key)) else map.get? other :=
  Entries.find?_upsert key other change map.entries

theorem get?_insert (map : OrderedMap κ ν) (key other : κ) (value : ν) :
    (map.insert key value).get? other =
      if other = key then some value else map.get? other :=
  get?_upsert ..

@[simp]
theorem get?_insert_self (map : OrderedMap κ ν) (key : κ) (value : ν) :
    (map.insert key value).get? key = some value := by
  simp [get?_insert]

theorem get?_insert_of_ne {map : OrderedMap κ ν} {key other : κ} {value : ν}
    (different : other ≠ key) : (map.insert key value).get? other = map.get? other := by
  simp [get?_insert, different]

theorem get?_modify (map : OrderedMap κ ν) (key other : κ) (change : ν → ν) :
    (map.modify key change).get? other =
      if other = key then (map.get? key).map change else map.get? other := by
  apply Option.ext
  intro value
  have changed (entry : κ × ν) (member : entry ∈ map.entries) :
      map.get? entry.1 = some entry.2 := get?_eq_some_iff.mpr member
  rw [get?_eq_some_iff]
  simp only [modify, List.mem_map]
  constructor
  · rintro ⟨entry, member, result⟩
    split at result
    case isTrue equal =>
      have same : key = entry.1 := Std.LawfulEqOrd.eq_of_compare equal
      have parts := Prod.mk.injEq .. ▸ result
      have atKey : other = key := parts.1.symm.trans same.symm
      simp [atKey, same, changed entry member, parts.2]
    case isFalse unequal =>
      subst result
      have notKey : other ≠ key := by
        rintro rfl
        exact unequal Std.ReflOrd.compare_self
      simpa [notKey] using changed _ member
  · intro found
    by_cases atKey : other = key
    · simp only [atKey, if_true, Option.map_eq_some_iff] at found
      obtain ⟨old, member, rfl⟩ := found
      refine ⟨(key, old), get?_eq_some_iff.mp member, ?_⟩
      simp [Std.ReflOrd.compare_self, atKey]
    · rw [if_neg atKey] at found
      refine ⟨(other, value), get?_eq_some_iff.mp found, ?_⟩
      have unequal : compare key other ≠ .eq := fun equal =>
        atKey (Std.LawfulEqOrd.eq_of_compare equal).symm
      simp [unequal]

end Operations

theorem get?_filter (map : OrderedMap κ ν) (test : κ → ν → Bool) (key : κ) :
    (map.filter test).get? key = (map.get? key).filter (test key) := by
  apply Option.ext
  intro value
  rw [get?_eq_some_iff, Option.filter_eq_some_iff, get?_eq_some_iff]
  simp [filter]

theorem get?_mapValues {μ : Type} (map : OrderedMap κ ν) (change : ν → μ) (key : κ) :
    (map.mapValues change).get? key = (map.get? key).map change := by
  apply Option.ext
  intro value
  rw [get?_eq_some_iff, Option.map_eq_some_iff]
  simp only [mapValues, List.mem_map, Prod.mk.injEq, get?_eq_some_iff]
  constructor
  · rintro ⟨⟨other, old⟩, member, rfl, rfl⟩
    exact ⟨old, member, rfl⟩
  · rintro ⟨old, member, rfl⟩
    exact ⟨(key, old), member, rfl, rfl⟩

theorem get?_erase [DecidableEq κ] (map : OrderedMap κ ν) (key other : κ) :
    (map.erase key).get? other = if other = key then none else map.get? other := by
  rw [erase, get?_filter]
  by_cases same : other = key
  · cases map.get? other <;> simp [same, Std.ReflOrd.compare_self]
  · have unequal : compare key other ≠ .eq := fun equal =>
      same (Std.LawfulEqOrd.eq_of_compare equal).symm
    cases map.get? other <;> simp [same, unequal]

/-- A list of entries with different keys has the map of these entries. -/
theorem get?_ofList [DecidableEq κ] {entries : List (κ × ν)}
    (nodup : (entries.map Prod.fst).Nodup) {key : κ} {value : ν} :
    (ofList entries).get? key = some value ↔ (key, value) ∈ entries := by
  have inserted (start : OrderedMap κ ν) :
      (entries.foldl (fun map entry => map.insert entry.1 entry.2) start).get? key = some value ↔
        (key, value) ∈ entries ∨ key ∉ entries.map Prod.fst ∧ start.get? key = some value := by
    induction entries generalizing start with
    | nil => simp
    | cons entry rest ih =>
        obtain ⟨fresh, restNodup⟩ := List.nodup_cons.mp (List.map_cons ▸ nodup)
        rw [List.foldl_cons, ih restNodup, get?_insert]
        by_cases atHead : key = entry.1
        · subst atHead
          have notInRest : (entry.1, value) ∉ rest := fun member =>
            fresh (List.mem_map.mpr ⟨_, member, rfl⟩)
          simp only [notInRest, fresh, if_true, not_false_eq_true, true_and, false_or,
            List.mem_cons, List.map_cons, not_true, false_and, or_false,
            Option.some.injEq]
          constructor
          · intro same
            rw [← same]
          · intro same
            rw [← same]
        · have notHead : (key, value) ≠ entry := fun same => atHead (by rw [← same])
          simp [atHead, notHead]
  rw [ofList, inserted]
  simp [show (empty : OrderedMap κ ν).get? key = none from rfl]

/-- A map is the map of its own entries. -/
theorem ofList_entries [DecidableEq κ] (map : OrderedMap κ ν) : ofList map.entries = map := by
  refine ext_get? fun key => Option.ext fun value => ?_
  rw [get?_ofList map.nodup_keys, get?_eq_some_iff]

/-- The keys of the map of a list of entries, which may repeat. -/
theorem mem_keys_ofList [DecidableEq κ] {entries : List (κ × ν)} {key : κ} :
    key ∈ (ofList entries).keys ↔ key ∈ entries.map Prod.fst := by
  have inserted (start : OrderedMap κ ν) :
      (∃ value, (entries.foldl (fun map entry => map.insert entry.1 entry.2) start).get? key =
          some value) ↔
        key ∈ entries.map Prod.fst ∨ ∃ value, start.get? key = some value := by
    induction entries generalizing start with
    | nil => simp
    | cons entry rest ih =>
        rw [List.foldl_cons, ih, get?_insert, List.map_cons, List.mem_cons]
        by_cases atHead : key = entry.1
        · simp [atHead]
        · simp [atHead]
  rw [mem_keys_iff, ofList, inserted]
  simp [show (empty : OrderedMap κ ν).get? key = none from rfl]

/-- The map of a list of entries with different keys does not depend on their order. -/
theorem ofList_eq_of_perm [DecidableEq κ] {first second : List (κ × ν)}
    (perm : first.Perm second) (nodup : (first.map Prod.fst).Nodup) :
    ofList first = ofList second := by
  refine ext_get? fun key => Option.ext fun value => ?_
  rw [get?_ofList nodup, get?_ofList ((perm.map Prod.fst).nodup_iff.mp nodup), perm.mem_iff]

/-- A list of entries with different keys has a map with these keys. -/
theorem keys_ofList_perm [DecidableEq κ] {entries : List (κ × ν)}
    (nodup : (entries.map Prod.fst).Nodup) :
    (ofList entries).keys.Perm (entries.map Prod.fst) :=
  (List.perm_ext_iff_of_nodup (nodup_keys _) nodup).mpr fun _ => mem_keys_ofList

/-- The map of some keys to the values they have. -/
theorem get?_ofList_filterMap [DecidableEq κ] {keys : List κ} (nodup : keys.Nodup)
    (value : κ → Option ν) (key : κ) :
    (ofList (keys.filterMap fun key => (value key).map fun found => (key, found))).get? key =
      if key ∈ keys then value key else none := by
  have keptKeys : (keys.filterMap fun key => (value key).map fun found => (key, found)).map
      Prod.fst = keys.filter fun key => (value key).isSome := by
    clear nodup
    induction keys with
    | nil => rfl
    | cons head rest ih =>
        rw [List.filterMap_cons, List.filter_cons]
        cases value head <;> simp [ih]
  refine Option.ext fun found => ?_
  rw [get?_ofList (by rw [keptKeys]; exact nodup.filter _), List.mem_filterMap]
  constructor
  · rintro ⟨other, member, isEntry⟩
    obtain ⟨otherValue, ofOther, same⟩ := Option.map_eq_some_iff.mp isEntry
    obtain ⟨rfl, rfl⟩ := Prod.mk.inj same
    rw [if_pos member, ofOther]
  · intro ofKey
    split at ofKey
    case isTrue member => exact ⟨key, member, by rw [ofKey]; rfl⟩
    case isFalse => simp at ofKey

end OrderedMap

namespace OrderedSet

/-- An element that compares as equal to no other one is put into a list. -/
theorem mem_insertInto_of_lawful {element member : κ} {elements : List κ}
    (lawful : ∀ other ∈ elements, compare element other = .eq → element = other) :
    member ∈ insertInto element elements ↔ member = element ∨ member ∈ elements := by
  refine ⟨mem_insertInto, ?_⟩
  induction elements with
  | nil => simp [insertInto]
  | cons head rest ih =>
      obtain ⟨lawfulHead, lawfulRest⟩ := List.forall_mem_cons.mp lawful
      simp only [insertInto]
      split
      case h_1 => simp
      case h_2 equal =>
        obtain rfl : element = head := lawfulHead equal
        simp
      case h_3 =>
        rintro (isElement | old)
        · exact List.mem_cons_of_mem _ (ih lawfulRest (.inl isElement))
        · rcases List.mem_cons.mp old with rfl | inRest
          · exact List.mem_cons_self
          · exact List.mem_cons_of_mem _ (ih lawfulRest (.inr inRest))

variable [Std.LawfulEqOrd κ]

theorem mem_insertInto_iff {element member : κ} {elements : List κ} :
    member ∈ insertInto element elements ↔ member = element ∨ member ∈ elements :=
  mem_insertInto_of_lawful fun _ _ => Std.LawfulEqOrd.eq_of_compare

theorem contains_iff {set : OrderedSet κ} {element : κ} :
    set.contains element = true ↔ element ∈ set.elements := by
  simp only [contains, List.any_eq_true, beq_iff_eq, Std.LawfulEqOrd.compare_eq_iff_eq]
  exact ⟨fun ⟨member, isMember, same⟩ => same ▸ isMember, fun member => ⟨_, member, rfl⟩⟩

theorem mem_erase {set : OrderedSet κ} {element member : κ} :
    member ∈ (set.erase element).elements ↔ member ≠ element ∧ member ∈ set.elements := by
  simp only [erase, List.mem_filter, bne_iff_ne, ne_eq, Std.LawfulEqOrd.compare_eq_iff_eq]
  constructor
  · rintro ⟨old, different⟩
    exact ⟨fun same => different same.symm, old⟩
  · rintro ⟨different, old⟩
    exact ⟨old, fun same => different same.symm⟩

theorem nodup_elements (set : OrderedSet κ) : set.elements.Nodup :=
  set.ascending.imp fun below equal => by
    simp [equal, Std.ReflOrd.compare_self] at below

variable [Std.TransOrd κ]

theorem mem_insert {set : OrderedSet κ} {element member : κ} :
    member ∈ (set.insert element).elements ↔ member = element ∨ member ∈ set.elements :=
  mem_insertInto_iff

theorem mem_ofList {elements : List κ} {member : κ} :
    member ∈ (ofList elements).elements ↔ member ∈ elements := by
  have inserted (start : OrderedSet κ) :
      member ∈ (elements.foldl insert start).elements ↔
        member ∈ elements ∨ member ∈ start.elements := by
    induction elements generalizing start with
    | nil => simp
    | cons element elements ih =>
        rw [List.foldl_cons, ih, mem_insert, List.mem_cons]
        tauto
  rw [ofList, inserted]
  simp [empty]

/-- Sets with the same elements are equal. -/
theorem ext_mem {first second : OrderedSet κ}
    (same : ∀ element, element ∈ first.elements ↔ element ∈ second.elements) : first = second :=
  OrderedSet.ext (OrderedMap.eq_of_ascending first.ascending second.ascending same)

/-- A set is the set of its own elements. -/
theorem ofList_elements (set : OrderedSet κ) : ofList set.elements = set :=
  ext_mem fun _ => mem_ofList

end OrderedSet

end BatchFlow
