import BatchFlow.Proofs.Engine.GroupedRows
import BatchFlow.Proofs.UnmixedKeys
import Mathlib.Data.Int.CardIntervalMod

/-!
# The shuffle

Keyed rows are collected into groups and the groups dealt to reducers in turn.  As long as
the keys do not mix integers with doubles, no row is lost or doubled, all rows of a key come
to one reducer in the order in which they arrived, and the reducers get equally many keys.
-/

namespace BatchFlow

open Results

theorem Entries.exists_mem_of_find? {κ ν : Type} [Ord κ] {key : κ} {value : ν}
    {entries : List (κ × ν)} (found : find? key entries = some value) :
    ∃ head, (head, value) ∈ entries ∧ compare key head = .eq := by
  induction entries with
  | nil => cases found
  | cons entry entries ih =>
      obtain ⟨head, other⟩ := entry
      rw [find?] at found
      split at found
      case h_1 => cases found
      case h_2 same =>
        obtain rfl := Option.some.inj found
        exact ⟨head, List.mem_cons_self, same⟩
      case h_3 =>
        obtain ⟨later, member, same⟩ := ih found
        exact ⟨later, List.mem_cons_of_mem _ member, same⟩

namespace Groups

variable {keyed : List Row} {groups : Groups} {reducers : Nat}

/-- The keys of keyed rows. -/
def keysOf (keyed : List Row) : List Scalar :=
  keyed.filterMap List.head?

theorem mem_keysOf {key : Scalar} : key ∈ keysOf keyed ↔ ∃ cells, key :: cells ∈ keyed := by
  simp only [keysOf, List.mem_filterMap, List.head?_eq_some_iff]
  constructor
  · rintro ⟨_, member, cells, rfl⟩
    exact ⟨cells, member⟩
  · rintro ⟨cells, member⟩
    exact ⟨_, member, cells, rfl⟩

theorem exists_ofKeyedRows (haveKeys : [] ∉ keyed) :
    ∃ groups, ofKeyedRows keyed = .ok groups := by
  unfold ofKeyedRows
  generalize ([] : Groups) = start
  induction keyed generalizing start with
  | nil => exact ⟨start, rfl⟩
  | cons row keyed ih =>
      obtain ⟨notEmpty, restHave⟩ := not_or.mp (mt List.mem_cons.mpr haveKeys)
      cases row with
      | nil => exact absurd rfl notEmpty
      | cons key cells => exact ih restHave _

theorem ofKeyedRows_fails_iff :
    (∃ error, ofKeyedRows keyed = .error error) ↔ [] ∈ keyed := by
  rw [exists_error_iff, ← not_iff_not, not_not]
  constructor
  · rintro ⟨groups, collected⟩ lacksKey
    exact (perm_flatMap_ofKeyedRows collected).1 [] lacksKey rfl
  · exact exists_ofKeyedRows

theorem mem_keysOf_of_mem (collected : ofKeyedRows keyed = .ok groups) {group : Scalar × List Row}
    (member : group ∈ groups) : group.1 ∈ keysOf keyed := by
  unfold ofKeyedRows at collected
  -- The rows are collected into any groups to start with.
  suffices group.1 ∈ keysOf keyed ∨ ∃ old ∈ ([] : Groups), group.1 = old.1 by simpa using this
  generalize ([] : Groups) = start at collected ⊢
  induction keyed generalizing start with
  | nil =>
      obtain rfl := pure_eq_ok.mp collected
      exact .inr ⟨group, member, rfl⟩
  | cons row keyed ih =>
      rw [List.foldlM_cons] at collected
      obtain ⟨next, added, rest⟩ := bind_eq_ok.mp collected
      cases row with
      | nil => cases added
      | cons key cells =>
          obtain rfl := Except.ok.inj added
          rcases ih _ rest with ofRest | ⟨old, inNext, same⟩
          · exact .inl (List.mem_cons_of_mem _ ofRest)
          · rw [same]
            rcases Entries.compare_of_mem_upsert inNext with isKey | before
            · exact .inl (isKey ▸ List.mem_cons_self)
            · exact .inr before

section Dealing

theorem perm_flatten_deal (groups : Groups) (reducers : Nat) :
    (groups.deal reducers).flatten.Perm groups := by
  refine .trans (.of_eq ?_) (perm_flatMap_deal groups reducers)
  rw [deal, List.flatten_eq_flatMap, List.flatMap_map]
  refine List.flatMap_congr fun reducer member => ?_
  simp [List.mem_range.mp member]

theorem sublist_of_mem_deal {part : Groups} (dealt : part ∈ groups.deal reducers) :
    part.Sublist groups := by
  obtain ⟨reducer, -, rfl⟩ := List.mem_map.mp dealt
  have kept := (List.filter_sublist (l := groups.zipIdx)
    (p := fun entry => entry.2 % max reducers 1 == reducer)).map Prod.fst
  rwa [List.zipIdx_map_fst] at kept

theorem length_dealt (groups : Groups) (reducers reducer : Nat) :
    (groups.zipIdx.filter fun entry => entry.2 % reducers == reducer).length =
      groups.length.count (· % reducers = reducer) := by
  have positions : groups.zipIdx.map Prod.snd = List.range groups.length := by
    rw [List.zipIdx_map_snd, List.range_eq_range']
  rw [Nat.count, ← positions, List.countP_map, List.countP_eq_length_filter]
  rfl

/-- Every reducer gets its share of the groups, rounded down or up. -/
theorem length_of_mem_deal {part : Groups} (dealt : part ∈ groups.deal reducers) :
    part.length = groups.length / max reducers 1 ∨
      part.length = groups.length / max reducers 1 + 1 := by
  obtain ⟨reducer, inRange, rfl⟩ := List.mem_map.mp dealt
  have small := List.mem_range.mp inRange
  have counted := Nat.count_modEq_card groups.length (r := max reducers 1) (by omega) reducer
  simp only [Nat.ModEq, Nat.mod_eq_of_lt small] at counted
  rw [List.length_map, length_dealt, counted]
  split
  · exact .inr rfl
  · exact .inl rfl

end Dealing

/-- Partitions of groups that hold keyed rows, every key in one place. -/
structure Shuffled (keyed : List Row) (reducers : Nat) (parts : List Groups) : Prop where
  length_eq : parts.length = max reducers 1
  /-- Every row is there once, without its key. -/
  perm : (parts.flatten.flatMap Prod.snd).Perm (keyed.map List.tail)
  /-- The rows whose keys are equal to a key form a group, in the order of their arrival. -/
  together : ∀ key ∈ keysOf keyed, ∃ group ∈ parts.flatten,
    key.order group.1 = .eq ∧ group.2 = keyed.filterMap (cellsOf? key)
  fromRows : ∀ group ∈ parts.flatten, group.1 ∈ keysOf keyed
  distinct : parts.flatten.Pairwise fun first second => first.1.order second.1 ≠ .eq
  ascending : ∀ part ∈ parts, part.Pairwise fun earlier later => earlier.1.order later.1 = .lt
  balanced : ∀ part ∈ parts, ∀ other ∈ parts, part.length ≤ other.length + 1

theorem ne_eq_of_ascending (ascending : Entries.Ascending groups) :
    groups.Pairwise fun first second => first.1.order second.1 ≠ .eq :=
  ascending.imp fun below same => by
    have different : Ordering.lt = .eq := below.symm.trans same
    cases different

theorem Shuffled.of_collected (neverMix : Scalar.NeverMix (keysOf keyed))
    (collected : ofKeyedRows keyed = .ok groups) (reducers : Nat) :
    Shuffled keyed reducers (groups.deal reducers) := by
  have ordered := neverMix.orderedAmong
  have dealt := perm_flatten_deal groups reducers
  obtain ⟨ascending, finds⟩ := find?_ofKeyedRows ordered collected
    fun key cells member => mem_keysOf.mpr ⟨cells, member⟩
  refine ⟨?_, ?_, ?_, ?_, ?_, ?_, ?_⟩
  · rw [deal, List.length_map, List.length_range]
  · exact (dealt.flatMap_right Prod.snd).trans (perm_flatMap_ofKeyedRows collected).2
  · intro key isKey
    obtain ⟨cells, member⟩ := mem_keysOf.mp isKey
    have atKey := finds key isKey
    cases found : Entries.find? key groups with
    | none =>
        have holds : cells ∈ keyed.filterMap (cellsOf? key) := by
          refine List.mem_filterMap.mpr ⟨_, member, ?_⟩
          rw [cellsOf?, if_pos (Scalar.order_self key)]
        rw [← atKey, found] at holds
        cases holds
    | some rows =>
        obtain ⟨head, inGroups, same⟩ := Entries.exists_mem_of_find? found
        rw [found] at atKey
        exact ⟨_, dealt.mem_iff.mpr inGroups, same, atKey⟩
  · exact fun group member => mem_keysOf_of_mem collected (dealt.mem_iff.mp member)
  · refine (dealt.pairwise_iff fun {first second} different same => different ?_).mpr
      (ne_eq_of_ascending ascending)
    rw [← Scalar.order_swap, same]
    rfl
  · exact fun part member => ascending.sublist (sublist_of_mem_deal member)
  · intro part member other isOther
    have partLength := length_of_mem_deal member
    have otherLength := length_of_mem_deal isOther
    omega

/-- The shuffle fails exactly when a row has no key.  Otherwise it puts every row into one
partition, together with all rows of its key. -/
theorem shuffle_lossless (neverMix : Scalar.NeverMix (keysOf keyed)) (reducers : Nat) :
    ((∃ error, ofKeyedRows keyed = .error error) ↔ [] ∈ keyed) ∧
      ([] ∉ keyed → ∃ groups, ofKeyedRows keyed = .ok groups ∧
        Shuffled keyed reducers (groups.deal reducers)) := by
  refine ⟨ofKeyedRows_fails_iff, fun haveKeys => ?_⟩
  obtain ⟨groups, collected⟩ := exists_ofKeyedRows haveKeys
  exact ⟨groups, collected, .of_collected neverMix collected reducers⟩

/-- Visits under a number, a bag, or no key in particular. -/
def visits : List Row :=
  [[.int 2, .text "b"], [.int 1, .text "a"], [.null], [.bag [[.int 3]], .text "d"],
    [.int 1, .text "c"]]

theorem neverMix_visits : Scalar.NeverMix (keysOf visits) := by
  have draw : ∀ key ∈ keysOf visits, Scalar.Draws (fun _ => True) (fun _ => False) key := by
    simp [keysOf, visits, Scalar.Draws, Scalar.RowsDraw, Scalar.RowDraws]
  exact Scalar.neverMix_of_draws (fun _ _ _ never => never) draw

/-- Four groups are dealt to three reducers. -/
theorem shuffle_lossless_visits :
    Scalar.NeverMix (keysOf visits) ∧ [] ∉ visits ∧
      ∃ groups, ofKeyedRows visits = .ok groups ∧ groups.length = 4 ∧
        Shuffled visits 3 (groups.deal 3) := by
  have haveKeys : [] ∉ visits := by simp [visits]
  obtain ⟨groups, collected, shuffled⟩ := (shuffle_lossless neverMix_visits 3).2 haveKeys
  have four : ofKeyedRows visits = .ok [(.null, [[]]), (.int 1, [[.text "a"], [.text "c"]]),
      (.int 2, [[.text "b"]]), (.bag [[.int 3]], [[.text "d"]])] := rfl
  obtain rfl := Except.ok.inj (four.symm.trans collected)
  exact ⟨neverMix_visits, haveKeys, _, four, rfl, shuffled⟩

end Groups

end BatchFlow
