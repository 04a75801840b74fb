import BatchFlow.Proofs.Results
import BatchFlow.Proofs.ScalarOrder
import BatchFlow.Proofs.Task.Rowwise

/-!
# Sorting and grouping

Where the comparison of scalars is transitive, sorting yields ascending scalars and rows,
and grouping collects under every key exactly the rows whose keys are equal to it, in the
order in which they came.
-/

namespace BatchFlow

open Results

/-- A comparison is total, and transitive among some elements. -/
structure OrderedAmong {α : Type} (compared : α → α → Ordering) (members : α → Prop) : Prop where
  swap : ∀ first second, (compared first second).swap = compared second first
  composes : ∀ first second third, members first → members second → members third →
    Composes (compared first second) (compared second third) (compared first third)

namespace Scalar

variable {ints : Int64 → Prop} {floats : Binary64 → Prop}

theorem orderedAmong (unambiguous : Unambiguous ints floats) :
    OrderedAmong order (Draws ints floats) where
  swap := order_swap
  composes := order_composes unambiguous

theorem rows_orderedAmong (unambiguous : Unambiguous ints floats) :
    OrderedAmong rowOrder (RowDraws ints floats) where
  swap := rowOrder_swap
  composes := rowOrder_composes unambiguous

end Scalar

namespace Sorting

variable {α : Type} {compared : α → α → Ordering} {members : α → Prop}

/-- A comparison puts elements into ascending order. -/
theorem ordersAmong_lt (ordered : OrderedAmong compared members) :
    OrdersAmong (fun first second => compared first second == .lt) members where
  asymm {first second} _ _ before := by
    rw [← ordered.swap first second, eq_of_beq before]
    rfl
  trans {first second third} firstIs secondIs thirdIs notBefore notBefore' := by
    rw [beq_eq_false_iff_ne] at notBefore notBefore' ⊢
    have composes := (ordered.composes third second first thirdIs secondIs firstIs)
    obtain ⟨left, right, same⟩ := composes
    generalize compared third second = thirdSecond at *
    generalize compared second first = secondFirst at *
    cases thirdSecond <;> cases secondFirst <;> simp_all

/-- A comparison puts elements into descending order. -/
theorem ordersAmong_gt (ordered : OrderedAmong compared members) :
    OrdersAmong (fun first second => compared first second == .gt) members := by
  have flipped : OrderedAmong (fun first second => compared second first) members :=
    ⟨fun first second => ordered.swap second first,
      fun first second third firstIs secondIs thirdIs => by
        rw [← ordered.swap first second, ← ordered.swap second third, ← ordered.swap first third]
        obtain ⟨left, right, same⟩ := ordered.composes first second third firstIs secondIs thirdIs
        constructor <;> simp_all⟩
  have same : (fun first second => compared first second == .gt) =
      fun first second => compared second first == .lt := by
    funext first second
    rw [← ordered.swap first second]
    cases compared first second <;> rfl
  exact same ▸ ordersAmong_lt flipped

/-- Sorting yields the elements in ascending order. -/
theorem pairwise_sort (ordered : OrderedAmong compared members) {elements : List α}
    (areMembers : ∀ element ∈ elements, members element) :
    (sort (fun first second => compared first second == .lt) elements).Pairwise
      fun earlier later => compared earlier later ≠ .gt := by
  have inOrder := inOrder_sort (ordersAmong_lt ordered) areMembers
  refine inOrder.imp fun {earlier later} keeps greater => ?_
  rw [beq_eq_false_iff_ne, ← ordered.swap earlier later, greater] at keeps
  exact keeps rfl

variable {ints : Int64 → Prop} {floats : Binary64 → Prop}

/-- Unambiguous scalars are sorted. -/
theorem scalars?_of_unambiguous (unambiguous : Scalar.Unambiguous ints floats)
    {values : List Scalar} (draw : ∀ value ∈ values, Scalar.Draws ints floats value) :
    ∃ sorted, scalars? values = some sorted ∧ sorted.Perm values ∧
      sorted.Pairwise fun earlier later => earlier.order later ≠ .gt :=
  ⟨_, sort?_of_orders (ordersAmong_lt (Scalar.orderedAmong unambiguous)) draw, perm_sort _ values,
    pairwise_sort (Scalar.orderedAmong unambiguous) draw⟩

/-- Unambiguous rows are sorted. -/
theorem rows?_of_unambiguous (unambiguous : Scalar.Unambiguous ints floats) {values : List Row}
    (draw : ∀ row ∈ values, Scalar.RowDraws ints floats row) :
    ∃ sorted, rows? values = some sorted ∧ sorted.Perm values ∧
      sorted.Pairwise fun earlier later => Scalar.rowOrder earlier later ≠ .gt :=
  ⟨_, sort?_of_orders (ordersAmong_lt (Scalar.rows_orderedAmong unambiguous)) draw,
    perm_sort _ values, pairwise_sort (Scalar.rows_orderedAmong unambiguous) draw⟩

end Sorting

namespace Entries

variable {κ ν : Type} [Ord κ] {members : κ → Prop} {key other : κ} {change : Option ν → ν}
  {entries : List (κ × ν)}

/-- Equal keys share an entry, and changing it leaves the others alone. -/
theorem find?_upsert_of_orderedAmong
    (ordered : OrderedAmong (compare : κ → κ → Ordering) members) (keyIs : members key)
    (otherIs : members other) (keysAre : ∀ entry ∈ entries, members entry.1) :
    find? other (upsert key change entries) =
      if compare other key = .eq then some (change (find? other entries))
      else find? other entries := by
  induction entries with
  | nil => cases compared : compare other key <;> simp [upsert, find?, compared]
  | cons entry entries ih =>
      obtain ⟨head, value⟩ := entry
      obtain ⟨headIs, restAre⟩ := List.forall_mem_cons.mp keysAre
      have composes := ordered.composes other key head otherIs keyIs headIs
      obtain ⟨left, right, same⟩ := composes
      cases placed : compare key head with
      | lt =>
          cases compared : compare other key with
          | lt => simp [upsert, find?, placed, compared, same (compared.trans placed.symm)]
          | eq => simp [upsert, find?, placed, compared, left compared]
          | gt => simp [upsert, find?, placed, compared]
      | eq =>
          cases compared : compare other key <;>
            simp [upsert, find?, placed, compared, right placed]
      | gt =>
          simp only [upsert, placed, find?, ih restAre]
          cases compared : compare other key with
          | eq => simp [left compared, placed]
          | lt | gt => cases compare other head <;> simp

/-- Equal keys share an entry, so that the keys strictly ascend. -/
theorem Ascending.upsert_of_orderedAmong
    (ordered : OrderedAmong (compare : κ → κ → Ordering) members) (keyIs : members key)
    (keysAre : ∀ entry ∈ entries, members entry.1) (ascending : Ascending entries) :
    Ascending (Entries.upsert key change entries) := by
  induction entries with
  | nil => exact List.pairwise_singleton _ _
  | cons entry entries ih =>
      obtain ⟨head, value⟩ := entry
      obtain ⟨headIs, restAre⟩ := List.forall_mem_cons.mp keysAre
      obtain ⟨aboveHead, rest⟩ := List.pairwise_cons.mp ascending
      unfold Entries.upsert
      split
      case h_1 below =>
        refine List.pairwise_cons.mpr ⟨fun other member => ?_, ascending⟩
        rcases List.mem_cons.mp member with rfl | inRest
        · exact below
        · have above := aboveHead other inRest
          exact ((ordered.composes key head other.1 keyIs headIs (restAre other inRest)).same
            (below.trans above.symm)).trans below
      case h_2 => exact List.pairwise_cons.mpr ⟨aboveHead, rest⟩
      case h_3 above =>
        refine List.pairwise_cons.mpr ⟨fun other member => ?_, ih restAre rest⟩
        rcases compare_of_mem_upsert member with same | ⟨old, inRest, same⟩
        · show compare head other.1 = .lt
          rw [same, ← ordered.swap key head, above]
          rfl
        · show compare head other.1 = .lt
          rw [same]
          exact aboveHead old inRest

end Entries

namespace Groups

variable {members : Scalar → Prop}

/-- The cells after the key of a row, if the key is equal to a given one. -/
def cellsOf? (key : Scalar) : Row → Option Row
  | [] => none
  | other :: cells => if key.order other = .eq then some cells else none

/-- Grouping gives every key one group, which holds the rows of all keys equal to it in the
order in which they came. -/
theorem find?_ofKeyedRows (ordered : OrderedAmong Scalar.order members) {keyed : List Row}
    {groups : Groups} (collected : ofKeyedRows keyed = .ok groups)
    (keysAre : ∀ key cells, key :: cells ∈ keyed → members key) :
    Entries.Ascending groups ∧ ∀ key, members key →
      (Entries.find? key groups).getD [] = keyed.filterMap (cellsOf? key) := by
  unfold ofKeyedRows at collected
  have startAre : ∀ group ∈ ([] : Groups), members group.1 := by simp
  have ascending : Entries.Ascending ([] : Groups) := .nil
  -- The rows are collected into any groups of such keys to start with.
  suffices Entries.Ascending groups ∧ ∀ key, members key → (Entries.find? key groups).getD [] =
      (Entries.find? key ([] : Groups)).getD [] ++ keyed.filterMap (cellsOf? key) by
    simpa [Entries.find?] using this
  generalize ([] : Groups) = start at collected startAre ascending ⊢
  induction keyed generalizing start with
  | nil =>
      obtain rfl := pure_eq_ok.mp collected
      simpa using ascending
  | cons row keyed ih =>
      rw [List.foldlM_cons] at collected
      obtain ⟨next, added, rest⟩ := bind_eq_ok.mp collected
      cases row with
      | nil => cases added
      | cons head cells =>
          obtain rfl := Except.ok.inj added
          have headIs := keysAre head cells List.mem_cons_self
          have nextAre : ∀ group ∈ addRow start head cells, members group.1 := by
            intro group inNext
            rcases Entries.compare_of_mem_upsert inNext with same | ⟨old, inStart, same⟩
            · exact same ▸ headIs
            · exact same ▸ startAre old inStart
          obtain ⟨ascends, finds⟩ := ih
            (fun key cells member => keysAre key cells (List.mem_cons_of_mem _ member)) _ rest
            nextAre (ascending.upsert_of_orderedAmong ordered headIs startAre)
          refine ⟨ascends, fun key keyIs => ?_⟩
          have found : Entries.find? key (addRow start head cells) =
              if key.order head = .eq then some ((Entries.find? key start).getD [] ++ [cells])
              else Entries.find? key start :=
            Entries.find?_upsert_of_orderedAmong ordered headIs keyIs startAre
          rw [finds key keyIs, found, List.filterMap_cons, cellsOf?]
          split <;> simp

theorem find?_ofKeyedRows_of_unambiguous {ints : Int64 → Prop} {floats : Binary64 → Prop}
    (unambiguous : Scalar.Unambiguous ints floats) {keyed : List Row} {groups : Groups}
    (collected : ofKeyedRows keyed = .ok groups)
    (draw : ∀ row ∈ keyed, Scalar.RowDraws ints floats row) :
    Entries.Ascending groups ∧ ∀ key, Scalar.Draws ints floats key →
      (Entries.find? key groups).getD [] = keyed.filterMap (cellsOf? key) :=
  find?_ofKeyedRows (Scalar.orderedAmong unambiguous) collected
    fun key cells member => (draw (key :: cells) member).1

end Groups

end BatchFlow
