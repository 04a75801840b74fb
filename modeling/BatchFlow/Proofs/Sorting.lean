import BatchFlow.Sorting
import Mathlib.Data.List.Perm.Basic

/-!
# Sorting by an order

Sorting keeps the elements.  If the test orders them, the sorted elements are in order,
and the sort does not stop: the halves of every stretch are in order, the elements taken
from the front and the elements taken from the back are the ends of one merged list, and
so what is taken from the left half at both ends is the left half.
-/

namespace BatchFlow

namespace Sorting

variable {α : Type} {precedes : α → α → Bool} {members : α → Prop}

section Permutation

variable (precedes)

theorem perm_insertReversed (element : α) (elements : List α) :
    (insertReversed precedes element elements).Perm (element :: elements) := by
  induction elements with
  | nil => exact .refl _
  | cons last earlier ih =>
      rw [insertReversed]
      split
      · exact (ih.cons last).trans (.swap element last earlier)
      · exact .refl _

theorem perm_insertAll (reversed elements : List α) :
    (insertAll precedes reversed elements).Perm (elements ++ reversed) := by
  induction elements generalizing reversed with
  | nil => exact .refl _
  | cons element elements ih =>
      refine (ih _).trans (.trans ?_ List.perm_middle)
      exact (perm_insertReversed precedes element reversed).append_left elements

theorem perm_sort (elements : List α) : (sort precedes elements).Perm elements :=
  (List.reverse_perm _).trans (by simpa using perm_insertAll precedes [] elements)

variable {precedes}

theorem eq_sort_of_sort? {elements sorted : List α}
    (isSorted : sort? precedes elements = some sorted) : sorted = sort precedes elements := by
  rw [sort?] at isSorted
  split at isSorted
  · cases isSorted
  · exact (Option.some.inj isSorted).symm

end Permutation

/-- A test puts some elements into a total order, up to equal elements. -/
structure OrdersAmong (precedes : α → α → Bool) (members : α → Prop) : Prop where
  asymm : ∀ {first second}, members first → members second →
    precedes first second = true → precedes second first = false
  trans : ∀ {first second third}, members first → members second → members third →
    precedes second first = false → precedes third second = false →
      precedes third first = false

/-- No element must come before an earlier one. -/
def InOrder (precedes : α → α → Bool) (elements : List α) : Prop :=
  elements.Pairwise fun earlier later => precedes later earlier = false

theorem sortTwo_eq (precedes : α → α → Bool) (first second : α) :
    sortTwo precedes first second = (first, second) ∨
      sortTwo precedes first second = (second, first) := by
  unfold sortTwo
  split
  · exact .inr rfl
  · exact .inl rfl

theorem members_sortTwo (precedes : α → α → Bool) {first second : α} (firstIs : members first)
    (secondIs : members second) :
    members (sortTwo precedes first second).1 ∧ members (sortTwo precedes first second).2 := by
  rcases sortTwo_eq precedes first second with same | same <;> rw [same]
  · exact ⟨firstIs, secondIs⟩
  · exact ⟨secondIs, firstIs⟩

section Orders

variable (orders : OrdersAmong precedes members)

include orders

/-- An element put in its place keeps a reversed list in order. -/
theorem inOrder_insertReversed {element : α} {reversed : List α} (isMember : members element)
    (areMembers : ∀ other ∈ reversed, members other)
    (inOrder : InOrder precedes reversed.reverse) :
    InOrder precedes (insertReversed precedes element reversed).reverse := by
  rw [InOrder, List.pairwise_reverse] at inOrder ⊢
  induction reversed with
  | nil => exact List.pairwise_singleton _ _
  | cons last earlier ih =>
      obtain ⟨lastIs, earlierAre⟩ := List.forall_mem_cons.mp areMembers
      obtain ⟨belowLast, rest⟩ := List.pairwise_cons.mp inOrder
      unfold insertReversed
      split
      case isTrue before =>
        refine List.pairwise_cons.mpr ⟨fun other inserted => ?_, ih earlierAre rest⟩
        rcases List.mem_cons.mp ((perm_insertReversed _ element earlier).mem_iff.mp inserted) with
          rfl | inEarlier
        · exact orders.asymm isMember lastIs before
        · exact belowLast other inEarlier
      case isFalse notBefore =>
        have above : precedes element last = false := Bool.not_eq_true _ ▸ notBefore
        refine List.pairwise_cons.mpr ⟨fun other inRest => ?_, inOrder⟩
        rcases List.mem_cons.mp inRest with rfl | inEarlier
        · exact above
        · exact orders.trans (earlierAre other inEarlier) lastIs isMember
            (belowLast other inEarlier) above

theorem inOrder_insertAll {reversed elements : List α}
    (reversedAre : ∀ other ∈ reversed, members other)
    (areMembers : ∀ element ∈ elements, members element)
    (inOrder : InOrder precedes reversed.reverse) :
    InOrder precedes (insertAll precedes reversed elements).reverse := by
  induction elements generalizing reversed with
  | nil => exact inOrder
  | cons element elements ih =>
      obtain ⟨isMember, restAre⟩ := List.forall_mem_cons.mp areMembers
      refine ih (fun other isOther => ?_) restAre
        (inOrder_insertReversed orders isMember reversedAre inOrder)
      rcases List.mem_cons.mp ((perm_insertReversed _ element reversed).mem_iff.mp isOther) with
        rfl | inReversed
      · exact isMember
      · exact reversedAre other inReversed

/-- Sorting puts the elements in order. -/
theorem inOrder_sort {elements : List α} (areMembers : ∀ element ∈ elements, members element) :
    InOrder precedes (sort precedes elements) :=
  inOrder_insertAll orders (by simp) areMembers .nil

theorem precedes_self {element : α} (isMember : members element) :
    precedes element element = false := by
  cases before : precedes element element with
  | false => rfl
  | true => exact before.symm.trans (orders.asymm isMember isMember before)

/-- Neither of two elements must come before the first of them in order. -/
theorem sortTwo_lowest {first second : α} (firstIs : members first) (secondIs : members second) :
    precedes first (sortTwo precedes first second).1 = false ∧
      precedes second (sortTwo precedes first second).1 = false := by
  unfold sortTwo
  split
  case isTrue before =>
    exact ⟨orders.asymm secondIs firstIs before, precedes_self orders secondIs⟩
  case isFalse notBefore => exact ⟨precedes_self orders firstIs, Bool.not_eq_true _ ▸ notBefore⟩

/-- The second of two elements in order must come before neither. -/
theorem sortTwo_highest {first second : α} (firstIs : members first) (secondIs : members second) :
    precedes (sortTwo precedes first second).2 first = false ∧
      precedes (sortTwo precedes first second).2 second = false := by
  unfold sortTwo
  split
  case isTrue before =>
    exact ⟨precedes_self orders firstIs, orders.asymm secondIs firstIs before⟩
  case isFalse notBefore => exact ⟨Bool.not_eq_true _ ▸ notBefore, precedes_self orders secondIs⟩

theorem sortTwo_inOrder {first second : α} (firstIs : members first) (secondIs : members second) :
    precedes (sortTwo precedes first second).2 (sortTwo precedes first second).1 = false := by
  unfold sortTwo
  split
  case isTrue before => exact orders.asymm secondIs firstIs before
  case isFalse notBefore => exact Bool.not_eq_true _ ▸ notBefore

/-- Two elements put in order between two others. -/
theorem inOrder_between {lowest highest left right : α} (lowestIs : members lowest)
    (highestIs : members highest)
    (leftBetween : members left ∧ precedes left lowest = false ∧ precedes highest left = false)
    (rightBetween : members right ∧ precedes right lowest = false ∧
      precedes highest right = false) :
    (∀ element ∈ [lowest, (sortTwo precedes left right).1, (sortTwo precedes left right).2,
      highest], members element) ∧
      InOrder precedes [lowest, (sortTwo precedes left right).1, (sortTwo precedes left right).2,
        highest] := by
  obtain ⟨leftIs, leftAbove, leftBelow⟩ := leftBetween
  obtain ⟨rightIs, rightAbove, rightBelow⟩ := rightBetween
  have twoInOrder := sortTwo_inOrder orders leftIs rightIs
  have ends := orders.trans lowestIs leftIs highestIs leftAbove leftBelow
  rcases sortTwo_eq precedes left right with same | same <;> rw [same] at twoInOrder ⊢ <;>
    simp_all [InOrder]

theorem inOrder_sortFour {first second third fourth : α} (firstIs : members first)
    (secondIs : members second) (thirdIs : members third) (fourthIs : members fourth) :
    (∀ element ∈ sortFour precedes first second third fourth, members element) ∧
      InOrder precedes (sortFour precedes first second third fourth) := by
  simp only [sortFour]
  obtain ⟨lowIs, highIs⟩ := members_sortTwo precedes firstIs secondIs
  obtain ⟨lowIs', highIs'⟩ := members_sortTwo precedes thirdIs fourthIs
  have lowHigh := sortTwo_inOrder orders firstIs secondIs
  have lowHigh' := sortTwo_inOrder orders thirdIs fourthIs
  generalize (sortTwo precedes first second).1 = low at *
  generalize (sortTwo precedes first second).2 = high at *
  generalize (sortTwo precedes third fourth).1 = low' at *
  generalize (sortTwo precedes third fourth).2 = high' at *
  obtain ⟨lowestIs, -⟩ := members_sortTwo precedes lowIs lowIs'
  obtain ⟨-, highestIs⟩ := members_sortTwo precedes highIs highIs'
  obtain ⟨lowestLow, lowestLow'⟩ := sortTwo_lowest orders lowIs lowIs'
  obtain ⟨highestHigh, highestHigh'⟩ := sortTwo_highest orders highIs highIs'
  -- All four elements lie between the lower low one and the higher high one.
  have lowBelow := orders.trans lowIs highIs highestIs lowHigh highestHigh
  have highAbove := orders.trans lowestIs lowIs highIs lowestLow lowHigh
  have lowBelow' := orders.trans lowIs' highIs' highestIs lowHigh' highestHigh'
  have highAbove' := orders.trans lowestIs lowIs' highIs' lowestLow' lowHigh'
  refine inOrder_between orders lowestIs highestIs ?_ ?_
  · split
    · exact ⟨lowIs, lowestLow, lowBelow⟩
    · split
      · exact ⟨lowIs', lowestLow', lowBelow'⟩
      · exact ⟨highIs, highAbove, highestHigh⟩
  · split
    · exact ⟨highIs', highAbove', highestHigh'⟩
    · split
      · exact ⟨highIs, highAbove, highestHigh⟩
      · exact ⟨lowIs', lowestLow', lowBelow'⟩

/-- A half of a stretch is put in order. -/
theorem inOrder_sortHalf (long : Bool) {elements : List α}
    (areMembers : ∀ element ∈ elements, members element) :
    (∀ element ∈ sortHalf precedes long elements, members element) ∧
      InOrder precedes (sortHalf precedes long elements) := by
  have sorted : (∀ element ∈ sort precedes elements, members element) ∧
      InOrder precedes (sort precedes elements) :=
    ⟨fun element member => areMembers element ((perm_sort precedes elements).mem_iff.mp member),
      inOrder_sort orders areMembers⟩
  fun_cases sortHalf
  case case1 first second third fourth rest isLong =>
    simp only [List.forall_mem_cons] at areMembers
    obtain ⟨firstIs, secondIs, thirdIs, fourthIs, restAre⟩ := areMembers
    obtain ⟨fourAre, fourInOrder⟩ := inOrder_sortFour orders firstIs secondIs thirdIs fourthIs
    refine ⟨fun element member => ?_, inOrder_insertAll orders (by simpa using fourAre) restAre
      (by rwa [List.reverse_reverse])⟩
    have inserted := (perm_insertAll precedes _ rest).mem_iff.mp (List.mem_reverse.mp member)
    exact (List.mem_append.mp inserted).elim (restAre element)
      fun inFour => fourAre element (List.mem_reverse.mp inFour)
  case case2 => exact sorted
  case case3 => exact sorted

end Orders

theorem length_sortHalf (long : Bool) (elements : List α) :
    (sortHalf precedes long elements).length = elements.length := by
  have sorted := (perm_sort precedes elements).length_eq
  fun_cases sortHalf
  case case1 first second third fourth rest isLong =>
    rw [List.length_reverse, (perm_insertAll precedes _ rest).length_eq]
    simp [sortFour]
  case case2 => exact sorted
  case case3 => exact sorted

section Merge

variable {takesLeft : α → α → Bool} {lefts rights : List α}

/-- Two lists cut so that a merge yields what is before the cuts first. -/
structure IsCut (takesLeft : α → α → Bool) (lefts rights : List α) (leftCut rightCut : Nat) :
    Prop where
  left : ∀ left ∈ lefts.take leftCut, ∀ right ∈ rights.drop rightCut, takesLeft left right = true
  right : ∀ right ∈ rights.take rightCut, ∀ left ∈ lefts.drop leftCut,
    takesLeft left right = false

/-- What a merge has taken from two lists is cut off from them. -/
theorem isCut_fromLeft (takesLeft : α → α → Bool) (leftsAre : ∀ left ∈ lefts, members left)
    (rightsAre : ∀ right ∈ rights, members right)
    (leftsKeep : lefts.Pairwise fun earlier later => ∀ right, members right →
      takesLeft later right = true → takesLeft earlier right = true)
    (rightsKeep : rights.Pairwise fun earlier later => ∀ left, members left →
      takesLeft left earlier = true → takesLeft left later = true)
    {count : Nat} (enoughLeft : count ≤ lefts.length) (enoughRight : count ≤ rights.length) :
    fromLeft takesLeft count lefts rights ≤ count ∧
      IsCut takesLeft lefts rights (fromLeft takesLeft count lefts rights)
        (count - fromLeft takesLeft count lefts rights) := by
  induction count generalizing lefts rights with
  | zero => exact ⟨Nat.le_refl 0, by simp [fromLeft], by simp⟩
  | succ count ih =>
      obtain ⟨left, lefts, rfl⟩ := List.exists_cons_of_length_pos (Nat.zero_lt_of_lt enoughLeft)
      obtain ⟨right, rights, rfl⟩ := List.exists_cons_of_length_pos (Nat.zero_lt_of_lt enoughRight)
      obtain ⟨leftIs, othersLeft⟩ := List.forall_mem_cons.mp leftsAre
      obtain ⟨rightIs, othersRight⟩ := List.forall_mem_cons.mp rightsAre
      obtain ⟨leftKeeps, restLeft⟩ := List.pairwise_cons.mp leftsKeep
      obtain ⟨rightKeeps, restRight⟩ := List.pairwise_cons.mp rightsKeep
      rw [fromLeft]
      split
      case isTrue taken =>
        obtain ⟨bounded, cut⟩ := ih othersLeft rightsAre restLeft rightsKeep
          (Nat.le_of_succ_le_succ enoughLeft) (Nat.le_of_succ_le enoughRight)
        rw [Nat.add_sub_add_right]
        refine ⟨Nat.succ_le_succ bounded, fun other isTaken later behind => ?_, cut.right⟩
        rw [List.take_succ_cons, List.mem_cons] at isTaken
        rcases isTaken with rfl | inLefts
        · rcases List.mem_cons.mp (List.mem_of_mem_drop behind) with rfl | inRights
          · exact taken
          · exact rightKeeps later inRights other leftIs taken
        · exact cut.left other inLefts later behind
      case isFalse notTaken =>
        obtain ⟨bounded, cut⟩ := ih leftsAre othersRight leftsKeep restRight
          (Nat.le_of_succ_le enoughLeft) (Nat.le_of_succ_le_succ enoughRight)
        rw [Nat.succ_sub bounded]
        refine ⟨Nat.le_succ_of_le bounded, cut.left, fun other isTaken later behind => ?_⟩
        rw [List.take_succ_cons, List.mem_cons] at isTaken
        rcases isTaken with rfl | inRights
        · rcases List.mem_cons.mp (List.mem_of_mem_drop behind) with rfl | inLefts
          · exact Bool.not_eq_true _ ▸ notTaken
          · exact Bool.not_eq_true _ ▸ mt (leftKeeps later inLefts other rightIs) notTaken
        · exact cut.right other inRights later behind

theorem exists_mem_take_drop {elements : List α} {shorter longer : Nat} (less : shorter < longer)
    (inside : longer ≤ elements.length) :
    ∃ element, element ∈ elements.take longer ∧ element ∈ elements.drop shorter := by
  have inList : shorter < elements.length := by omega
  refine ⟨elements[shorter], List.mem_take_iff_getElem.mpr ⟨shorter, by omega, rfl⟩, ?_⟩
  rw [List.drop_eq_getElem_cons inList]
  exact List.mem_cons_self

namespace IsCut

variable {leftCut rightCut leftCut' rightCut' : Nat}

/-- The same cut seen from the other ends of the lists. -/
theorem reverse (cut : IsCut takesLeft lefts.reverse rights.reverse leftCut rightCut) :
    IsCut (fun left right => !takesLeft left right) lefts rights (lefts.length - leftCut)
      (rights.length - rightCut) := by
  constructor
  · intro left isLeft right isRight
    rw [Bool.not_eq_true']
    refine cut.right right ?_ left ?_
    · rw [List.take_reverse]
      exact List.mem_reverse.mpr isRight
    · rw [List.drop_reverse]
      exact List.mem_reverse.mpr isLeft
  · intro right isRight left isLeft
    rw [Bool.not_eq_false']
    refine cut.left left ?_ right ?_
    · rw [List.take_reverse]
      exact List.mem_reverse.mpr isLeft
    · rw [List.drop_reverse]
      exact List.mem_reverse.mpr isRight

/-- Of two cuts, none goes further in the left list and less far in the right one. -/
theorem not_crossing (cut : IsCut takesLeft lefts rights leftCut rightCut)
    (other : IsCut takesLeft lefts rights leftCut' rightCut') (inLeft : leftCut ≤ lefts.length)
    (inRight : rightCut' ≤ rights.length) : ¬ (leftCut' < leftCut ∧ rightCut < rightCut') := by
  rintro ⟨shorter, longer⟩
  obtain ⟨left, inTake, inDrop⟩ := exists_mem_take_drop shorter inLeft
  obtain ⟨right, inTake', inDrop'⟩ := exists_mem_take_drop longer inRight
  exact Bool.false_ne_true
    ((other.right right inTake' left inDrop).symm.trans (cut.left left inTake right inDrop'))

end IsCut

end Merge

theorem mem_of_mem_stretches (precedes : α → α → Bool) {longRun : Nat} {elements stretch : List α}
    (isStretch : stretch ∈ stretches precedes longRun elements) {element : α}
    (inStretch : element ∈ stretch) : element ∈ elements := by
  fun_induction stretches precedes longRun elements with
  | case1 => simp at isStretch
  | case2 first rest isRun ih =>
      exact List.mem_cons_of_mem _ (List.mem_of_mem_drop (ih isStretch))
  | case3 first rest notRun ih =>
      rcases List.mem_cons.mp isStretch with rfl | inRest
      · rcases List.mem_cons.mp inStretch with rfl | inTake
        · exact List.mem_cons_self
        · exact List.mem_cons_of_mem _ (List.mem_of_mem_take inTake)
      · exact List.mem_cons_of_mem _ (List.mem_of_mem_drop (ih inRest))

section Ends

variable (orders : OrdersAmong precedes members)

include orders

/-- Elements are merged from the front as long as both lists last. -/
theorem isCut_front {lefts rights : List α} (leftsAre : ∀ left ∈ lefts, members left)
    (rightsAre : ∀ right ∈ rights, members right) (leftsInOrder : InOrder precedes lefts)
    (rightsInOrder : InOrder precedes rights) {count taken : Nat}
    (isTaken : fromLeft (fun left right => !precedes right left) count lefts rights = taken)
    (enoughLeft : count ≤ lefts.length) (enoughRight : count ≤ rights.length) :
    taken ≤ count ∧
      IsCut (fun left right => !precedes right left) lefts rights taken (count - taken) := by
  subst isTaken
  refine isCut_fromLeft _ leftsAre rightsAre ?_ ?_ enoughLeft enoughRight
  · refine leftsInOrder.imp_of_mem fun isEarlier isLater keeps right rightIs before => ?_
    rw [Bool.not_eq_true'] at before ⊢
    exact orders.trans (leftsAre _ isEarlier) (leftsAre _ isLater) rightIs keeps before
  · refine rightsInOrder.imp_of_mem fun isEarlier isLater keeps left leftIs before => ?_
    rw [Bool.not_eq_true'] at before ⊢
    exact orders.trans leftIs (rightsAre _ isEarlier) (rightsAre _ isLater) before keeps

/-- Elements are merged from the back as long as both lists last. -/
theorem isCut_back {lefts rights : List α} (leftsAre : ∀ left ∈ lefts, members left)
    (rightsAre : ∀ right ∈ rights, members right) (leftsInOrder : InOrder precedes lefts)
    (rightsInOrder : InOrder precedes rights) {count taken : Nat}
    (isTaken : fromLeft (fun left right => precedes right left) count lefts.reverse
      rights.reverse = taken)
    (enoughLeft : count ≤ lefts.length) (enoughRight : count ≤ rights.length) :
    taken ≤ count ∧
      IsCut (fun left right => !precedes right left) lefts rights (lefts.length - taken)
        (rights.length - (count - taken)) := by
  subst isTaken
  refine (isCut_fromLeft (fun left right => precedes right left)
    (fun left member => leftsAre left (List.mem_reverse.mp member))
    (fun right member => rightsAre right (List.mem_reverse.mp member)) ?_ ?_ (by simpa)
    (by simpa)).imp_right IsCut.reverse
  · refine List.pairwise_reverse.mpr ?_
    refine leftsInOrder.imp_of_mem fun isEarlier isLater keeps right rightIs before => ?_
    by_contra notBefore
    rw [Bool.not_eq_true] at notBefore
    exact Bool.false_ne_true ((orders.trans (leftsAre _ isEarlier) (leftsAre _ isLater) rightIs
      keeps notBefore).symm.trans before)
  · refine List.pairwise_reverse.mpr ?_
    refine rightsInOrder.imp_of_mem fun isEarlier isLater keeps left leftIs before => ?_
    by_contra notBefore
    rw [Bool.not_eq_true] at notBefore
    exact Bool.false_ne_true ((orders.trans leftIs (rightsAre _ isEarlier) (rightsAre _ isLater)
      notBefore keeps).symm.trans before)

/-- Halves that are in order can be merged from both ends. -/
theorem endsMeet_of_inOrder {lefts rights : List α} (leftsAre : ∀ left ∈ lefts, members left)
    (rightsAre : ∀ right ∈ rights, members right) (leftsInOrder : InOrder precedes lefts)
    (rightsInOrder : InOrder precedes rights)
    (half : rights.length = lefts.length ∨ rights.length = lefts.length + 1) :
    endsMeet precedes lefts rights = true := by
  have enough : lefts.length ≤ rights.length := by omega
  unfold endsMeet
  generalize isFront : fromLeft (fun left right => !precedes right left) lefts.length lefts
    rights = front
  generalize isBack : fromLeft (fun left right => precedes right left) lefts.length lefts.reverse
    rights.reverse = back
  obtain ⟨frontBounded, frontCut⟩ := isCut_front orders leftsAre rightsAre leftsInOrder
    rightsInOrder isFront (Nat.le_refl _) enough
  obtain ⟨backBounded, backCut⟩ := isCut_back orders leftsAre rightsAre leftsInOrder
    rightsInOrder isBack (Nat.le_refl _) enough
  -- With the middle element, if there is one, both cuts are at the same place.
  have notBeyond := frontCut.not_crossing backCut frontBounded (Nat.sub_le _ _)
  have notShort := backCut.not_crossing frontCut (Nat.sub_le _ _) (by omega)
  simp only [Bool.or_eq_true, Bool.and_eq_true, beq_iff_eq]
  omega

theorem halvesMeet_of_orders {stretch : List α}
    (areMembers : ∀ element ∈ stretch, members element) : halvesMeet precedes stretch = true := by
  obtain ⟨leftsAre, leftsInOrder⟩ := inOrder_sortHalf orders (decide (8 ≤ stretch.length))
    (fun element inTake => areMembers element (List.mem_of_mem_take inTake) :
      ∀ element ∈ stretch.take (stretch.length / 2), members element)
  obtain ⟨rightsAre, rightsInOrder⟩ := inOrder_sortHalf orders (decide (8 ≤ stretch.length))
    (fun element inDrop => areMembers element (List.mem_of_mem_drop inDrop) :
      ∀ element ∈ stretch.drop (stretch.length / 2), members element)
  refine endsMeet_of_inOrder orders leftsAre rightsAre leftsInOrder rightsInOrder ?_
  rw [length_sortHalf, length_sortHalf, List.length_take, List.length_drop]
  omega

/-- The sort does not stop where its test is a total order. -/
theorem sort?_of_orders {elements : List α} (areMembers : ∀ element ∈ elements, members element) :
    sort? precedes elements = some (sort precedes elements) := by
  have meet : (stretches precedes (min (elements.length - elements.length / 2) 64) elements).all
      (halvesMeet precedes) = true := by
    refine List.all_eq_true.mpr fun stretch isStretch => halvesMeet_of_orders orders ?_
    exact fun element inStretch =>
      areMembers element (mem_of_mem_stretches precedes isStretch inStretch)
  rw [sort?, noticesDisorder]
  simp [meet]

end Ends

end Sorting

end BatchFlow
