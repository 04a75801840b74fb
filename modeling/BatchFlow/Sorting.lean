import BatchFlow.Scalar

/-!
# Stable sorting

Each element in turn moves towards the front past the elements that must come
after it, so that equal elements keep their order.

A test that is no total order can make the sort stop the program.  A list of more
than twenty elements is cut into stretches, the two halves of a stretch are sorted
and then merged from both ends at once, and the program stops if the two ends do not
meet.  Up to sixty-four elements these are the stretches that are merged; those of a
longer list are found with pivots, which is left out here.  The sort never stops where
the test is a total order, and where it is not, its documentation leaves open whether
it does, and in which order the elements come out if it does not.
-/

namespace BatchFlow

namespace Sorting

/-- Put an element into a list kept in reverse order, past the elements that it
must precede. -/
def insertReversed {α : Type} (precedes : α → α → Bool) (element : α) :
    List α → List α
  | [] => [element]
  | last :: earlier =>
      if precedes element last then last :: insertReversed precedes element earlier
      else element :: last :: earlier

/-- Put elements one after another into a list kept in reverse order. -/
def insertAll {α : Type} (precedes : α → α → Bool) (reversed elements : List α) : List α :=
  elements.foldl (fun reversed element => insertReversed precedes element reversed) reversed

/-- The stable insertion sort by a strict test. -/
def sort {α : Type} (precedes : α → α → Bool) (elements : List α) : List α :=
  (insertAll precedes [] elements).reverse

section Stretches

variable {α : Type} (precedes : α → α → Bool)

/-- The number of elements that go on in a direction after the last one. -/
def goingOn (descending : Bool) : (last : α) → List α → Nat
  | _, [] => 0
  | last, next :: rest =>
      if precedes next last == descending then goingOn descending next rest + 1 else 0

/-- The number of elements after the first that continue its run, which descends
strictly or does not descend at all. -/
def runAfter (first : α) : List α → Nat
  | [] => 0
  | second :: rest => goingOn precedes (precedes second first) second rest + 1

/-- The stretches of at most thirty-two elements whose halves are merged.  A long run
is left as it is, or turned round. -/
def stretches (longRun : Nat) : List α → List (List α)
  | [] => []
  | first :: rest =>
      if longRun ≤ runAfter precedes first rest + 1 then
        stretches longRun (rest.drop (runAfter precedes first rest))
      else (first :: rest.take 31) :: stretches longRun (rest.drop 31)
termination_by elements => elements.length
decreasing_by
  all_goals exact Nat.lt_succ_of_le (List.drop_sublist ..).length_le

/-- Two elements in order. -/
def sortTwo (first second : α) : α × α :=
  if precedes second first then (second, first) else (first, second)

/-- Four elements in order, after five comparisons. -/
def sortFour (first second third fourth : α) : List α :=
  let one := sortTwo precedes first second
  let other := sortTwo precedes third fourth
  let otherLow := precedes other.1 one.1
  let otherHigh := precedes other.2 one.2
  let lowest := (sortTwo precedes one.1 other.1).1
  let highest := (sortTwo precedes one.2 other.2).2
  -- The two elements between these, the one that came first on the left.
  let left := if otherLow then one.1 else if otherHigh then other.1 else one.2
  let right := if otherHigh then other.2 else if otherLow then one.2 else other.1
  let between := sortTwo precedes left right
  [lowest, between.1, between.2, highest]

/-- One half of a stretch in order.  The halves of a long stretch start with four
elements. -/
def sortHalf (long : Bool) : List α → List α
  | first :: second :: third :: fourth :: rest =>
      if long then
        (insertAll precedes (sortFour precedes first second third fourth).reverse rest).reverse
      else sort precedes (first :: second :: third :: fourth :: rest)
  | short => sort precedes short

/-- The number of elements that come from the left among so many elements merged from
two lists. -/
def fromLeft (takesLeft : α → α → Bool) : (count : Nat) → List α → List α → Nat
  | count + 1, left :: lefts, right :: rights =>
      if takesLeft left right then fromLeft takesLeft count lefts (right :: rights) + 1
      else fromLeft takesLeft count (left :: lefts) rights
  | _, _, _ => 0

/-- Whether two lists that are merged from both ends at once meet: half of the elements
are taken from the front and half from the back, and a middle one may be left over. -/
def endsMeet (left right : List α) : Bool :=
  let count := left.length
  let taken := fromLeft (fun left right => !precedes right left) count left right
    + fromLeft (fun left right => precedes right left) count left.reverse right.reverse
  taken == count || taken + 1 == count && right.length == count + 1

/-- Whether the halves of a stretch can be merged. -/
def halvesMeet (stretch : List α) : Bool :=
  let long := decide (8 ≤ stretch.length)
  let half := stretch.length / 2
  endsMeet precedes (sortHalf precedes long (stretch.take half))
    (sortHalf precedes long (stretch.drop half))

/-- Whether sorting some elements shows that the test is no total order. -/
def noticesDisorder (elements : List α) : Bool :=
  let count := elements.length
  decide (20 < count) && !(stretches precedes (min (count - count / 2) 64) elements).all
    (halvesMeet precedes)

/-- The elements in order, if the sort does not stop the program. -/
def sort? (elements : List α) : Option (List α) :=
  if noticesDisorder precedes elements then none else some (sort precedes elements)

end Stretches

/-- Scalars in ascending order. -/
def scalars? (values : List Scalar) : Option (List Scalar) :=
  sort? (fun first second => first.order second == .lt) values

/-- Rows in ascending order. -/
def rows? (values : List Row) : Option (List Row) :=
  sort? (fun first second => Scalar.rowOrder first second == .lt) values

end Sorting

end BatchFlow
