import BatchFlow.Proofs.Plan.WellFormed
import Mathlib.Logic.Relation

/-!
# Appending an operator

An operator under a new identifier reads operators that are there, and none of
them reads it.  So it adds no edge between the others, and what leads to it
leads to one of its inputs first.
-/

namespace BatchFlow

namespace SubPlan

variable {plan : SubPlan} {operator : Operator}

theorem get?_insert (plan : SubPlan) (operator : Operator) (id : OpId) :
    (plan.insert operator).get? id = if id = operator.id then some operator else plan.get? id :=
  OrderedMap.get?_insert ..

theorem feeds_insert {id consumer : OpId} :
    (plan.insert operator).Feeds id consumer ↔
      if consumer = operator.id then id ∈ operator.inputs else plan.Feeds id consumer := by
  unfold Feeds
  rw [get?_insert]
  split <;> simp

theorem OwnIds.mem_packages_insert (ownIds : plan.OwnIds) {package : OpId} :
    package ∈ (plan.insert operator).packages ↔
      if package = operator.id then operator.operation.isPackage = true
      else package ∈ plan.packages := by
  rw [(ownIds.insert operator).mem_packages, get?_insert]
  split
  case isTrue => simp
  case isFalse => exact ownIds.mem_packages.symm

/-- Nothing in a well-formed plan reads an operator that is not there. -/
theorem WellFormed.not_feeds_of_absent (wellFormed : plan.WellFormed) {id consumer : OpId}
    (absent : plan.get? id = none) : ¬ plan.Feeds id consumer := by
  rintro ⟨reader, found, reads⟩
  obtain ⟨source, foundSource⟩ :=
    (wellFormed.operators consumer reader found).inputsExist id reads
  rw [absent] at foundSource
  cases foundSource

section Appended

variable (wellFormed : plan.WellFormed) (absent : plan.get? operator.id = none)

include absent

theorem OwnIds.mem_packages_insert_of_mem (ownIds : plan.OwnIds) {package : OpId}
    (member : package ∈ plan.packages) : package ∈ (plan.insert operator).packages := by
  have notNew : package ≠ operator.id := by
    rintro rfl
    obtain ⟨found, isOld, -⟩ := ownIds.mem_packages.mp member
    rw [absent] at isOld
    cases isOld
  rw [ownIds.mem_packages_insert, if_neg notNew]
  exact member

theorem feeds_insert_of_feeds {id consumer : OpId} (edge : plan.Feeds id consumer) :
    (plan.insert operator).Feeds id consumer := by
  have notNew : consumer ≠ operator.id := by
    rintro rfl
    obtain ⟨reader, found, -⟩ := edge
    rw [absent] at found
    cases found
  rw [feeds_insert, if_neg notNew]
  exact edge

include wellFormed

/-- A path leads to another operator as before, or to the new one through an input. -/
theorem transGen_insert_iff {first last : OpId} :
    Relation.TransGen (plan.insert operator).Feeds first last ↔
      if last = operator.id then
        ∃ input ∈ operator.inputs, Relation.ReflTransGen plan.Feeds first input
      else Relation.TransGen plan.Feeds first last := by
  constructor
  · intro path
    induction path with
    | single edge =>
        rw [feeds_insert] at edge
        split
        case isTrue isNew =>
          rw [if_pos isNew] at edge
          exact ⟨first, edge, .refl⟩
        case isFalse notNew =>
          rw [if_neg notNew] at edge
          exact .single edge
    | @tail middle last _ edge ih =>
        rw [feeds_insert] at edge
        split
        case isTrue isNew =>
          rw [if_pos isNew] at edge
          by_cases atNew : middle = operator.id
          · rwa [if_pos atNew] at ih
          · rw [if_neg atNew] at ih
            exact ⟨middle, edge, ih.to_reflTransGen⟩
        case isFalse notNew =>
          rw [if_neg notNew] at edge
          -- The path has not been at the new operator, which nothing reads.
          have notAtNew : middle ≠ operator.id := by
            rintro rfl
            exact wellFormed.not_feeds_of_absent absent edge
          rw [if_neg notAtNew] at ih
          exact ih.tail edge
  · intro path
    have oldEdge : plan.Feeds ≤ (plan.insert operator).Feeds :=
      fun _ _ => feeds_insert_of_feeds absent
    split at path
    case isTrue isNew =>
      obtain ⟨input, reads, front⟩ := path
      apply Relation.TransGen.tail'
      · exact Relation.ReflTransGen.mono oldEdge _ _ front
      · rw [feeds_insert, if_pos isNew]
        exact reads
    case isFalse => exact Relation.TransGen.mono oldEdge _ _ path

end Appended

end SubPlan

end BatchFlow
