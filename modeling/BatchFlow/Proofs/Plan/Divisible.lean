import BatchFlow.Proofs.Task.Splitting

/-!
# Plans whose work can be divided

If nothing limits rows, nothing sorted is grouped, and replicated loads feed
replicated sides only, then both phases of a plan can be evaluated in parts.
The map phase even keeps the order of the rows that reach a grouping operator.
-/

namespace BatchFlow

namespace SubPlan

variable {plan : SubPlan}

/-- A load that some join reads in full in every task. -/
def Replicated (plan : SubPlan) (id : OpId) : Prop :=
  id ∈ plan.broadcastLoads.elements

theorem replicated_iff {id : OpId} :
    plan.Replicated id ↔
      ∃ operator ∈ plan.operators, ∃ keys fragment, operator.operation = .join keys fragment ∧
        ∃ side : Nat, operator.inputs[side]? = some id ∧ side ≠ fragment.toNat ∧
          ∃ source, plan.get? id = some source ∧ source.operation.isLoad = true := by
  rw [Replicated, broadcastLoads, OrderedSet.mem_ofList, List.mem_flatMap]
  refine exists_congr fun operator => and_congr_right fun _ => ?_
  cases kind : operator.operation with
  | join keys fragment =>
      simp only [List.mem_map, List.mem_filter, Bool.and_eq_true, bne_iff_ne, Option.any_eq_true,
        Operation.join.injEq]
      constructor
      · rintro ⟨⟨input, side⟩, ⟨inZip, different, source, found, isLoad⟩, rfl⟩
        exact ⟨keys, fragment, ⟨rfl, rfl⟩, side, List.mem_zipIdx_iff_getElem?.mp inZip, different,
          source, found, isLoad⟩
      · rintro ⟨_, _, ⟨rfl, rfl⟩, side, atSide, different, source, found, isLoad⟩
        exact ⟨(id, side), ⟨List.mem_zipIdx_iff_getElem?.mpr atSide, different, source, found,
          isLoad⟩, rfl⟩
  | _ => simp

theorem isLoad_of_replicated {id : OpId} {operator : Operator} (replicated : plan.Replicated id)
    (found : plan.get? id = some operator) : operator.operation.isLoad = true := by
  obtain ⟨_, _, _, _, _, _, _, _, source, foundSource, isLoad⟩ := replicated_iff.mp replicated
  obtain rfl := Option.some.inj (found.symm.trans foundSource)
  exact isLoad

theorem WellFormed.replicated_side (wellFormed : plan.WellFormed) {id input : OpId}
    {operator : Operator} {keys : List UInt64} {fragment : UInt64} {side : Nat}
    (found : plan.get? id = some operator) (kind : operator.operation = .join keys fragment)
    (atSide : operator.inputs[side]? = some input) (different : side ≠ fragment.toNat) :
    plan.Replicated input := by
  obtain ⟨source, foundSource, isLoad⟩ := (wellFormed.operators id operator found).replicatedSides
    keys fragment kind side input atSide different
  exact replicated_iff.mpr ⟨operator, mem_operators.mpr ⟨id, found⟩, keys, fragment, kind, side,
    atSide, different, source, foundSource, isLoad⟩

/-- What lets the rows of a plan not depend on how its work is cut into tasks. -/
structure Divisible (plan : SubPlan) : Prop where
  noLimit : ∀ id operator, plan.get? id = some operator → operator.operation.isLimit = false
  noSortedGroups : ∀ sort operator, plan.get? sort = some operator →
    operator.operation.isSort = true → ∀ package ∈ plan.packages,
      ¬ Relation.TransGen plan.Feeds sort package
  replicasOnly : ∀ load reader operator, plan.Replicated load →
    plan.get? reader = some operator → load ∈ operator.inputs →
      ∃ keys fragment, operator.operation = .join keys fragment ∧
        operator.inputs[fragment.toNat]? ≠ some load

/-- An operator that is no sort and not downstream of one. -/
def Unsorted (plan : SubPlan) (id : OpId) : Prop :=
  ∀ sort operator, plan.get? sort = some operator → operator.operation.isSort = true →
    ¬ Relation.ReflTransGen plan.Feeds sort id

theorem Unsorted.of_feeds {id consumer : OpId} (unsorted : plan.Unsorted consumer)
    (edge : plan.Feeds id consumer) : plan.Unsorted id :=
  fun sort operator found isSort path => unsorted sort operator found isSort (path.tail edge)

namespace Divisible

variable (divisible : plan.Divisible)

include divisible

/-- No operator has a replicated load as its main input. -/
theorem not_replicated_main {id main : OpId} {operator : Operator}
    (found : plan.get? id = some operator) (isMain : operator.mainInput? = some main) :
    ¬ plan.Replicated main := by
  intro replicated
  obtain ⟨keys, fragment, kind, otherSide⟩ := divisible.replicasOnly main id operator replicated
    found (Operator.mainInput?_mem isMain)
  simp only [Operator.mainInput?, kind] at isMain
  exact otherSide isMain

variable (wellFormed : plan.WellFormed)

include wellFormed

theorem package_unsorted {package main : OpId} {operator : Operator}
    (found : plan.get? package = some operator) (isPackage : operator.operation.isPackage = true)
    (isMain : operator.mainInput? = some main) : plan.Unsorted main := by
  intro sort sorter foundSorter isSort path
  have edge : plan.Feeds main package := ⟨operator, found, Operator.mainInput?_mem isMain⟩
  exact divisible.noSortedGroups sort sorter foundSorter isSort package
    (wellFormed.ownIds.mem_packages.mpr ⟨operator, found, isPackage⟩) (.tail' path edge)

variable {phases : Phases} (split : plan.phases = .ok phases)

include split

/-- The map phase can be evaluated in parts, which keep the order of all rows
that are not sorted. -/
theorem splittable_map : plan.Splittable plan.Unsorted plan.Replicated phases.map where
  exist id member := ((wellFormed.mem_map_iff split).mp member).1
  noLimit id _ operator found := divisible.noLimit id operator found
  sharedLoads id operator replicated found := isLoad_of_replicated replicated found
  mainBefore before id after operator main atId found _ isMain :=
    ⟨wellFormed.inputsFirst_map split before id after operator atId found main
      (Operator.mainInput?_mem isMain), divisible.not_replicated_main found isMain⟩
  othersShared id _ operator keys fragment found kind side input atSide different :=
    wellFormed.replicated_side found kind atSide different
  keepsOrder id member operator found unsorted := by
    have notReduce := ((wellFormed.mem_map_iff split).mp member).2
    refine ⟨?_, ?_, fun main isMain => ?_⟩
    · by_contra isPackage
      have package := wellFormed.ownIds.mem_packages.mpr
        ⟨operator, found, Bool.eq_true_of_not_eq_false isPackage⟩
      exact notReduce (wellFormed.ownIds.mem_reduceSide.mpr ⟨id, package, .refl⟩)
    · by_contra isSort
      exact unsorted id operator found (Bool.eq_true_of_not_eq_false isSort) .refl
    · exact unsorted.of_feeds ⟨operator, found, Operator.mainInput?_mem isMain⟩

/-- The reduce phase can be evaluated in parts. -/
theorem splittable_reduce :
    plan.Splittable (fun _ => False) plan.Replicated phases.reduce where
  exist id member := ((wellFormed.mem_reduce_iff split).mp member).1
  noLimit id _ operator found := divisible.noLimit id operator found
  sharedLoads id operator replicated found := isLoad_of_replicated replicated found
  mainBefore before id after operator main atId found notPackage isMain := by
    have inReduce := ((wellFormed.mem_reduce_iff split).mp (by simp [atId] : id ∈ phases.reduce)).2
    have mainReduce := wellFormed.reduceSide_mainInput found notPackage isMain inReduce
    exact ⟨wellFormed.input_before_reduce split atId found (Operator.mainInput?_mem isMain)
      mainReduce, divisible.not_replicated_main found isMain⟩
  othersShared id _ operator keys fragment found kind side input atSide different :=
    wellFormed.replicated_side found kind atSide different
  keepsOrder _ _ _ _ never := never.elim

end Divisible

end SubPlan

end BatchFlow
