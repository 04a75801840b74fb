import BatchFlow.Proofs.Plan.Order
import BatchFlow.Proofs.Plan.WellFormed
import Mathlib.Logic.Relation

/-!
# The phases of a well-formed plan

The reduce phase holds the grouping operators and everything reached from one.
In a well-formed plan every operator but a load has one main input, the fragment
side of a join or its only input; all other inputs are loads.  Following main
inputs therefore never leaves the map phase, and leaves the reduce phase only at
a grouping operator.
-/

namespace BatchFlow

open Results

namespace SubPlan

variable {plan : SubPlan}

section Reachability

theorem mem_reachedFrom {unseen worklist : List OpId} {id : OpId}
    (reached : id ∈ plan.reachedFrom unseen worklist) :
    ∃ start ∈ worklist, Relation.ReflTransGen (fun id consumer => consumer ∈ plan.consumers id)
      start id := by
  fun_induction reachedFrom plan unseen worklist with
  | case1 => simp at reached
  | case2 unseen next rest member ih =>
      rcases List.mem_cons.mp reached with rfl | later
      · exact ⟨id, by simp, .refl⟩
      · obtain ⟨start, inWork, path⟩ := ih later
        rcases List.mem_append.mp inWork with consumer | inRest
        · exact ⟨next, by simp, .head consumer path⟩
        · exact ⟨start, by simp [inRest], path⟩
  | case3 unseen next rest absent ih =>
      obtain ⟨start, inWork, path⟩ := ih reached
      exact ⟨start, by simp [inWork], path⟩

/-- The search reaches its worklist and the consumers of what it reaches. -/
theorem reachedFrom_closed {unseen worklist : List OpId} {id : OpId} (isUnseen : id ∈ unseen)
    (next : id ∈ worklist ∨ ∃ reached ∈ plan.reachedFrom unseen worklist,
      id ∈ plan.consumers reached) : id ∈ plan.reachedFrom unseen worklist := by
  fun_induction reachedFrom plan unseen worklist with
  | case1 => simp at isUnseen next
  | case2 unseen start rest member ih =>
      by_cases atStart : id = start
      · simp [atStart]
      · refine List.mem_cons_of_mem _ (ih ((List.mem_erase_of_ne atStart).mpr isUnseen) ?_)
        rcases next with inWork | ⟨reached, isReached, consumer⟩
        · have inRest : id ∈ rest := (List.mem_cons.mp inWork).resolve_left atStart
          exact .inl (by simp [inRest])
        · rcases List.mem_cons.mp isReached with rfl | later
          · exact .inl (by simp [consumer])
          · exact .inr ⟨reached, later, consumer⟩
  | case3 unseen start rest absent ih =>
      refine ih isUnseen ?_
      rcases next with inWork | reached
      · have different : id ≠ start := fun same => absent (same ▸ isUnseen)
        exact .inl ((List.mem_cons.mp inWork).resolve_left different)
      · exact .inr reached

/-- The operators downstream of another are those reached along consumers. -/
theorem OwnIds.mem_downstreamOf (ownIds : plan.OwnIds) {id later : OpId} :
    later ∈ (plan.downstreamOf id).elements ↔ Relation.TransGen plan.Feeds id later := by
  rw [downstreamOf, OrderedSet.mem_ofList]
  have sameEdges : (fun id consumer => consumer ∈ plan.consumers id) = plan.Feeds :=
    funext fun id => funext fun consumer => propext ownIds.mem_consumers
  constructor
  · intro reached
    obtain ⟨start, consumer, path⟩ := mem_reachedFrom reached
    rw [sameEdges] at path
    exact .head' (ownIds.mem_consumers.mp consumer) path
  · intro path
    have isOperator {id consumer : OpId} (edge : plan.Feeds id consumer) :
        consumer ∈ plan.operators.map Operator.id :=
      ownIds.mem_ids.mpr ⟨edge.choose, edge.choose_spec.1⟩
    induction path with
    | single edge =>
        exact reachedFrom_closed (isOperator edge) (.inl (ownIds.mem_consumers.mpr edge))
    | tail _ edge ih =>
        exact reachedFrom_closed (isOperator edge)
          (.inr ⟨_, ih, ownIds.mem_consumers.mpr edge⟩)

theorem OwnIds.mem_reduceSide (ownIds : plan.OwnIds) {id : OpId} :
    id ∈ plan.reduceSide ↔
      ∃ package ∈ plan.packages, Relation.ReflTransGen plan.Feeds package id := by
  simp only [reduceSide, List.mem_flatMap, List.mem_cons, ownIds.mem_downstreamOf,
    Relation.reflTransGen_iff_eq_or_transGen]

/-- What reads the reduce phase belongs to it. -/
theorem OwnIds.reduceSide_of_feeds (ownIds : plan.OwnIds) {id consumer : OpId}
    (edge : plan.Feeds id consumer) (member : id ∈ plan.reduceSide) :
    consumer ∈ plan.reduceSide := by
  obtain ⟨package, isPackage, path⟩ := ownIds.mem_reduceSide.mp member
  exact ownIds.mem_reduceSide.mpr ⟨package, isPackage, path.tail edge⟩

/-- What belongs to the reduce phase groups rows or reads the reduce phase. -/
theorem OwnIds.package_or_feeds_of_reduceSide (ownIds : plan.OwnIds) {id : OpId}
    (member : id ∈ plan.reduceSide) :
    id ∈ plan.packages ∨ ∃ input ∈ plan.reduceSide, plan.Feeds input id := by
  obtain ⟨package, isPackage, path⟩ := ownIds.mem_reduceSide.mp member
  rcases Relation.ReflTransGen.cases_tail path with rfl | ⟨input, front, edge⟩
  · exact .inl isPackage
  · exact .inr ⟨input, ownIds.mem_reduceSide.mpr ⟨package, isPackage, front⟩, edge⟩

end Reachability

/-- Keeping some operators of an order keeps inputs first. -/
theorem InputsFirst.filter {order : List OpId} (inputsFirst : plan.InputsFirst order)
    (test : OpId → Bool) {before after : List OpId} {id : OpId} {operator : Operator}
    (split : order.filter test = before ++ id :: after) (found : plan.get? id = some operator)
    {input : OpId} (reads : input ∈ operator.inputs) (kept : test input = true) :
    input ∈ before := by
  obtain ⟨front, back, rfl, rfl, atBack⟩ := List.filter_eq_append_iff.mp split
  obtain ⟨skipped, rest, rfl, noneKept, -, -⟩ := List.filter_eq_cons_iff.mp atBack
  have inFront := inputsFirst (front ++ skipped) id rest operator (by simp) found input reads
  rcases List.mem_append.mp inFront with early | late
  · exact List.mem_filter.mpr ⟨early, kept⟩
  · exact absurd kept (noneKept input late)

namespace WellFormed

theorem exists_phases (wellFormed : plan.WellFormed) :
    ∃ phases, plan.phases = .ok phases := by
  obtain ⟨order, ordered⟩ := wellFormed.ordered
  exact ⟨_, by rw [phases, ordered]⟩

variable (wellFormed : plan.WellFormed) {phases : Phases} (split : plan.phases = .ok phases)

include wellFormed split

theorem mem_map_iff {id : OpId} :
    id ∈ phases.map ↔ (∃ operator, plan.get? id = some operator) ∧ id ∉ plan.reduceSide := by
  obtain ⟨order, ordered⟩ := wellFormed.ordered
  obtain ⟨perm, -⟩ := wellFormed.ownIds.topologicalOrder_sound ordered
  simp only [SubPlan.phases, ordered] at split
  obtain rfl := Except.ok.inj split
  simp [perm.mem_iff, ← wellFormed.ownIds.mem_ids]

theorem mem_reduce_iff {id : OpId} :
    id ∈ phases.reduce ↔ (∃ operator, plan.get? id = some operator) ∧ id ∈ plan.reduceSide := by
  obtain ⟨order, ordered⟩ := wellFormed.ordered
  obtain ⟨perm, -⟩ := wellFormed.ownIds.topologicalOrder_sound ordered
  simp only [SubPlan.phases, ordered] at split
  obtain rfl := Except.ok.inj split
  simp [perm.mem_iff, ← wellFormed.ownIds.mem_ids]

/-- An operator is evaluated once in its phase. -/
theorem nodup_phases : phases.map.Nodup ∧ phases.reduce.Nodup := by
  obtain ⟨order, ordered⟩ := wellFormed.ordered
  obtain ⟨perm, -⟩ := wellFormed.ownIds.topologicalOrder_sound ordered
  have nodup : order.Nodup := perm.nodup_iff.mpr wellFormed.ownIds.nodup_ids
  simp only [SubPlan.phases, ordered] at split
  obtain rfl := Except.ok.inj split
  exact ⟨nodup.filter _, nodup.filter _⟩

/-- In the map phase every operator stands after all its inputs. -/
theorem inputsFirst_map : plan.InputsFirst phases.map := by
  intro before id after operator atId found input reads
  have member : id ∈ phases.map := by simp [atId]
  have notReduce := ((wellFormed.mem_map_iff split).mp member).2
  have inputNotReduce : input ∉ plan.reduceSide := fun isReduce =>
    notReduce (wellFormed.ownIds.reduceSide_of_feeds ⟨operator, found, reads⟩ isReduce)
  obtain ⟨order, ordered⟩ := wellFormed.ordered
  obtain ⟨-, inputsFirst⟩ := wellFormed.ownIds.topologicalOrder_sound ordered
  simp only [SubPlan.phases, ordered] at split
  obtain rfl := Except.ok.inj split
  exact inputsFirst.filter _ atId found reads (by simpa using inputNotReduce)

/-- In the reduce phase every operator stands after its inputs of that phase. -/
theorem input_before_reduce {before after : List OpId} {id : OpId} {operator : Operator}
    (atId : phases.reduce = before ++ id :: after) (found : plan.get? id = some operator)
    {input : OpId} (reads : input ∈ operator.inputs) (isReduce : input ∈ plan.reduceSide) :
    input ∈ before := by
  obtain ⟨order, ordered⟩ := wellFormed.ordered
  obtain ⟨-, inputsFirst⟩ := wellFormed.ownIds.topologicalOrder_sound ordered
  simp only [SubPlan.phases, ordered] at split
  obtain rfl := Except.ok.inj split
  exact inputsFirst.filter _ atId found reads (by simpa using isReduce)

end WellFormed

namespace WellFormed

variable (wellFormed : plan.WellFormed)

include wellFormed

/-- No load belongs to the reduce phase. -/
theorem not_reduceSide_of_isLoad {id : OpId} {operator : Operator}
    (found : plan.get? id = some operator) (isLoad : operator.operation.isLoad = true) :
    id ∉ plan.reduceSide := by
  intro member
  cases kind : operator.operation <;> simp [kind, Operation.isLoad] at isLoad
  rcases wellFormed.ownIds.package_or_feeds_of_reduceSide member with package | ⟨_, -, edge⟩
  · obtain ⟨other, foundOther, isPackage⟩ := wellFormed.ownIds.mem_packages.mp package
    obtain rfl := Option.some.inj (found.symm.trans foundOther)
    simp [kind, Operation.isPackage] at isPackage
  · obtain ⟨other, foundOther, reads⟩ := edge
    obtain rfl := Option.some.inj (found.symm.trans foundOther)
    have noInputs := (wellFormed.operators id operator found).inputCount 0 (by rw [kind]; rfl)
    simp [List.length_eq_zero_iff.mp noInputs] at reads

/-- Following main inputs, the reduce phase is left at grouping operators only. -/
theorem reduceSide_mainInput {id main : OpId} {operator : Operator}
    (found : plan.get? id = some operator) (notPackage : operator.operation.isPackage = false)
    (isMain : operator.mainInput? = some main) (member : id ∈ plan.reduceSide) :
    main ∈ plan.reduceSide := by
  have wellFormedOperator := wellFormed.operators id operator found
  rcases wellFormed.ownIds.package_or_feeds_of_reduceSide member with package | ⟨input, side, edge⟩
  · obtain ⟨other, foundOther, isPackage⟩ := wellFormed.ownIds.mem_packages.mp package
    obtain rfl := Option.some.inj (found.symm.trans foundOther)
    simp [notPackage] at isPackage
  · obtain ⟨other, foundOther, reads⟩ := edge
    obtain rfl := Option.some.inj (found.symm.trans foundOther)
    cases kind : operator.operation with
    | join keys fragment =>
        obtain ⟨position, atPosition⟩ := List.getElem?_of_mem reads
        by_cases isFragment : position = fragment.toNat
        · simp only [Operator.mainInput?, kind, ← isFragment, atPosition] at isMain
          obtain rfl := Option.some.inj isMain
          exact side
        · obtain ⟨source, foundSource, isLoad⟩ := wellFormedOperator.replicatedSides keys fragment
            kind position input atPosition isFragment
          exact absurd side (wellFormed.not_reduceSide_of_isLoad foundSource isLoad)
    | load =>
        have noInputs := wellFormedOperator.inputCount 0 (by rw [kind]; rfl)
        simp [List.length_eq_zero_iff.mp noInputs] at reads
    | filter | rearrange | package | forEach | sort | limit | store =>
        obtain ⟨only, inputs⟩ := wellFormedOperator.inputs_of_one (by rw [kind]; rfl)
        rw [inputs, List.mem_singleton] at reads
        simp only [Operator.mainInput?, kind, inputs, List.head?_cons, Option.some.injEq] at isMain
        exact isMain ▸ reads ▸ side

end WellFormed

end SubPlan

end BatchFlow
