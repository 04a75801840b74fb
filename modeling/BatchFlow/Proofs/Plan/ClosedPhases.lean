import BatchFlow.Proofs.Plan.Divisible
import BatchFlow.Proofs.Task.Bindings
import Mathlib.Data.List.Induction
import Mathlib.Data.List.Permutation

/-!
# Phases closed under dependencies

In a plan that passes its check, main inputs lead from every operator to exactly one load, and
the two phases share out the operators so that no value is read in the wrong phase: what a map
operator reads is computed before it in the map phase, and what an operator of the reduce phase
reads is computed before it there, but for the rows that a grouping operator is sent and for
replicated sides of joins, which are loads.
-/

namespace BatchFlow

namespace SubPlan

variable {plan : SubPlan} {id load : OpId}

section MainInputs

/-- The operator under `id` takes its rows from `main`. -/
def TakesFrom (plan : SubPlan) (id main : OpId) : Prop :=
  ∃ operator, plan.get? id = some operator ∧ operator.mainInput? = some main

/-- Following main inputs from `id` ends at `last`. -/
def EndsAt (plan : SubPlan) (id last : OpId) : Prop :=
  Relation.ReflTransGen plan.TakesFrom id last ∧ ∀ main, ¬ plan.TakesFrom last main

/-- Following main inputs from `id` ends at exactly one operator, which is a load. -/
def LeadsToOneLoad (plan : SubPlan) (id : OpId) : Prop :=
  ∃ load loader, plan.get? load = some loader ∧ loader.operation.isLoad = true ∧
    ∀ last, plan.EndsAt id last ↔ last = load

theorem TakesFrom.unique {main other : OpId} (takes : plan.TakesFrom id main)
    (takesToo : plan.TakesFrom id other) : main = other := by
  obtain ⟨operator, found, isMain⟩ := takes
  obtain ⟨again, foundAgain, isOther⟩ := takesToo
  obtain rfl := Option.some.inj (found.symm.trans foundAgain)
  exact Option.some.inj (isMain.symm.trans isOther)

/-- From an operator that takes from another, one gets where one gets from the other. -/
theorem TakesFrom.endsAt_iff {main last : OpId} (takes : plan.TakesFrom id main) :
    plan.EndsAt id last ↔ plan.EndsAt main last := by
  refine and_congr_left fun atEnd => ⟨fun path => ?_, fun path => .head takes path⟩
  rcases Relation.ReflTransGen.cases_head path with rfl | ⟨next, first, rest⟩
  · exact absurd takes (atEnd main)
  · exact first.unique takes ▸ rest

theorem endsAt_iff_eq {last : OpId} (atEnd : ∀ main, ¬ plan.TakesFrom id main) :
    plan.EndsAt id last ↔ last = id := by
  constructor
  · rintro ⟨path, -⟩
    rcases Relation.ReflTransGen.cases_head path with same | ⟨next, first, -⟩
    · exact same.symm
    · exact absurd first (atEnd next)
  · rintro rfl
    exact ⟨.refl, atEnd⟩

/-- What holds of an operator if it holds of its inputs holds of every operator in an order that
lists inputs first. -/
theorem InputsFirst.induction {order : List OpId} (inputsFirst : plan.InputsFirst order)
    {motive : OpId → Prop} (step : ∀ id ∈ order, ∀ operator, plan.get? id = some operator →
      (∀ input ∈ operator.inputs, motive input) → motive id)
    (exist : ∀ id ∈ order, ∃ operator, plan.get? id = some operator) :
    ∀ id ∈ order, motive id := by
  -- The induction is on the part of the order in front of an operator.
  suffices front : ∀ before after, order = before ++ after → ∀ id ∈ before, motive id from
    front order [] (List.append_nil order).symm
  intro before
  induction before using List.reverseRecOn with
  | nil => exact fun _ _ _ member => nomatch member
  | append_singleton before last ih =>
      intro after split id member
      have atLast : order = before ++ last :: after := by rw [split, List.append_assoc]; rfl
      rcases List.mem_append.mp member with inFront | isLast
      · exact ih (last :: after) atLast id inFront
      · obtain rfl := List.mem_singleton.mp isLast
        have inOrder : id ∈ order := by simp [atLast]
        obtain ⟨operator, found⟩ := exist id inOrder
        refine step id inOrder operator found fun input reads => ?_
        exact ih (id :: after) atLast input
          (inputsFirst before id after operator atLast found input reads)

namespace WellFormed

variable (wellFormed : plan.WellFormed)

include wellFormed

theorem not_takesFrom_of_isLoad {operator : Operator} (found : plan.get? id = some operator)
    (isLoad : operator.operation.isLoad = true) (main : OpId) : ¬ plan.TakesFrom id main := by
  rintro ⟨again, foundAgain, isMain⟩
  obtain rfl := Option.some.inj (found.symm.trans foundAgain)
  obtain ⟨source, kind⟩ := Operation.isLoad_iff.mp isLoad
  have noInputs := (wellFormed.operators id operator found).inputCount 0 (by rw [kind]; rfl)
  have reads := Operator.mainInput?_mem isMain
  rw [List.length_eq_zero_iff.mp noInputs] at reads
  exact nomatch reads

/-- Main inputs lead from every operator to exactly one load. -/
theorem leadsToOneLoad {operator : Operator} (found : plan.get? id = some operator) :
    plan.LeadsToOneLoad id := by
  obtain ⟨order, ordered⟩ := wellFormed.ordered
  obtain ⟨perm, inputsFirst⟩ := wellFormed.ownIds.topologicalOrder_sound ordered
  have mem_order {id : OpId} : id ∈ order ↔ ∃ operator, plan.get? id = some operator := by
    rw [perm.mem_iff, wellFormed.ownIds.mem_ids]
  refine inputsFirst.induction (motive := plan.LeadsToOneLoad)
    (fun id _ operator found ofInputs => ?_) (fun id member => mem_order.mp member) id
    (mem_order.mpr ⟨operator, found⟩)
  cases isLoad : operator.operation.isLoad with
  | true =>
      exact ⟨id, operator, found, isLoad, fun last =>
        endsAt_iff_eq (wellFormed.not_takesFrom_of_isLoad found isLoad)⟩
  | false =>
      obtain ⟨main, isMain⟩ := (wellFormed.operators id operator found).exists_mainInput isLoad
      have takes : plan.TakesFrom id main := ⟨operator, found, isMain⟩
      obtain ⟨load, loader, foundLoad, isLoad, ends⟩ :=
        ofInputs main (Operator.mainInput?_mem isMain)
      exact ⟨load, loader, foundLoad, isLoad, fun last => takes.endsAt_iff.trans (ends last)⟩

end WellFormed

end MainInputs

section Phases

/-- The position `side` among the inputs of the operator is a replicated side of a join. -/
def IsReplicatedSide (operator : Operator) (side : Nat) : Prop :=
  ∃ keys fragment, operator.operation = .join keys fragment ∧ side ≠ fragment.toNat

namespace WellFormed

variable (wellFormed : plan.WellFormed) {phases : Phases} (split : plan.phases = .ok phases)
  {operator : Operator} {side : Nat} {input : OpId}

include wellFormed

/-- The phases share out the operators. -/
theorem nodup_append_phases (split : plan.phases = .ok phases) :
    (phases.map ++ phases.reduce).Nodup := by
  obtain ⟨nodupMap, nodupReduce⟩ := wellFormed.nodup_phases split
  refine List.nodup_append'.mpr ⟨nodupMap, nodupReduce, fun id inMap inReduce => ?_⟩
  have notReduce := ((wellFormed.mem_map_iff split).mp inMap).2
  exact notReduce ((wellFormed.mem_reduce_iff split).mp inReduce).2

theorem mem_append_phases (split : plan.phases = .ok phases) :
    id ∈ phases.map ++ phases.reduce ↔ ∃ operator, plan.get? id = some operator := by
  rw [List.mem_append, wellFormed.mem_map_iff split, wellFormed.mem_reduce_iff split, ← and_or_left]
  exact and_iff_left (em' _)

/-- A replicated side is a load, so it is read in full in the map phase already. -/
theorem replicatedSide_mem_map (split : plan.phases = .ok phases)
    (found : plan.get? id = some operator) (reads : operator.inputs[side]? = some input)
    (replicated : IsReplicatedSide operator side) :
    input ∈ phases.map ∧ input ∈ plan.broadcastLoads.elements ∧
      ∃ loader, plan.get? input = some loader ∧ loader.operation.isLoad = true := by
  obtain ⟨keys, fragment, kind, different⟩ := replicated
  obtain ⟨loader, foundLoader, isLoad⟩ := (wellFormed.operators id operator found).replicatedSides
    keys fragment kind side input reads different
  have notReduce := wellFormed.not_reduceSide_of_isLoad foundLoader isLoad
  exact ⟨(wellFormed.mem_map_iff split).mpr ⟨⟨loader, foundLoader⟩, notReduce⟩,
    wellFormed.replicated_side found kind reads different, loader, foundLoader, isLoad⟩

/-- Any other input of the reduce phase is computed there before it is read, unless it is read by
a grouping operator. -/
theorem mem_before_of_reads (split : plan.phases = .ok phases) {before after : List OpId}
    (atId : phases.reduce = before ++ id :: after) (found : plan.get? id = some operator)
    (notPackage : operator.operation.isPackage = false)
    (reads : operator.inputs[side]? = some input) (mainSide : ¬ IsReplicatedSide operator side) :
    input ∈ before := by
  have inReduce : id ∈ phases.reduce := by simp [atId]
  have isMain := wellFormed.mainInput?_of_side found reads fun keys fragment kind =>
    by_contra fun different => mainSide ⟨keys, fragment, kind, different⟩
  refine wellFormed.input_before_reduce split atId found (List.mem_of_getElem? reads) ?_
  exact wellFormed.reduceSide_mainInput found notPackage isMain
    ((wellFormed.mem_reduce_iff split).mp inReduce).2

end WellFormed

/-- In a plan that passes its check, following main inputs from any operator ends at exactly one
load.  Its operators can be split into phases, each into one of them and once; a map operator
stands after all its inputs; and an operator of the reduce phase that groups nothing stands after
its inputs there, except for replicated sides of joins, which are loads of the map phase that
every task reads in full. -/
theorem OwnIds.phases_closed (ownIds : plan.OwnIds) (valid : plan.validate = .ok ()) :
    (∀ id operator, plan.get? id = some operator → plan.LeadsToOneLoad id) ∧
    ∃ phases, plan.phases = .ok phases ∧
      (phases.map ++ phases.reduce).Nodup ∧
      (∀ id, id ∈ phases.map ++ phases.reduce ↔ ∃ operator, plan.get? id = some operator) ∧
      (∀ before id after operator, phases.map = before ++ id :: after →
        plan.get? id = some operator → ∀ input ∈ operator.inputs, input ∈ before) ∧
      ∀ before id after operator, phases.reduce = before ++ id :: after →
        plan.get? id = some operator → operator.operation.isPackage = false →
          ∀ side input, operator.inputs[side]? = some input →
            (IsReplicatedSide operator side →
              input ∈ phases.map ∧ input ∈ plan.broadcastLoads.elements ∧
                ∃ loader, plan.get? input = some loader ∧ loader.operation.isLoad = true) ∧
            (¬ IsReplicatedSide operator side → input ∈ before) := by
  have wellFormed := ownIds.wellFormed valid
  obtain ⟨phases, split⟩ := wellFormed.exists_phases
  refine ⟨fun id operator found => wellFormed.leadsToOneLoad found, phases, split,
    wellFormed.nodup_append_phases split, fun id => wellFormed.mem_append_phases split,
    wellFormed.inputsFirst_map split, ?_⟩
  intro before id after operator atId found notPackage side input reads
  exact ⟨wellFormed.replicatedSide_mem_map split found reads,
    wellFormed.mem_before_of_reads split atId found notPackage reads⟩

/-- Sales are grouped, the groups joined with the regions, and the joined rows grouped again. -/
def regroupedPlan : SubPlan :=
  ((((((((SubPlan.empty.insert ⟨⟨0⟩, .load (.dataset "sales"), []⟩).insert
    ⟨⟨1⟩, .rearrange 0, [⟨0⟩]⟩).insert
    ⟨⟨2⟩, .package none false, [⟨1⟩]⟩).insert
    ⟨⟨3⟩, .load (.dataset "regions"), []⟩).insert
    ⟨⟨4⟩, .join [0, 0] 1, [⟨3⟩, ⟨2⟩]⟩).insert
    ⟨⟨5⟩, .rearrange 1, [⟨4⟩]⟩).insert
    ⟨⟨6⟩, .package none false, [⟨5⟩]⟩).insert
    ⟨⟨7⟩, .store "totals", [⟨6⟩]⟩)

theorem OwnIds.phases_closed_regroupedPlan :
    regroupedPlan.OwnIds ∧ regroupedPlan.validate = .ok () ∧
      regroupedPlan.LeadsToOneLoad ⟨7⟩ ∧
      ∃ phases, regroupedPlan.phases = .ok phases ∧
        phases.reduce = [⟨2⟩] ++ ⟨4⟩ :: [⟨5⟩, ⟨6⟩, ⟨7⟩] ∧
        (⟨3⟩ : OpId) ∈ phases.map ∧ (⟨3⟩ : OpId) ∈ regroupedPlan.broadcastLoads.elements := by
  have ownIds : regroupedPlan.OwnIds :=
    (((((((OwnIds.empty.insert _).insert _).insert _).insert _).insert _).insert _).insert _).insert
      _
  have valid : regroupedPlan.validate = .ok () := by rfl
  obtain ⟨loads, phases, split, -, -, -, reduceReads⟩ := OwnIds.phases_closed ownIds valid
  have join : IsReplicatedSide ⟨⟨4⟩, .join [0, 0] 1, [⟨3⟩, ⟨2⟩]⟩ 0 := ⟨_, _, rfl, by decide⟩
  have inReduce : phases.reduce = [⟨2⟩] ++ ⟨4⟩ :: [⟨5⟩, ⟨6⟩, ⟨7⟩] := by
    have same : regroupedPlan.phases =
        .ok ⟨[⟨0⟩, ⟨1⟩, ⟨3⟩], [⟨2⟩, ⟨4⟩, ⟨5⟩, ⟨6⟩, ⟨7⟩]⟩ := by cbv
    rw [same] at split
    obtain rfl := Except.ok.inj split
    rfl
  obtain ⟨inMap, broadcast, -⟩ :=
    (reduceReads _ _ _ _ inReduce rfl rfl 0 ⟨3⟩ rfl).1 join
  exact ⟨ownIds, valid, loads ⟨7⟩ _ rfl, phases, split, inReduce, inMap, broadcast⟩

end Phases

end SubPlan

end BatchFlow
