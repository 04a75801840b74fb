import BatchFlow.Proofs.Plan.Order
import Mathlib.Data.Set.Finite.List
import Mathlib.Logic.Relation

/-!
# Operators that get no place

Every step of placing takes one operator out of those waiting, so placing ends after
as many steps as there are operators.  At the end an operator that is still waiting
reads one that has no place: an operator that is missing, or another one that is still
waiting.  Going back along such inputs leads to a missing input or runs into a cycle,
while an operator that was placed reads only what was placed before it.
-/

namespace BatchFlow

/-- Of finitely many elements, none of them on a cycle, one is entered from no other. -/
theorem exists_entered_from_none {α : Type} {edge : α → α → Prop} {members : Set α}
    (finite : members.Finite) (notEmpty : members.Nonempty)
    (noCycle : ∀ member ∈ members, ¬ Relation.TransGen edge member member) :
    ∃ member ∈ members, ∀ other ∈ members, ¬ edge other member := by
  let leads (first last : members) : Prop := Relation.TransGen edge first.val last.val
  have isTrans : IsTrans members leads := ⟨fun _ _ _ front back => front.trans back⟩
  have isIrrefl : Std.Irrefl leads := ⟨fun member => noCycle member.val member.property⟩
  have isFinite : Finite members := finite
  obtain ⟨first, isMember⟩ := notEmpty
  obtain ⟨least, -, isLeast⟩ :=
    (Finite.wellFounded_of_trans_of_irrefl leads).has_min Set.univ ⟨⟨first, isMember⟩, trivial⟩
  exact ⟨least.val, least.property, fun other otherMember enters =>
    isLeast ⟨other, otherMember⟩ trivial (.single enters)⟩

namespace SubPlan

variable {plan : SubPlan}

/-- Following inputs from the operator leads to a missing input or to a cycle. -/
def Broken (plan : SubPlan) (id : OpId) : Prop :=
  ∃ reached, Relation.ReflTransGen plan.Feeds reached id ∧
    (plan.get? reached = none ∨ Relation.TransGen plan.Feeds reached reached)

/-- An operator is broken exactly if one of its inputs is. -/
theorem broken_iff {id : OpId} {operator : Operator} (found : plan.get? id = some operator) :
    plan.Broken id ↔ ∃ input ∈ operator.inputs, plan.Broken input := by
  have readBy {input : OpId} (edge : plan.Feeds input id) : input ∈ operator.inputs := by
    obtain ⟨reader, foundReader, reads⟩ := edge
    obtain rfl := Option.some.inj (found.symm.trans foundReader)
    exact reads
  constructor
  · rintro ⟨reached, path, fault⟩
    cases path with
    | refl =>
        rcases fault with missing | cycle
        · rw [found] at missing
          cases missing
        · obtain ⟨input, front, edge⟩ := Relation.TransGen.tail'_iff.mp cycle
          exact ⟨input, readBy edge, id, front, .inr cycle⟩
    | @tail input _ front edge => exact ⟨input, readBy edge, reached, front, fault⟩
  · rintro ⟨input, reads, reached, front, fault⟩
    exact ⟨reached, front.tail ⟨operator, found, reads⟩, fault⟩

theorem broken_of_missing {id : OpId} (missing : plan.get? id = none) : plan.Broken id :=
  ⟨id, .refl, .inl missing⟩

/-- Placing ready operators until none is ready, in as many steps as it takes. -/
inductive Places (plan : SubPlan) : Waiting → (ready : List OpId) → List OpId × Waiting → Prop
  | done (waiting : Waiting) : Places plan waiting [] ([], waiting)
  | next {waiting stuck : Waiting} {next : OpId} {ready order : List OpId}
      {state : Waiting × List OpId}
      (released : state =
        (plan.consumers next).foldl (plan.release next) (waiting.erase next, ready))
      (rest : Places plan state.1 state.2 (order, stuck)) :
      Places plan waiting (next :: ready) (next :: order, stuck)

/-- The state of placing operators, with what is known of those placed and of those not. -/
structure Progress (plan : SubPlan) (placed : List OpId) (waiting : Waiting)
    (ready : List OpId) : Prop extends plan.Placing placed waiting ready where
  placedNodup : placed.Nodup
  placedExist : ∀ id ∈ placed, ∃ operator, plan.get? id = some operator
  placedSound : ∀ id ∈ placed, ¬ plan.Broken id
  othersWait : ∀ id operator, plan.get? id = some operator → id ∉ placed →
    ∃ count, waiting.get? id = some count
  readyComplete : ∀ id, waiting.get? id = some 0 → id ∈ ready

theorem Progress.start (ownIds : plan.OwnIds) :
    plan.Progress [] plan.waiting (plan.waiting.filter fun _ count => count == 0).keys where
  toPlacing := Placing.start ownIds
  placedNodup := List.nodup_nil
  placedExist := by simp
  placedSound := by simp
  othersWait := by
    intro id operator found _
    have member : operator ∈ plan.operators := mem_operators.mpr ⟨id, found⟩
    have entry : id ∈ (plan.operators.map fun operator =>
        (operator.id, operator.inputs.length)).map Prod.fst := by
      rw [List.map_map]
      exact List.mem_map.mpr ⟨operator, member, ownIds id operator found⟩
    exact OrderedMap.mem_keys_iff.mp (OrderedMap.mem_keys_ofList.mpr entry)
  readyComplete := by
    intro id none
    refine OrderedMap.mem_keys_iff.mpr ⟨0, ?_⟩
    rw [OrderedMap.get?_filter, none]
    rfl

/-- A ready operator reads only what is placed. -/
theorem Placing.inputs_placed {placed ready : List OpId} {waiting : Waiting}
    (placing : plan.Placing placed waiting ready) {id : OpId} (isReady : id ∈ ready) :
    ∃ operator, plan.get? id = some operator ∧ ∀ input ∈ operator.inputs, input ∈ placed := by
  obtain ⟨-, operator, found, none⟩ :=
    placing.waits id 0 (placing.readyWaitsForNone id isReady)
  refine ⟨operator, found, fun input reads => ?_⟩
  by_contra missing
  have positive : 0 < operator.inputs.countP fun input => input ∉ placed :=
    List.countP_pos_iff.mpr ⟨input, reads, by simpa using missing⟩
  omega

section Release

variable {consumers ready : List OpId} {waiting : Waiting} {next : OpId}

/-- Releasing an operator takes away no other one that waits. -/
theorem exists_waits_of_release (nodup : consumers.Nodup) {id : OpId} (different : id ≠ next)
    (waits : ∃ count, waiting.get? id = some count) :
    ∃ count, (consumers.foldl (plan.release next) (waiting.erase next, ready)).1.get? id =
      some count := by
  obtain ⟨count, waits⟩ := waits
  rw [get?_foldl_release nodup, OrderedMap.get?_erase, if_neg different, waits]
  split
  · exact ⟨_, rfl⟩
  · exact ⟨count, rfl⟩

/-- What waits for nothing once an operator is released was ready or is released with it. -/
theorem mem_ready_of_release (nodup : consumers.Nodup)
    (complete : ∀ id, waiting.get? id = some 0 → id ∈ next :: ready) {id : OpId}
    (none : (consumers.foldl (plan.release next) (waiting.erase next, ready)).1.get? id =
      some 0) :
    id ∈ (consumers.foldl (plan.release next) (waiting.erase next, ready)).2 := by
  rw [mem_foldl_release nodup]
  rw [get?_foldl_release nodup] at none
  split at none
  case isTrue consumer =>
    obtain ⟨count, waits, isZero⟩ := Option.map_eq_some_iff.mp none
    exact .inr ⟨consumer, count, waits, isZero⟩
  case isFalse =>
    rw [OrderedMap.get?_erase] at none
    split at none
    case isTrue => cases none
    case isFalse different =>
      exact .inl ((List.mem_cons.mp (complete id none)).resolve_left different)

end Release

theorem Progress.step (ownIds : plan.OwnIds) {placed ready : List OpId} {waiting : Waiting}
    {next : OpId} (progress : plan.Progress placed waiting (next :: ready)) :
    plan.Progress (placed ++ [next])
      ((plan.consumers next).foldl (plan.release next) (waiting.erase next, ready)).1
      ((plan.consumers next).foldl (plan.release next) (waiting.erase next, ready)).2 := by
  have consumersNodup : (plan.consumers next).Nodup := ownIds.nodup_map_id_filter _
  have nextFresh : next ∉ placed :=
    (progress.waits next 0 (progress.readyWaitsForNone next List.mem_cons_self)).1
  obtain ⟨operator, found, inputsPlaced⟩ := progress.inputs_placed List.mem_cons_self
  refine
    { toPlacing := progress.toPlacing.step ownIds
      placedNodup := ?nodup
      placedExist := ?exist
      placedSound := ?sound
      othersWait := ?others
      readyComplete := ?complete }
  case nodup =>
    exact List.nodup_append.mpr ⟨progress.placedNodup, List.nodup_singleton _, by
      rintro first member second isNext rfl
      exact nextFresh (List.mem_singleton.mp isNext ▸ member)⟩
  case exist =>
    intro id member
    rcases List.mem_append.mp member with old | isNext
    · exact progress.placedExist id old
    · obtain rfl := List.mem_singleton.mp isNext
      exact ⟨operator, found⟩
  case sound =>
    intro id member
    rcases List.mem_append.mp member with old | isNext
    · exact progress.placedSound id old
    · obtain rfl := List.mem_singleton.mp isNext
      rw [broken_iff found]
      rintro ⟨input, reads, broken⟩
      exact progress.placedSound input (inputsPlaced input reads) broken
  case others =>
    intro id other foundOther fresh
    rw [List.mem_append, List.mem_singleton, not_or] at fresh
    exact exists_waits_of_release consumersNodup fresh.2
      (progress.othersWait id other foundOther fresh.1)
  case complete =>
    exact fun id none => mem_ready_of_release consumersNodup progress.readyComplete none

/-- Placing ends, as every step places one operator more. -/
theorem Progress.places (ownIds : plan.OwnIds) {fuel : Nat} {placed ready : List OpId}
    {waiting : Waiting} (progress : plan.Progress placed waiting ready)
    (enough : plan.size < placed.length + fuel) :
    plan.Places waiting ready (plan.place fuel waiting ready) := by
  induction fuel generalizing placed waiting ready with
  | zero =>
      have within : placed ⊆ plan.operatorMap.keys := fun id member =>
        OrderedMap.mem_keys_iff.mpr (progress.placedExist id member)
      have fits := (List.subperm_of_subset progress.placedNodup within).length_le
      rw [OrderedMap.keys, List.length_map] at fits
      exact absurd fits (Nat.not_le.mpr enough)
  | succ fuel ih =>
      cases ready with
      | nil => exact .done waiting
      | cons next ready =>
          refine .next rfl (ih (progress.step ownIds) ?_)
          rw [List.length_append, List.length_singleton]
          omega

theorem Places.progress (ownIds : plan.OwnIds) {placed ready : List OpId} {waiting : Waiting}
    {outcome : List OpId × Waiting} (places : plan.Places waiting ready outcome)
    (progress : plan.Progress placed waiting ready) :
    plan.Progress (placed ++ outcome.1) outcome.2 [] := by
  induction places generalizing placed with
  | done waiting => simpa using progress
  | @next waiting stuck next ready order state released rest ih =>
      subst released
      simpa using ih (progress.step ownIds)

/-- An operator that waits for some input reads an operator that is not placed. -/
theorem Progress.exists_unplaced_input {placed : List OpId} {waiting : Waiting}
    (progress : plan.Progress placed waiting []) {id : OpId} {operator : Operator}
    (found : plan.get? id = some operator) (fresh : id ∉ placed) :
    ∃ input ∈ operator.inputs, input ∉ placed := by
  obtain ⟨count, waits⟩ := progress.othersWait id operator found fresh
  obtain ⟨-, other, foundOther, countIs⟩ := progress.waits id count waits
  obtain rfl := Option.some.inj (found.symm.trans foundOther)
  have positive : 0 < count := by
    by_contra none
    obtain rfl : count = 0 := by omega
    exact List.not_mem_nil (progress.readyComplete id waits)
  rw [countIs, List.countP_pos_iff] at positive
  simpa using positive

/-- When no operator is ready any more, those without a place are the broken ones. -/
theorem Progress.broken_iff_not_placed {placed : List OpId} {waiting : Waiting}
    (progress : plan.Progress placed waiting []) {id : OpId} {operator : Operator}
    (found : plan.get? id = some operator) : plan.Broken id ↔ id ∉ placed := by
  constructor
  · intro broken member
    exact progress.placedSound id member broken
  · intro fresh
    by_contra sound
    let left : Set OpId := fun id =>
      (∃ operator, plan.get? id = some operator) ∧ id ∉ placed ∧ ¬ plan.Broken id
    have finite : left.Finite :=
      (List.finite_toSet plan.operatorMap.keys).subset fun id member =>
        OrderedMap.mem_keys_iff.mpr member.1
    -- An operator of this kind reads another one of them, so going back would never end.
    have noCycle : ∀ id ∈ left, ¬ Relation.TransGen plan.Feeds id id :=
      fun id member cycle => member.2.2 ⟨id, .refl, .inr cycle⟩
    obtain ⟨last, ⟨⟨reader, foundReader⟩, lastFresh, lastSound⟩, enteredFromNone⟩ :=
      exists_entered_from_none finite ⟨id, ⟨operator, found⟩, fresh, sound⟩ noCycle
    obtain ⟨input, reads, inputFresh⟩ := progress.exists_unplaced_input foundReader lastFresh
    have inputSound : ¬ plan.Broken input := fun broken =>
      lastSound ((broken_iff foundReader).mpr ⟨input, reads, broken⟩)
    have inputExists : ∃ source, plan.get? input = some source :=
      Option.ne_none_iff_exists'.mp (mt broken_of_missing inputSound)
    exact enteredFromNone input ⟨inputExists, inputFresh, inputSound⟩ ⟨reader, foundReader, reads⟩

theorem Progress.stuck_iff {placed : List OpId} {waiting : Waiting}
    (progress : plan.Progress placed waiting []) {id : OpId} :
    id ∈ waiting.keys ↔ (∃ operator, plan.get? id = some operator) ∧ plan.Broken id := by
  rw [OrderedMap.mem_keys_iff]
  constructor
  · rintro ⟨count, waits⟩
    obtain ⟨fresh, operator, found, -⟩ := progress.waits id count waits
    exact ⟨⟨operator, found⟩, (progress.broken_iff_not_placed found).mpr fresh⟩
  · rintro ⟨⟨operator, found⟩, broken⟩
    exact progress.othersWait id operator found ((progress.broken_iff_not_placed found).mp broken)

theorem Progress.complete_iff {placed : List OpId} {waiting : Waiting}
    (progress : plan.Progress placed waiting []) :
    placed.length = plan.size ↔
      ∀ id operator, plan.get? id = some operator → ¬ plan.Broken id := by
  have sizeIs : plan.size = plan.operatorMap.keys.length := by
    rw [size, OrderedMap.size, OrderedMap.keys, List.length_map]
  have within : placed.Subperm plan.operatorMap.keys :=
    List.subperm_of_subset progress.placedNodup fun id member =>
      OrderedMap.mem_keys_iff.mpr (progress.placedExist id member)
  rw [sizeIs]
  constructor
  · intro complete id operator found broken
    have all := within.perm_of_length_le complete.ge
    have member := all.mem_iff.mpr (OrderedMap.mem_keys_iff.mpr ⟨operator, found⟩)
    exact progress.placedSound id member broken
  · intro sound
    have all : plan.operatorMap.keys ⊆ placed := by
      intro id member
      obtain ⟨operator, found⟩ := OrderedMap.mem_keys_iff.mp member
      by_contra fresh
      exact sound id operator found ((progress.broken_iff_not_placed found).mpr fresh)
    exact le_antisymm within.length_le
      (List.subperm_of_subset plan.operatorMap.nodup_keys all).length_le

/-- No operator is broken exactly if all inputs exist and none is its own ancestor. -/
theorem forall_not_broken_iff :
    (∀ id operator, plan.get? id = some operator → ¬ plan.Broken id) ↔
      (∀ input id, plan.Feeds input id → ∃ source, plan.get? input = some source) ∧
        ∀ id, ¬ Relation.TransGen plan.Feeds id id := by
  constructor
  · intro sound
    refine ⟨fun input id edge => ?_, fun id cycle => ?_⟩
    · by_contra missing
      obtain ⟨operator, found, reads⟩ := edge
      have isMissing : plan.get? input = none := by
        simpa using Option.eq_none_iff_forall_ne_some.mpr (not_exists.mp missing)
      exact sound id operator found
        ((broken_iff found).mpr ⟨input, reads, broken_of_missing isMissing⟩)
    · obtain ⟨input, -, operator, found, -⟩ := Relation.TransGen.tail'_iff.mp cycle
      exact sound id operator found ⟨id, .refl, .inr cycle⟩
  · rintro ⟨exist, acyclic⟩ id operator found ⟨reached, path, missing | cycle⟩
    · rcases Relation.ReflTransGen.cases_head path with rfl | ⟨reader, edge, -⟩
      · rw [found] at missing
        cases missing
      · obtain ⟨source, foundSource⟩ := exist reached reader edge
        rw [missing] at foundSource
        cases foundSource
    · exact acyclic reached cycle

/-- Placing all operators ends, and the order of a plan is what it yields. -/
theorem OwnIds.topologicalOrder_eq (ownIds : plan.OwnIds) :
    ∃ order stuck,
      plan.Places plan.waiting (plan.waiting.filter fun _ count => count == 0).keys
        (order, stuck) ∧
      plan.Progress order stuck [] ∧
      plan.topologicalOrder =
        if order.length = plan.size then .ok order else .error (.cycle stuck.keys) := by
  have start := Progress.start ownIds
  have enough : plan.size < ([] : List OpId).length + plan.placementFuel := by
    rw [List.length_nil, placementFuel]
    omega
  have places := start.places ownIds enough
  exact ⟨_, _, places, by simpa using places.progress ownIds start, rfl⟩

/-- Placing the operators of any plan ends, with every operator placed exactly if all
inputs exist and no operator depends on itself.  The order then lists every operator
once, after all its inputs; otherwise the error names, in the order of their
identifiers, the operators from which inputs lead to a missing one or to a cycle. -/
theorem OwnIds.topologicalOrder_correct (ownIds : plan.OwnIds) :
    (∃ order stuck,
      plan.Places plan.waiting (plan.waiting.filter fun _ count => count == 0).keys
        (order, stuck) ∧
      plan.topologicalOrder =
        if order.length = plan.size then .ok order else .error (.cycle stuck.keys)) ∧
    ((∃ order, plan.topologicalOrder = .ok order) ↔
      (∀ input id, plan.Feeds input id → ∃ source, plan.get? input = some source) ∧
        ∀ id, ¬ Relation.TransGen plan.Feeds id id) ∧
    match plan.topologicalOrder with
    | .ok order =>
        order.Nodup ∧ (∀ id, id ∈ order ↔ ∃ operator, plan.get? id = some operator) ∧
          plan.InputsFirst order
    | .error fault =>
        ∃ stuck : List OpId, fault = .cycle stuck ∧
          fault.text = "operator cycle through " ++ String.intercalate ", " (stuck.map OpId.text) ∧
          stuck.Pairwise (fun earlier later => compare earlier later = .lt) ∧
          ∀ id, id ∈ stuck ↔ (∃ operator, plan.get? id = some operator) ∧ plan.Broken id := by
  obtain ⟨order, stuck, places, progress, outcome⟩ := ownIds.topologicalOrder_eq
  refine ⟨⟨order, stuck, places, outcome⟩, ?_, ?_⟩
  · rw [← forall_not_broken_iff, ← progress.complete_iff, outcome]
    split <;> simp_all
  · cases result : plan.topologicalOrder with
    | ok placed =>
        obtain ⟨all, inputsFirst⟩ := ownIds.topologicalOrder_sound result
        refine ⟨all.nodup_iff.mpr ownIds.nodup_ids, fun id => ?_, inputsFirst⟩
        rw [all.mem_iff, ownIds.mem_ids]
    | error fault =>
        rw [outcome] at result
        split at result
        case isTrue => cases result
        case isFalse =>
          cases result
          exact ⟨stuck.keys, rfl, rfl, stuck.pairwise_keys, fun id => progress.stuck_iff⟩

/-- A join that reads one load twice, a store behind an input that does not exist, two operators
that read each other, and a store behind them. -/
def tangledPlan : SubPlan :=
  ((((((SubPlan.empty.insert ⟨⟨0⟩, .load (.dataset "sales"), []⟩).insert
    ⟨⟨1⟩, .join [0, 0] 0, [⟨0⟩, ⟨0⟩]⟩).insert
    ⟨⟨2⟩, .limit 5, [⟨9⟩]⟩).insert
    ⟨⟨3⟩, .store "missing", [⟨2⟩]⟩).insert
    ⟨⟨4⟩, .limit 5, [⟨5⟩]⟩).insert
    ⟨⟨5⟩, .sort 0 false, [⟨4⟩]⟩).insert
    ⟨⟨6⟩, .store "looped", [⟨4⟩]⟩

theorem OwnIds.topologicalOrder_correct_tangledPlan :
    tangledPlan.OwnIds ∧
      tangledPlan.topologicalOrder = .error (.cycle [⟨2⟩, ⟨3⟩, ⟨4⟩, ⟨5⟩, ⟨6⟩]) ∧
      tangledPlan.Broken ⟨3⟩ ∧ tangledPlan.Broken ⟨6⟩ ∧ ¬ tangledPlan.Broken ⟨1⟩ := by
  have ownIds : tangledPlan.OwnIds :=
    ((((((OwnIds.empty.insert _).insert _).insert _).insert _).insert _).insert _).insert _
  have outcome : tangledPlan.topologicalOrder =
      .error (.cycle [⟨2⟩, ⟨3⟩, ⟨4⟩, ⟨5⟩, ⟨6⟩]) := by
    rfl
  obtain ⟨-, -, verdict⟩ := OwnIds.topologicalOrder_correct ownIds
  rw [outcome] at verdict
  obtain ⟨stuck, isCycle, -, -, named⟩ := verdict
  cases isCycle
  refine ⟨ownIds, outcome, ((named ⟨3⟩).mp (by decide)).2, ((named ⟨6⟩).mp (by decide)).2, ?_⟩
  intro broken
  exact absurd ((named ⟨1⟩).mpr ⟨⟨_, rfl⟩, broken⟩) (by decide)

end SubPlan

end BatchFlow
