import BatchFlow.Proofs.Plan.Operators

/-!
# The order of a plan

Placing ready operators keeps one invariant: an operator that is not yet placed
waits for exactly those entries of its inputs that are not yet placed, and the
ready operators wait for none.  The order found therefore lists every operator
once, after all its inputs.
-/

namespace BatchFlow

namespace SubPlan

/-- Every operator of the list stands after all its inputs. -/
def InputsFirst (plan : SubPlan) (order : List OpId) : Prop :=
  ∀ before id after operator, order = before ++ id :: after → plan.get? id = some operator →
    ∀ input ∈ operator.inputs, input ∈ before

/-- The state of placing operators after some have been placed. -/
structure Placing (plan : SubPlan) (placed : List OpId) (waiting : Waiting)
    (ready : List OpId) : Prop where
  waits : ∀ id count, waiting.get? id = some count →
    id ∉ placed ∧ ∃ operator, plan.get? id = some operator ∧
      count = operator.inputs.countP fun input => input ∉ placed
  readyWaitsForNone : ∀ id ∈ ready, waiting.get? id = some 0
  readyNodup : ready.Nodup

/-- How often an operator reads another. -/
def timesRead (plan : SubPlan) (placed consumer : OpId) : Nat :=
  (plan.get? consumer).elim 0 fun operator => operator.inputs.count placed

section Release

variable {plan : SubPlan} {placed : OpId} {consumers : List OpId}

theorem get?_foldl_release (nodup : consumers.Nodup) (state : Waiting × List OpId) (id : OpId) :
    (consumers.foldl (plan.release placed) state).1.get? id =
      if id ∈ consumers then (state.1.get? id).map (· - plan.timesRead placed id)
      else state.1.get? id := by
  induction consumers generalizing state with
  | nil => simp
  | cons consumer rest ih =>
      obtain ⟨fresh, restNodup⟩ := List.nodup_cons.mp nodup
      rw [List.foldl_cons, ih restNodup]
      have released : (plan.release placed state consumer).1.get? id =
          if id = consumer then (state.1.get? id).map (· - plan.timesRead placed id)
          else state.1.get? id := by
        by_cases same : id = consumer
        · subst same
          cases waits : state.1.get? id <;> simp [release, waits, timesRead]
        · cases waits : state.1.get? consumer <;>
            simp [release, waits, same, OrderedMap.get?_insert]
      rw [released]
      by_cases same : id = consumer
      · simp [same, fresh]
      · simp [same]

theorem mem_foldl_release (nodup : consumers.Nodup) (state : Waiting × List OpId) (id : OpId) :
    id ∈ (consumers.foldl (plan.release placed) state).2 ↔
      id ∈ state.2 ∨ id ∈ consumers ∧
        ∃ count, state.1.get? id = some count ∧ count - plan.timesRead placed id = 0 := by
  induction consumers generalizing state with
  | nil => simp
  | cons consumer rest ih =>
      obtain ⟨fresh, restNodup⟩ := List.nodup_cons.mp nodup
      rw [List.foldl_cons, ih restNodup]
      have later (member : id ∈ rest) :
          (plan.release placed state consumer).1.get? id = state.1.get? id := by
        have different : id ≠ consumer := fun same => fresh (same ▸ member)
        cases waits : state.1.get? consumer <;>
          simp [release, waits, different, OrderedMap.get?_insert]
      have released : id ∈ (plan.release placed state consumer).2 ↔
          id ∈ state.2 ∨ id = consumer ∧
            ∃ count, state.1.get? id = some count ∧ count - plan.timesRead placed id = 0 := by
        cases waits : state.1.get? consumer with
        | none =>
            have absent (same : id = consumer) : state.1.get? id = none := same ▸ waits
            simp only [release, waits]
            constructor
            · exact .inl
            · rintro (old | ⟨same, count, found, -⟩)
              · exact old
              · simp [absent same] at found
        | some count =>
            simp only [release, waits]
            split
            case isTrue none =>
              rw [List.mem_cons]
              constructor
              · rintro (rfl | old)
                · exact .inr ⟨rfl, count, waits, none⟩
                · exact .inl old
              · rintro (old | ⟨same, -⟩)
                · exact .inr old
                · exact .inl same
            case isFalse some =>
              constructor
              · exact .inl
              · rintro (old | ⟨rfl, other, found, none⟩)
                · exact old
                · obtain rfl : count = other := Option.some.inj (waits ▸ found)
                  exact absurd none some
      rw [released, List.mem_cons]
      constructor
      · rintro ((old | ⟨same, found⟩) | ⟨member, count, found, none⟩)
        · exact .inl old
        · exact .inr ⟨.inl same, found⟩
        · exact .inr ⟨.inr member, count, later member ▸ found, none⟩
      · rintro (old | ⟨same | member, count, found, none⟩)
        · exact .inl (.inl old)
        · exact .inl (.inr ⟨same, count, found, none⟩)
        · exact .inr ⟨member, count, (later member).symm ▸ found, none⟩

theorem nodup_foldl_release (nodup : consumers.Nodup) {state : Waiting × List OpId}
    (readyNodup : state.2.Nodup) (disjoint : ∀ id ∈ consumers, id ∉ state.2) :
    (consumers.foldl (plan.release placed) state).2.Nodup := by
  induction consumers generalizing state with
  | nil => exact readyNodup
  | cons consumer rest ih =>
      obtain ⟨fresh, restNodup⟩ := List.nodup_cons.mp nodup
      rw [List.foldl_cons]
      have notReady : consumer ∉ state.2 := disjoint consumer (by simp)
      refine ih restNodup ?_ fun id member => ?_
      · cases waits : state.1.get? consumer with
        | none => simpa [release, waits] using readyNodup
        | some count =>
            simp only [release, waits]
            split
            · exact List.nodup_cons.mpr ⟨notReady, readyNodup⟩
            · exact readyNodup
      · have different : id ≠ consumer := fun same => fresh (same ▸ member)
        have old : id ∉ state.2 := disjoint id (by simp [member])
        cases waits : state.1.get? consumer with
        | none => simpa [release, waits] using old
        | some count =>
            simp only [release, waits]
            split
            · simp [different, old]
            · exact old

end Release

section Placing

variable {plan : SubPlan}

/-- Once an operator is placed, a consumer waits for as many inputs less as it
reads the operator. -/
theorem countP_not_placed (inputs placed : List OpId) {next : OpId} (fresh : next ∉ placed) :
    inputs.countP (fun input => input ∉ placed) - inputs.count next =
      inputs.countP fun input => input ∉ placed ++ [next] := by
  have split : inputs.countP (fun input => input ∉ placed) =
      inputs.countP (fun input => input ∉ placed ++ [next]) + inputs.count next := by
    induction inputs with
    | nil => rfl
    | cons input inputs ih =>
        simp only [List.countP_cons, List.count_cons, ih, List.mem_append, List.mem_singleton]
        by_cases same : input = next
        · subst same
          simp only [fresh, not_false_eq_true, decide_true, if_true, false_or, not_true,
            decide_false, BEq.rfl]
          simp
          omega
        · have unequal : (input == next) = false := by simpa using same
          simp only [same, or_false, unequal]
          simp
          omega
  omega

theorem Placing.step (ownIds : plan.OwnIds) {placed ready : List OpId} {waiting : Waiting}
    {next : OpId} (placing : plan.Placing placed waiting (next :: ready)) :
    plan.Placing (placed ++ [next])
      ((plan.consumers next).foldl (plan.release next) (waiting.erase next, ready)).1
      ((plan.consumers next).foldl (plan.release next) (waiting.erase next, ready)).2 := by
  have nextWaits := placing.readyWaitsForNone next (by simp)
  have nextFresh : next ∉ placed := (placing.waits next 0 nextWaits).1
  have parts := List.nodup_cons.mp placing.readyNodup
  have consumersNodup : (plan.consumers next).Nodup := ownIds.nodup_map_id_filter _
  -- A ready operator reads only what is placed, so it is no consumer of `next`.
  have notReady : ∀ id ∈ plan.consumers next, id ∉ next :: ready := by
    intro id consumer isReady
    obtain ⟨operator, found, reads⟩ := ownIds.mem_consumers.mp consumer
    obtain ⟨-, other, foundOther, none⟩ :=
      placing.waits id 0 (placing.readyWaitsForNone id isReady)
    obtain rfl := Option.some.inj (found ▸ foundOther)
    have positive : 0 < operator.inputs.countP fun input => input ∉ placed :=
      List.countP_pos_iff.mpr ⟨next, reads, by simpa using nextFresh⟩
    omega
  have timesRead {id : OpId} {operator : Operator} (found : plan.get? id = some operator) :
      plan.timesRead next id = operator.inputs.count next := by
    simp [SubPlan.timesRead, found]
  constructor
  · intro id count waits
    rw [get?_foldl_release consumersNodup] at waits
    have erased : id ≠ next ∧ ∃ before, waiting.get? id = some before ∧
        count = before - plan.timesRead next id := by
      split at waits
      case isTrue consumer =>
        obtain ⟨before, found, rfl⟩ := Option.map_eq_some_iff.mp waits
        rw [OrderedMap.get?_erase] at found
        split at found
        · simp at found
        · exact ⟨‹_›, before, found, rfl⟩
      case isFalse noConsumer =>
        rw [OrderedMap.get?_erase] at waits
        split at waits
        · simp at waits
        · refine ⟨‹_›, count, waits, ?_⟩
          obtain ⟨-, operator, found, -⟩ := placing.waits id count waits
          have notRead : next ∉ operator.inputs := fun reads =>
            noConsumer (ownIds.mem_consumers.mpr ⟨operator, found, reads⟩)
          rw [timesRead found, List.count_eq_zero_of_not_mem notRead]
          rfl
    obtain ⟨different, before, waitsBefore, rfl⟩ := erased
    obtain ⟨fresh, operator, found, rfl⟩ := placing.waits id before waitsBefore
    refine ⟨by simp [fresh, different], operator, found, ?_⟩
    rw [timesRead found]
    exact countP_not_placed _ _ nextFresh
  · intro id isReady
    rw [mem_foldl_release consumersNodup] at isReady
    rw [get?_foldl_release consumersNodup]
    rcases isReady with old | ⟨consumer, before, waits, none⟩
    · have noConsumer : id ∉ plan.consumers next := fun consumer =>
        notReady id consumer (by simp [old])
      have different : id ≠ next := fun same => parts.1 (same ▸ old)
      rw [if_neg noConsumer, OrderedMap.get?_erase, if_neg different]
      exact placing.readyWaitsForNone id (by simp [old])
    · rw [if_pos consumer, waits, Option.map_some, none]
  · refine nodup_foldl_release consumersNodup parts.2 fun id consumer => ?_
    exact fun old => notReady id consumer (by simp [old])

/-- What is placed is new, and stands after all its inputs. -/
theorem Placing.place (ownIds : plan.OwnIds) (fuel : Nat) {placed ready : List OpId}
    {waiting : Waiting} (placing : plan.Placing placed waiting ready) :
    ((plan.place fuel waiting ready).1).Nodup ∧
      (∀ id ∈ (plan.place fuel waiting ready).1,
        id ∉ placed ∧ ∃ operator, plan.get? id = some operator) ∧
      ∀ before id after operator, (plan.place fuel waiting ready).1 = before ++ id :: after →
        plan.get? id = some operator → ∀ input ∈ operator.inputs, input ∈ placed ++ before := by
  induction fuel generalizing placed waiting ready with
  | zero => simp [SubPlan.place]
  | succ fuel ih =>
      cases ready with
      | nil => simp [SubPlan.place]
      | cons next ready =>
          obtain ⟨nextFresh, operator, found, none⟩ :=
            placing.waits next 0 (placing.readyWaitsForNone next (by simp))
          obtain ⟨nodup, fresh, ordered⟩ := ih (placing.step ownIds)
          simp only [SubPlan.place]
          refine ⟨List.nodup_cons.mpr ⟨fun later => ?_, nodup⟩, ?_, ?_⟩
          · exact (fresh next later).1 (by simp)
          · intro id member
            rcases List.mem_cons.mp member with rfl | later
            · exact ⟨nextFresh, operator, found⟩
            · obtain ⟨notPlaced, exists_⟩ := fresh id later
              exact ⟨fun inPlaced => notPlaced (by simp [inPlaced]), exists_⟩
          · intro before id after other split foundOther input reads
            cases before with
            | nil =>
                obtain ⟨rfl, -⟩ := List.cons.inj split
                obtain rfl := Option.some.inj (found ▸ foundOther)
                by_contra missing
                have positive : 0 < operator.inputs.countP fun input => input ∉ placed :=
                  List.countP_pos_iff.mpr ⟨input, reads, by simpa using missing⟩
                omega
            | cons first before =>
                obtain ⟨rfl, rest⟩ := List.cons.inj split
                have inFront := ordered before id after other rest foundOther input reads
                simpa using inFront

theorem Placing.start (ownIds : plan.OwnIds) :
    plan.Placing [] plan.waiting (plan.waiting.filter fun _ count => count == 0).keys := by
  have nodup : ((plan.operators.map fun operator =>
      (operator.id, operator.inputs.length)).map Prod.fst).Nodup := by
    simpa [Function.comp_def] using ownIds.nodup_ids
  constructor
  · intro id count waits
    obtain ⟨operator, member, same⟩ :=
      List.mem_map.mp ((OrderedMap.get?_ofList nodup).mp waits)
    obtain ⟨rfl, rfl⟩ := Prod.mk.injEq .. ▸ same
    exact ⟨by simp, operator, ownIds.get?_id member, by simp⟩
  · intro id isReady
    obtain ⟨count, found⟩ := OrderedMap.mem_keys_iff.mp isReady
    rw [OrderedMap.get?_filter, Option.filter_eq_some_iff] at found
    have none : count = 0 := by simpa using found.2
    rw [found.1, none]
  · exact OrderedMap.nodup_keys _

/-- The order of a plan lists every operator once, after all its inputs. -/
theorem OwnIds.topologicalOrder_sound (ownIds : plan.OwnIds) {order : List OpId}
    (ordered : plan.topologicalOrder = .ok order) :
    order.Perm (plan.operators.map Operator.id) ∧ plan.InputsFirst order := by
  have placed := (Placing.start ownIds).place ownIds plan.placementFuel
  simp only [topologicalOrder] at ordered
  split at ordered
  case isFalse => simp at ordered
  case isTrue complete =>
    obtain rfl := Except.ok.inj ordered
    refine ⟨?_, ?_⟩
    · have within : (plan.place plan.placementFuel plan.waiting
          (plan.waiting.filter fun _ count => count == 0).keys).1 ⊆
          plan.operators.map Operator.id := fun id member =>
        ownIds.mem_ids.mpr (placed.2.1 id member).2
      have sizes : (plan.operators.map Operator.id).length = plan.size := by
        simp [operators, OrderedMap.values, size, OrderedMap.size]
      exact (List.subperm_of_subset placed.1 within).perm_of_length_le (by omega)
    · intro before id after operator split found input reads
      simpa using placed.2.2 before id after operator split found input reads

end Placing

end SubPlan

end BatchFlow
