import BatchFlow.Proofs.Plan.Operators
import BatchFlow.Proofs.Results

/-!
# One step of a task

Evaluating an operator computes its rows from the state and then records them:
as the rows of the operator, and under its target if the operator is a store.
A grouping operator whose groups are streamed records no rows of its own.
-/

namespace BatchFlow

open Results

@[simp]
theorem liftOperator_eq_ok {α : Type} {result : Except OperatorError α} {value : α} :
    liftOperator result = .ok value ↔ result = .ok value := by
  cases result <;> simp [liftOperator]

/-- Whether the operation groups rows accumulatively. -/
def Operation.isAccumulative : Operation → Bool
  | .package _ accumulative => accumulative
  | _ => false

theorem Operation.isPackage_of_isAccumulative {operation : Operation}
    (accumulative : operation.isAccumulative = true) : operation.isPackage = true := by
  cases operation <;> first | rfl | simp [isAccumulative] at accumulative

namespace TaskState

theorem input_congr {operator : Operator} {first second : TaskState}
    (same : ∀ source ∈ operator.inputs, first.rows.get? source = second.rows.get? source) :
    first.input operator = second.input operator := by
  funext side
  cases atSide : operator.inputs[side]? with
  | none => simp [input, atSide]
  | some source => simp [input, atSide, same source (List.mem_of_getElem? atSide)]

end TaskState

/-- A row operator depends on the rows of its inputs only. -/
theorem Operator.transform_congr {operator : Operator} {first second : TaskState}
    (same : ∀ source ∈ operator.inputs, first.rows.get? source = second.rows.get? source) :
    operator.transform first = operator.transform second := by
  simp only [transform, TaskState.input_congr same]

namespace SubPlan

/-- Whether the groups of a grouping operator are left to the projections that
read it. -/
def streams (plan : SubPlan) (id : OpId) : Bool :=
  (plan.get? id).any (fun operator => operator.operation.isAccumulative)
    && plan.feedsOnlyProjections id

/-- The rows that evaluating an operator computes. -/
def computed (plan : SubPlan) (groups : OpId → Groups) (state : TaskState)
    (operator : Operator) : Except RunError (List Row) :=
  match operator.operation with
  | .load _ => .ok ((state.rows.get? operator.id).getD [])
  | .package _ _ =>
      .ok (if plan.streams operator.id then [] else (groups operator.id).materialize)
  | .store _ => state.input operator 0
  | .forEach exprs =>
      match operator.inputs.head? with
      | some package =>
          if state.streamed.contains package then
            liftOperator ((groups package).stream exprs)
          else operator.transform state
      | none => operator.transform state
  | _ => operator.transform state

end SubPlan

namespace TaskState

/-- The state after an operator has computed its rows. -/
def record (state : TaskState) (plan : SubPlan) (operator : Operator) (rows : List Row) :
    TaskState where
  rows := state.rows.insert operator.id rows
  streamed :=
    if plan.streams operator.id then operator.id :: state.streamed else state.streamed
  stores :=
    match operator.operation with
    | .store target => state.stores.upsert target fun stored => stored.getD [] ++ rows
    | _ => state.stores

end TaskState

namespace SubPlan

variable {plan : SubPlan}

theorem streams_of_not_accumulative {id : OpId} {operator : Operator}
    (found : plan.get? id = some operator) (plain : operator.operation.isAccumulative = false) :
    plan.streams id = false := by
  simp [streams, found, plain]

theorem streams_iff {id : OpId} :
    plan.streams id = true ↔
      (∃ operator, plan.get? id = some operator ∧ operator.operation.isAccumulative = true) ∧
        plan.feedsOnlyProjections id = true := by
  rw [streams, Bool.and_eq_true, Option.any_eq_true]

/-- What reads a streamed grouping operator is a projection. -/
theorem OwnIds.isForEach_of_streams (ownIds : plan.OwnIds) {id package : OpId}
    {operator : Operator} (found : plan.get? id = some operator)
    (reads : package ∈ operator.inputs) (streams : plan.streams package = true) :
    operator.operation.isForEach = true :=
  (ownIds.feedsOnlyProjections_iff.mp (streams_iff.mp streams).2).2 id operator found reads

/-- An operator that is not grouping and stores nothing records its rows only. -/
theorem OwnIds.record_eq_withRows (ownIds : plan.OwnIds) {id : OpId} {operator : Operator}
    (found : plan.get? id = some operator) (plain : operator.operation.isAccumulative = false)
    (noStore : operator.operation.target? = none) (state : TaskState) (rows : List Row) :
    state.record plan operator rows = state.withRows id rows := by
  rw [TaskState.record, TaskState.withRows, ownIds id operator found,
    streams_of_not_accumulative found plain]
  cases kind : operator.operation <;> first | rfl | simp [kind, Operation.target?] at noStore

/-- Evaluating an operator is computing its rows and recording them. -/
theorem step_eq (ownIds : plan.OwnIds) {id : OpId} {operator : Operator}
    (found : plan.get? id = some operator) (groups : OpId → Groups) (state : TaskState) :
    plan.step groups state id =
      (plan.computed groups state operator).map (state.record plan operator) := by
  have sameId : operator.id = id := ownIds id operator found
  have recorded (plain : operator.operation.isAccumulative = false) (rows : List Row)
      (noStore : operator.operation.target? = none) :
      state.withRows id rows = state.record plan operator rows :=
    (ownIds.record_eq_withRows found plain noStore state rows).symm
  cases kind : operator.operation with
  | load source =>
      simp only [step, found, kind, computed, sameId, Except.map, pure, Except.pure]
      rw [recorded (by rw [kind]; rfl) _ (by rw [kind]; rfl)]
  | package parallelism accumulative =>
      have streamsIff : plan.streams id = (accumulative && plan.feedsOnlyProjections id) := by
        simp [streams, found, kind, Operation.isAccumulative]
      simp only [step, found, kind, computed, sameId, Except.map, pure, Except.pure,
        TaskState.record, TaskState.withRows, streamsIff]
      split <;> rfl
  | store target =>
      simp only [step, found, kind, computed]
      cases state.input operator 0 with
      | error error => rfl
      | ok rows =>
          simp [bind, Except.bind, pure, Except.pure, Except.map, TaskState.record,
            TaskState.withRows, sameId, kind,
            streams_of_not_accumulative found (by rw [kind]; rfl)]
  | forEach exprs =>
      have plain : operator.operation.isAccumulative = false := by rw [kind]; rfl
      have noStore : operator.operation.target? = none := by rw [kind]; rfl
      have lifted (result : Except RunError (List Row)) :
          (result >>= fun rows => pure (state.withRows id rows)) =
            result.map (state.record plan operator) := by
        cases result with
        | error error => rfl
        | ok rows => exact congrArg Except.ok (recorded plain rows noStore)
      simp only [step, found, kind, computed]
      cases operator.inputs.head? with
      | none => exact lifted _
      | some package =>
          dsimp only
          split <;> exact lifted _
  | filter | rearrange | sort | limit | join =>
      have plain : operator.operation.isAccumulative = false := by rw [kind]; rfl
      have noStore : operator.operation.target? = none := by rw [kind]; rfl
      simp only [step, found, kind, computed]
      cases operator.transform state with
      | error error => rfl
      | ok rows => exact congrArg Except.ok (recorded plain rows noStore)

/-- A step that succeeds is a step of an operator of the plan. -/
theorem exists_of_step {groups : OpId → Groups} {state next : TaskState} {id : OpId}
    (stepped : plan.step groups state id = .ok next) :
    ∃ operator, plan.get? id = some operator := by
  cases found : plan.get? id with
  | none => simp [step, found, throw, throwThe, MonadExceptOf.throw] at stepped
  | some operator => exact ⟨operator, rfl⟩

/-- Evaluating operators streams those of them that are streamed. -/
theorem streamed_foldlM_step (ownIds : plan.OwnIds) {groups : OpId → Groups}
    {operators : List OpId} {state final : TaskState}
    (evaluated : operators.foldlM (plan.step groups) state = .ok final) :
    final.streamed = (operators.filter plan.streams).reverse ++ state.streamed := by
  induction operators generalizing state with
  | nil =>
      obtain rfl := pure_eq_ok.mp evaluated
      rfl
  | cons id operators ih =>
      rw [List.foldlM_cons] at evaluated
      obtain ⟨next, stepped, rest⟩ := bind_eq_ok.mp evaluated
      obtain ⟨operator, found⟩ := exists_of_step stepped
      rw [step_eq ownIds found] at stepped
      obtain ⟨rows, -, rfl⟩ := map_eq_ok.mp stepped
      rw [ih rest, TaskState.record, ownIds id operator found, List.filter_cons]
      split <;> simp

/-- The rows of a reduce task are those of its last state. -/
theorem runReduceTask_eq_ok {phases : Phases} {groups : OrderedMap OpId Groups}
    {broadcast : Bindings} {output : TaskOutput} :
    plan.runReduceTask phases groups broadcast = .ok output ↔
      ∃ final, plan.evaluate phases.reduce broadcast (fun id => (groups.get? id).getD []) =
        .ok final ∧ ⟨final.stores, ∅⟩ = output := by
  simp only [runReduceTask, bind_eq_ok, pure_eq_ok]

end SubPlan

end BatchFlow
