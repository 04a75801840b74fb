import BatchFlow.Proofs.Failures
import BatchFlow.Proofs.Plan.Divisible
import BatchFlow.Proofs.Task.Bindings

/-!
# Evaluations that fail on data only

Evaluating an operator reads the rows of its inputs.  In a well-formed plan these
are evaluated before the operator or bound from the start, in either phase: all
inputs of the map phase precede their reader in it, and what the reduce phase
reads from outside is a replicated load.  So only the data itself can make a task
fail.
-/

namespace BatchFlow

open Results

/-- The error is that of an operator over its data. -/
def RunError.IsOnData (error : RunError) : Prop :=
  ∃ cause, error = .operator cause

theorem liftOperator_failsOnlyOnData {α : Type} (result : Except OperatorError α) :
    FailsWith RunError.IsOnData (liftOperator result) := by
  cases result with
  | ok value => exact .ok value
  | error cause => exact .error ⟨cause, rfl⟩

namespace TaskState

variable {state : TaskState}

/-- The state has rows for the operator. -/
def Has (state : TaskState) (id : OpId) : Prop :=
  ∃ rows, state.rows.get? id = some rows

theorem Has.record {id : OpId} (has : state.Has id) (plan : SubPlan) (operator : Operator)
    (rows : List Row) : (state.record plan operator rows).Has id := by
  obtain ⟨old, found⟩ := has
  rw [Has, TaskState.record, OrderedMap.get?_insert]
  split
  · exact ⟨rows, rfl⟩
  · exact ⟨old, found⟩

theorem has_record (state : TaskState) (plan : SubPlan) (operator : Operator) (rows : List Row) :
    (state.record plan operator rows).Has operator.id :=
  ⟨rows, OrderedMap.get?_insert_self ..⟩

theorem exists_input {operator : Operator} {side : Nat} (inside : side < operator.inputs.length)
    (has : ∀ input ∈ operator.inputs, state.Has input) :
    ∃ rows, state.input operator side = .ok rows := by
  obtain ⟨rows, found⟩ := has _ (List.getElem_mem inside)
  exact ⟨rows, by rw [input, List.getElem?_eq_getElem inside]; simp only [found]⟩

end TaskState

namespace SubPlan

variable {plan : SubPlan} {groups : OpId → Groups} {state : TaskState} {operator : Operator}

theorem WellFormedOperator.transform_failsOnlyOnData
    (wellFormed : plan.WellFormedOperator operator)
    (has : ∀ input ∈ operator.inputs, state.Has input)
    (rowwise : operator.operation.isLoad = false ∧ operator.operation.isPackage = false ∧
      operator.operation.target? = none) :
    FailsWith RunError.IsOnData (operator.transform state) := by
  have only (one : inputCount? operator.operation = some 1) :
      FailsWith RunError.IsOnData (state.input operator 0) := by
    have inside : 0 < operator.inputs.length := by rw [wellFormed.inputCount 1 one]; exact one_pos
    obtain ⟨rows, read⟩ := TaskState.exists_input inside has
    exact .of_eq_ok read
  rw [Operator.transform]
  cases kind : operator.operation with
  | load => simp [kind, Operation.isLoad] at rowwise
  | package => simp [kind, Operation.isPackage] at rowwise
  | store => simp [kind, Operation.target?] at rowwise
  | filter | rearrange | forEach | sort =>
      exact (only (by rw [kind]; rfl)).bind fun rows _ => liftOperator_failsOnlyOnData _
  | limit => exact (only (by rw [kind]; rfl)).bind fun rows _ => .ok _
  | join keys fragment =>
      have sides : FailsWith RunError.IsOnData
          ((List.range operator.inputs.length).mapM (state.input operator)) := by
        refine .mapM fun side inRange => ?_
        obtain ⟨rows, read⟩ := TaskState.exists_input (List.mem_range.mp inRange) has
        exact .of_eq_ok read
      exact sides.bind fun rows _ => liftOperator_failsOnlyOnData _

/-- Only grouping operators compute rows without those of their inputs. -/
theorem WellFormedOperator.computed_failsOnlyOnData
    (wellFormed : plan.WellFormedOperator operator)
    (has : operator.operation.isPackage = false →
      ∀ input ∈ operator.inputs, state.Has input) :
    FailsWith RunError.IsOnData (plan.computed groups state operator) := by
  rw [computed]
  cases kind : operator.operation with
  | load => exact .ok _
  | package => exact .ok _
  | store target =>
      have one := wellFormed.inputCount 1 (by rw [kind]; rfl)
      obtain ⟨rows, read⟩ := TaskState.exists_input (by rw [one]; exact one_pos)
        (has (by rw [kind]; rfl))
      exact .of_eq_ok read
  | forEach exprs =>
      -- A projection that streams groups reads none of the rows bound.
      have transformed : FailsWith RunError.IsOnData (operator.transform state) :=
        wellFormed.transform_failsOnlyOnData (has (by rw [kind]; rfl))
          (by rw [kind]; exact ⟨rfl, rfl, rfl⟩)
      dsimp only
      split
      · split
        · exact liftOperator_failsOnlyOnData _
        · exact transformed
      · exact transformed
  | filter | rearrange | sort | limit | join =>
      exact wellFormed.transform_failsOnlyOnData (has (by rw [kind]; rfl))
        (by rw [kind]; exact ⟨rfl, rfl, rfl⟩)

/-- Every input of the operators is evaluated before its reader or bound from the
start, but for the inputs of grouping operators. -/
def Supplied (plan : SubPlan) (operators : List OpId) (bound : Bindings) : Prop :=
  ∀ before id after operator, operators = before ++ id :: after → plan.get? id = some operator →
    operator.operation.isPackage = false → ∀ input ∈ operator.inputs,
      input ∈ before ∨ ∃ rows, bound.get? input = some rows

namespace WellFormed

variable (wellFormed : plan.WellFormed)

include wellFormed

theorem evaluate_failsOnlyOnData {operators : List OpId} {bound : Bindings}
    (exist : ∀ id ∈ operators, ∃ operator, plan.get? id = some operator)
    (supplied : plan.Supplied operators bound) :
    FailsWith RunError.IsOnData (plan.evaluate operators bound groups) := by
  have start : ∀ id, id ∈ [] ∨ (∃ rows, bound.get? id = some rows) →
      TaskState.Has ⟨bound, [], ∅⟩ id := by
    rintro id (none | isBound)
    · simp at none
    · exact isBound
  -- What is kept: there are rows for all operators evaluated and all bound from the start.
  refine .foldlM_of_kept (fun before state => ∀ id, id ∈ before ∨
    (∃ rows, bound.get? id = some rows) → state.Has id) [] ?_ start
  intro before id after split state has
  rw [List.nil_append] at split
  obtain ⟨operator, found⟩ := exist id (by simp [split])
  rw [step_eq wellFormed.ownIds found]
  constructor
  · refine .map _ ((wellFormed.operators id operator found).computed_failsOnlyOnData ?_)
    exact fun plain input reads =>
      has input (supplied before id after operator split found plain input reads)
  · intro next stepped other there
    obtain ⟨rows, -, rfl⟩ := map_eq_ok.mp stepped
    rcases there with member | isBound
    · rcases List.mem_append.mp member with earlier | isLast
      · exact (has other (.inl earlier)).record plan operator rows
      · rw [List.mem_singleton.mp isLast, ← wellFormed.ownIds id operator found]
        exact state.has_record plan operator rows
    · exact (has other (.inr isBound)).record plan operator rows

variable {phases : Phases} (split : plan.phases = .ok phases)

include split

theorem supplied_map (bound : Bindings) : plan.Supplied phases.map bound :=
  fun before id after operator atId found _ input reads =>
    .inl (wellFormed.inputsFirst_map split before id after operator atId found input reads)

/-- In the reduce phase every operator but a grouping one reads what is evaluated
before it and replicated loads. -/
theorem supplied_reduce {bound : Bindings}
    (replicas : ∀ id, plan.Replicated id → ∃ rows, bound.get? id = some rows) :
    plan.Supplied phases.reduce bound := by
  intro before id after operator atId found notPackage input reads
  have inReduce := ((wellFormed.mem_reduce_iff split).mp (by simp [atId] : id ∈ phases.reduce)).2
  obtain ⟨side, atSide⟩ := List.getElem?_of_mem reads
  -- The main input is in the reduce phase itself; any other side is a replicated load.
  by_cases mainSide : ∀ keys fragment, operator.operation = .join keys fragment →
      side = fragment.toNat
  · have isMain := wellFormed.mainInput?_of_side found atSide mainSide
    have mainInReduce := wellFormed.reduceSide_mainInput found notPackage isMain inReduce
    exact .inl (wellFormed.input_before_reduce split atId found reads mainInReduce)
  · push Not at mainSide
    obtain ⟨keys, fragment, kind, different⟩ := mainSide
    exact .inr (replicas input (wellFormed.replicated_side found kind atSide different))

theorem runMapTask_failsOnlyOnData (loads : Bindings) :
    FailsWith RunError.IsOnData (plan.runMapTask phases loads) :=
  (wellFormed.evaluate_failsOnlyOnData
    (fun _ member => ((wellFormed.mem_map_iff split).mp member).1)
    (wellFormed.supplied_map split loads)).bind fun _ _ => .ok _

theorem runReduceTask_failsOnlyOnData {broadcast : Bindings}
    (replicas : ∀ id, plan.Replicated id → ∃ rows, broadcast.get? id = some rows)
    (groups : OrderedMap OpId Groups) :
    FailsWith RunError.IsOnData (plan.runReduceTask phases groups broadcast) :=
  (wellFormed.evaluate_failsOnlyOnData
    (fun _ member => ((wellFormed.mem_reduce_iff split).mp member).1)
    (wellFormed.supplied_reduce split replicas)).bind fun _ _ => .ok _

end WellFormed

end SubPlan

end BatchFlow
