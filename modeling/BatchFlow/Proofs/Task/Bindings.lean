import BatchFlow.Proofs.Plan.Phases
import BatchFlow.Proofs.Task.Step

/-!
# Rows during an evaluation

Evaluating an operator binds rows to this operator and to no other, and a load
is bound to the rows it had from the start.  Wherever an evaluation stops, the
rows at a load are therefore those that the task was given for it.
-/

namespace BatchFlow

open Results

namespace SubPlan

variable {plan : SubPlan} {groups : OpId → Groups} {operators : List OpId}

section Steps

variable {state next final : TaskState} {id other : OpId}

theorem OwnIds.get?_step_of_ne (ownIds : plan.OwnIds)
    (stepped : plan.step groups state id = .ok next) (different : other ≠ id) :
    next.rows.get? other = state.rows.get? other := by
  obtain ⟨operator, found⟩ := exists_of_step stepped
  rw [step_eq ownIds found] at stepped
  obtain ⟨rows, -, rfl⟩ := map_eq_ok.mp stepped
  rw [TaskState.record, ownIds id operator found]
  exact OrderedMap.get?_insert_of_ne different

theorem get?_step_load {operator : Operator} (found : plan.get? id = some operator)
    (isLoad : operator.operation.isLoad = true) (stepped : plan.step groups state id = .ok next) :
    next.rows.get? id = some ((state.rows.get? id).getD []) := by
  obtain ⟨source, kind⟩ := Operation.isLoad_iff.mp isLoad
  simp only [step, found, kind, pure_eq_ok] at stepped
  rw [← stepped, TaskState.withRows]
  exact OrderedMap.get?_insert_self ..

theorem OwnIds.get?_foldlM_step_of_not_mem (ownIds : plan.OwnIds)
    (evaluated : operators.foldlM (plan.step groups) state = .ok final)
    (absent : other ∉ operators) : final.rows.get? other = state.rows.get? other := by
  induction operators generalizing state with
  | nil => rw [pure_eq_ok.mp evaluated]
  | cons id operators ih =>
      rw [List.foldlM_cons] at evaluated
      obtain ⟨next, stepped, rest⟩ := bind_eq_ok.mp evaluated
      obtain ⟨different, notLater⟩ := List.ne_and_not_mem_of_not_mem_cons absent
      rw [ih rest notLater]
      exact ownIds.get?_step_of_ne stepped different

/-- A load that is evaluated is bound to the rows it had. -/
theorem OwnIds.get?_foldlM_step_load (ownIds : plan.OwnIds) {operator : Operator}
    (found : plan.get? id = some operator) (isLoad : operator.operation.isLoad = true)
    (evaluated : operators.foldlM (plan.step groups) state = .ok final)
    (member : id ∈ operators) : final.rows.get? id = some ((state.rows.get? id).getD []) := by
  induction operators generalizing state with
  | nil => simp at member
  | cons first operators ih =>
      rw [List.foldlM_cons] at evaluated
      obtain ⟨next, stepped, rest⟩ := bind_eq_ok.mp evaluated
      -- An order has no repetitions, but nothing here depends on that.
      by_cases later : id ∈ operators
      · rw [ih rest later]
        by_cases atFirst : id = first
        · subst atFirst
          rw [get?_step_load found isLoad stepped]
          rfl
        · rw [ownIds.get?_step_of_ne stepped atFirst]
      · obtain rfl : id = first := (List.mem_cons.mp member).resolve_right later
        rw [ownIds.get?_foldlM_step_of_not_mem rest later]
        exact get?_step_load found isLoad stepped

end Steps

theorem exists_evaluate_of_append {before after : List OpId} {bound : Bindings}
    {final : TaskState} (evaluated : plan.evaluate (before ++ after) bound groups = .ok final) :
    ∃ state, plan.evaluate before bound groups = .ok state := by
  rw [evaluate, List.foldlM_append] at evaluated
  obtain ⟨state, reached, -⟩ := bind_eq_ok.mp evaluated
  exact ⟨state, reached⟩

namespace WellFormed

variable (wellFormed : plan.WellFormed) {consumer : OpId} {reader : Operator} {side : Nat}
  (found : plan.get? consumer = some reader)

include wellFormed found

/-- What an operator reads otherwise than on a replicated side is its main input. -/
theorem mainInput?_of_side {input : OpId} (reads : reader.inputs[side]? = some input)
    (mainSide : ∀ keys fragment, reader.operation = .join keys fragment →
      side = fragment.toNat) : reader.mainInput? = some input := by
  have inputCount := (wellFormed.operators consumer reader found).inputCount
  have inside : side < reader.inputs.length := (List.getElem?_eq_some_iff.mp reads).1
  cases kind : reader.operation with
  | load =>
      have none := inputCount 0 (by rw [kind]; rfl)
      omega
  | join keys fragment =>
      rw [mainSide keys fragment kind] at reads
      rw [Operator.mainInput?, kind]
      exact reads
  | filter | rearrange | package | forEach | sort | limit | store =>
      have one := inputCount 1 (by rw [kind]; rfl)
      have atFirst : side = 0 := by omega
      rw [Operator.mainInput?, kind, List.head?_eq_getElem?, ← atFirst]
      exact reads

/-- What reads a load as its main input and groups nothing runs in the map phase. -/
theorem not_reduceSide_of_reads_load {load : OpId} {loader : Operator}
    (isMain : reader.mainInput? = some load) (foundLoad : plan.get? load = some loader)
    (isLoad : loader.operation.isLoad = true) (notPackage : reader.operation.isPackage = false) :
    consumer ∉ plan.reduceSide := by
  intro inReduce
  have loadInReduce := wellFormed.reduceSide_mainInput found notPackage isMain inReduce
  exact wellFormed.not_reduceSide_of_isLoad foundLoad isLoad loadInReduce

end WellFormed

end SubPlan

end BatchFlow
