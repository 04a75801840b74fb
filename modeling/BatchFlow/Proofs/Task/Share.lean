import BatchFlow.Proofs.Task.Distribution

/-!
# Tasks under way

A task has groups and its progress, and each operator that it evaluates computes rows
and records them.  A task in which no sort stops proceeds past every sort; the task
itself does the same, or a sort stops it.
-/

namespace BatchFlow

open Results

/-- A task under way: the groups it was dealt and its progress. -/
structure Share where
  groups : OpId → Groups
  state : TaskState

namespace Share

/-- The rows a task has at an operator. -/
def rowsAt (share : Share) (id : OpId) : List Row :=
  (share.state.rows.get? id).getD []

/-- The rows a task has stored under a target. -/
def storedAt (share : Share) (target : String) : List Row :=
  (share.state.stores.get? target).getD []

/-- The rows a task computes for an operator. -/
def computed (plan : SubPlan) (operator : Operator) (share : Share) :
    Except RunError (List Row) :=
  plan.computed share.groups share.state operator

/-- The task after it has computed the rows of an operator. -/
def record (plan : SubPlan) (operator : Operator) (share : Share) (rows : List Row) : Share :=
  { share with state := share.state.record plan operator rows }

/-- Evaluate one operator. -/
def step (plan : SubPlan) (share : Share) (id : OpId) : Except RunError Share :=
  (plan.step share.groups share.state id).map fun state => { share with state := state }

theorem step_eq {plan : SubPlan} (ownIds : plan.OwnIds) {id : OpId} {operator : Operator}
    (found : plan.get? id = some operator) (share : Share) :
    share.step plan id = (share.computed plan operator).map (share.record plan operator) := by
  rw [step, plan.step_eq ownIds found, computed]
  cases plan.computed share.groups share.state operator <;> rfl

/-- Evaluating operators keeps the groups. -/
theorem foldlM_step_eq {plan : SubPlan} {operators : List OpId} {share : Share} :
    operators.foldlM (step plan) share =
      (operators.foldlM (plan.step share.groups) share.state).map fun state =>
        { share with state := state } := by
  induction operators generalizing share with
  | nil => rfl
  | cons id operators ih =>
      rw [List.foldlM_cons, List.foldlM_cons, step]
      cases plan.step share.groups share.state id with
      | error error => rfl
      | ok state => exact ih

theorem foldlM_step_eq_ok {plan : SubPlan} {operators : List OpId} {share final : Share} :
    operators.foldlM (step plan) share = .ok final ↔
      operators.foldlM (plan.step share.groups) share.state = .ok final.state ∧
        final.groups = share.groups := by
  rw [foldlM_step_eq, map_eq_ok]
  constructor
  · rintro ⟨state, evaluated, rfl⟩
    exact ⟨evaluated, rfl⟩
  · rintro ⟨evaluated, sameGroups⟩
    exact ⟨final.state, evaluated, by rw [← sameGroups]⟩

theorem rowsAt_record {plan : SubPlan} {operator : Operator} {share : Share} {rows : List Row}
    (id : OpId) :
    (share.record plan operator rows).rowsAt id =
      if id = operator.id then rows else share.rowsAt id := by
  rw [rowsAt, record, TaskState.record, OrderedMap.get?_insert]
  split <;> rfl

theorem storedAt_record {plan : SubPlan} {operator : Operator} {share : Share} {rows : List Row}
    (target : String) :
    (share.record plan operator rows).storedAt target =
      share.storedAt target ++ if operator.operation.target? = some target then rows else [] := by
  rw [storedAt, record, TaskState.record]
  cases kind : operator.operation with
  | store other =>
      simp only [OrderedMap.get?_upsert, Operation.target?, Option.some.injEq]
      by_cases same : target = other
      · subst same
        simp [storedAt]
      · simp [same, Ne.symm same, storedAt]
  | _ => simp [Operation.target?, storedAt]

/-- The rows a task computes for an operator if a sort does not stop it. -/
def unstopped (plan : SubPlan) (operator : Operator) (share : Share) :
    Except RunError (List Row) :=
  plan.unstopped share.groups share.state operator

/-- Evaluate one operator, where a sort does not stop the task. -/
def proceed (plan : SubPlan) (share : Share) (id : OpId) : Except RunError Share :=
  match plan.get? id with
  | some operator =>
      match operator.operation with
      | .sort _ _ => (share.unstopped plan operator).map fun rows =>
          { share with state := share.state.withRows id rows }
      | _ => share.step plan id
  | none => share.step plan id

section Proceed

variable {plan : SubPlan} {id : OpId} {operator : Operator} {share next : Share}

theorem proceed_eq (ownIds : plan.OwnIds) (found : plan.get? id = some operator) (share : Share) :
    share.proceed plan id = (share.unstopped plan operator).map (share.record plan operator) := by
  rw [proceed, found]
  cases kind : operator.operation with
  | sort =>
      have recorded : share.record plan operator = fun rows =>
          { share with state := share.state.withRows id rows } := by
        funext rows
        rw [record, ownIds.record_eq_withRows found (by rw [kind]; rfl) (by rw [kind]; rfl)]
      simp only [kind, recorded]
  | _ =>
      simp only [kind]
      rw [share.step_eq ownIds found, computed, unstopped, SubPlan.unstopped, kind]

theorem proceed_of_step (ownIds : plan.OwnIds) (stepped : share.step plan id = .ok next) :
    share.proceed plan id = .ok next := by
  obtain ⟨state, isStep, -⟩ := map_eq_ok.mp stepped
  obtain ⟨operator, found⟩ := SubPlan.exists_of_step isStep
  rw [share.step_eq ownIds found] at stepped
  obtain ⟨rows, computed, rfl⟩ := map_eq_ok.mp stepped
  exact (share.proceed_eq ownIds found).trans
    (map_eq_ok.mpr ⟨rows, SubPlan.unstopped_of_computed computed, rfl⟩)

/-- A task evaluates an operator as it would past every sort, unless a sort stops it. -/
theorem step_of_proceed (ownIds : plan.OwnIds) (proceeds : share.proceed plan id = .ok next) :
    OkUnless RunError.IsStop (share.step plan id) next := by
  cases found : plan.get? id with
  | none =>
      rw [proceed, found] at proceeds
      exact .inl proceeds
  | some operator =>
      rw [share.proceed_eq ownIds found] at proceeds
      rw [share.step_eq ownIds found]
      obtain ⟨rows, unstopped, rfl⟩ := map_eq_ok.mp proceeds
      exact .map _ (SubPlan.computed_of_unstopped unstopped)

theorem foldlM_proceed_of_step (ownIds : plan.OwnIds) {operators : List OpId} {final : Share}
    (run : operators.foldlM (step plan) share = .ok final) :
    operators.foldlM (proceed plan) share = .ok final := by
  have simulated : ∃ other, operators.foldlM (proceed plan) share = .ok other ∧ final = other :=
    foldlM_simulates (fun id _ before after _ same stepped =>
      ⟨after, same ▸ proceed_of_step ownIds stepped, rfl⟩) rfl run
  obtain ⟨_, proceeds, rfl⟩ := simulated
  exact proceeds

theorem foldlM_step_of_proceed (ownIds : plan.OwnIds) {operators : List OpId} {final : Share}
    (run : operators.foldlM (proceed plan) share = .ok final) :
    OkUnless RunError.IsStop (operators.foldlM (step plan) share) final :=
  .foldlM (fun _ _ _ _ => step_of_proceed ownIds) run

theorem mapM_proceed_of_step (ownIds : plan.OwnIds) {operators : List OpId}
    {parts finals : List Share}
    (run : parts.mapM (fun part => operators.foldlM (step plan) part) = .ok finals) :
    parts.mapM (fun part => operators.foldlM (proceed plan) part) = .ok finals :=
  mapM_eq_ok.mpr ((mapM_eq_ok.mp run).imp fun _ _ => foldlM_proceed_of_step ownIds)

theorem mapM_step_of_proceed (ownIds : plan.OwnIds) {operators : List OpId}
    {parts finals : List Share}
    (run : parts.mapM (fun part => operators.foldlM (proceed plan) part) = .ok finals) :
    OkUnless RunError.IsStop (parts.mapM fun part => operators.foldlM (step plan) part) finals :=
  .mapM (mapM_eq_ok.mp run) fun _ _ _ => foldlM_step_of_proceed ownIds

end Proceed

end Share

end BatchFlow
