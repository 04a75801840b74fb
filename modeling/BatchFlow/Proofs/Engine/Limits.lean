import BatchFlow.Proofs.Engine.Deliveries
import BatchFlow.Proofs.Engine.StoredRows

/-!
# Limits over several tasks

A limit is evaluated in every task of its phase over the rows that the task has for its
input, and nothing counts across tasks.  So as many rows pass as the limit allows, and more
as soon as two tasks have rows for it and there are too many in all; which tasks have rows
depends on the configuration.  A store behind the limit keeps what has passed.
-/

namespace BatchFlow

open FileStore Results

section Cuts

variable {α : Type} (count : Nat) (lists : List (List α))

theorem length_flatten_map_take_cons (first : List α) :
    ((first :: lists).map (List.take count)).flatten.length =
      min count first.length + (lists.map (List.take count)).flatten.length := by
  rw [List.map_cons, List.flatten_cons, List.length_append, List.length_take]

theorem length_flatten_map_take_le :
    (lists.map (List.take count)).flatten.length ≤ lists.flatten.length := by
  induction lists with
  | nil => exact Nat.le_refl 0
  | cons first rest ih =>
      rw [length_flatten_map_take_cons, List.flatten_cons, List.length_append]
      omega

variable {count lists} in
/-- If less than a full list is left in all, then nothing was cut off. -/
theorem length_flatten_map_take_of_lt
    (few : (lists.map (List.take count)).flatten.length < count) :
    (lists.map (List.take count)).flatten.length = lists.flatten.length := by
  induction lists with
  | nil => rfl
  | cons first rest ih =>
      rw [length_flatten_map_take_cons] at few ⊢
      rw [List.flatten_cons, List.length_append, ih (by omega)]
      omega

/-- Cutting each of several lists to a length leaves no more in all exactly if nothing is
allowed, there was not more before, or no two lists have elements. -/
theorem length_flatten_map_take_le_iff :
    (lists.map (List.take count)).flatten.length ≤ count ↔
      count = 0 ∨ lists.flatten.length ≤ count ∨
        lists.countP (fun elements => !elements.isEmpty) ≤ 1 := by
  induction lists with
  | nil => simp
  | cons first rest ih =>
      have atMost := length_flatten_map_take_le count rest
      have uncut : (rest.map (List.take count)).flatten.length < count → _ :=
        length_flatten_map_take_of_lt
      have noneFull : rest.countP (fun elements => !elements.isEmpty) = 0 ↔
          rest.flatten.length = 0 := by
        rw [List.length_eq_zero_iff, List.flatten_eq_nil_iff]
        simp
      rw [length_flatten_map_take_cons, List.flatten_cons, List.length_append, List.countP_cons]
      rcases Nat.eq_zero_or_pos first.length with isEmpty | isFull
      · rw [isEmpty, if_neg (by simpa using isEmpty)]
        omega
      · rw [if_pos (by simpa [List.length_pos_iff] using isFull)]
        omega

end Cuts

namespace SubPlan

variable {plan : SubPlan} {operator : Operator} {source : OpId} {pass : List Row → List Row}

/-- An operator that hands on what it keeps of the rows of its only input. -/
structure Relays (plan : SubPlan) (operator : Operator) (source : OpId)
    (pass : List Row → List Row) : Prop where
  inputs : operator.inputs = [source]
  notPackage : operator.operation.isPackage = false
  computed : ∀ groups state,
    plan.computed groups state operator = (state.input operator 0).map pass
  nothing : pass [] = []

namespace WellFormedOperator

variable (wellFormed : plan.WellFormedOperator operator)

include wellFormed

/-- A limit hands on the first rows. -/
theorem relays_limit {count : UInt64} (isLimit : operator.operation = .limit count) :
    ∃ source, plan.Relays operator source (List.take count.toNat) := by
  obtain ⟨source, inputs⟩ := wellFormed.inputs_of_one (by rw [isLimit]; rfl)
  refine ⟨source, inputs, by rw [isLimit]; rfl, fun groups state => ?_, List.take_nil⟩
  rw [SubPlan.computed, isLimit]
  simp only [Operator.transform, isLimit]
  cases state.input operator 0 <;> rfl

/-- A store hands on all rows. -/
theorem relays_store {target : String} (isStore : operator.operation = .store target) :
    ∃ source, plan.Relays operator source id := by
  obtain ⟨source, inputs⟩ := wellFormed.inputs_of_one (by rw [isStore]; rfl)
  refine ⟨source, inputs, by rw [isStore]; rfl, fun groups state => ?_, rfl⟩
  rw [SubPlan.computed, isStore]
  cases state.input operator 0 <;> rfl

end WellFormedOperator

namespace Relays

variable (relays : plan.Relays operator source pass)

include relays

/-- The operator is evaluated in the phase of its input. -/
theorem mem_reduceSide_iff (ownIds : plan.OwnIds) (isOperator : operator ∈ plan.operators) :
    source ∈ plan.reduceSide ↔ operator.id ∈ plan.reduceSide := by
  have found := ownIds.get?_id isOperator
  constructor
  · exact ownIds.reduceSide_of_feeds ⟨operator, found, by simp [relays.inputs]⟩
  · intro inReduce
    rcases ownIds.package_or_feeds_of_reduceSide inReduce with package | ⟨input, member, edge⟩
    · obtain ⟨other, foundOther, isPackage⟩ := ownIds.mem_packages.mp package
      obtain rfl := Option.some.inj (found.symm.trans foundOther)
      exact absurd isPackage (by simp [relays.notPackage])
    · obtain ⟨other, foundOther, reads⟩ := edge
      obtain rfl := Option.some.inj (found.symm.trans foundOther)
      rw [relays.inputs, List.mem_singleton] at reads
      exact reads ▸ member

/-- When its phase has been evaluated, the operator holds what it keeps of the rows of its
input. -/
theorem rowsAt_foldlM_step (ownIds : plan.OwnIds) (isOperator : operator ∈ plan.operators)
    {before after : List OpId} (nodup : (before ++ operator.id :: after).Nodup)
    (sourceFirst : source ∈ before) {share final : Share}
    (evaluated : (before ++ operator.id :: after).foldlM (Share.step plan) share = .ok final) :
    final.rowsAt operator.id = pass (final.rowsAt source) := by
  -- No operator is evaluated twice, so both have their last rows once the operator is reached.
  obtain ⟨-, nodupAfter, disjoint⟩ := List.nodup_append.mp nodup
  have idNotLater := (List.nodup_cons.mp nodupAfter).1
  have sourceNotLater : source ∉ operator.id :: after := fun later =>
    disjoint source sourceFirst source later rfl
  obtain ⟨sourceNotId, sourceNotAfter⟩ := List.ne_and_not_mem_of_not_mem_cons sourceNotLater
  rw [List.foldlM_append] at evaluated
  obtain ⟨reached, -, rest⟩ := bind_eq_ok.mp evaluated
  rw [List.foldlM_cons] at rest
  obtain ⟨next, stepped, rest⟩ := bind_eq_ok.mp rest
  rw [Share.step_eq ownIds (ownIds.get?_id isOperator)] at stepped
  obtain ⟨rows, computed, rfl⟩ := map_eq_ok.mp stepped
  rw [Share.computed, relays.computed] at computed
  obtain ⟨given, read, rfl⟩ := map_eq_ok.mp computed
  have atSource : reached.rowsAt source = given := by
    simp only [TaskState.input, relays.inputs, List.getElem?_cons_zero] at read
    cases found : reached.state.rows.get? source with
    | none => simp [found] at read
    | some rows => simpa [found, Share.rowsAt] using read
  rw [ownIds.rowsAt_foldlM_step_of_not_mem rest idNotLater,
    ownIds.rowsAt_foldlM_step_of_not_mem rest sourceNotAfter, Share.rowsAt_record, if_pos rfl,
    Share.rowsAt_record, if_neg sourceNotId, atSource]

/-- In every task of a phase the operator produces what it keeps of what its input
produces. -/
theorem produced_of_ends (ownIds : plan.OwnIds) (isOperator : operator ∈ plan.operators)
    {operators : List OpId} (nodup : operators.Nodup)
    (sourceFirst : ∀ before after, operators = before ++ operator.id :: after → source ∈ before)
    (samePhase : source ∈ operators ↔ operator.id ∈ operators) {finals : List Share}
    (ends : plan.EndsOf operators finals) :
    (finals.map fun final => if operator.id ∈ operators then final.rowsAt operator.id else []) =
      (finals.map fun final => if source ∈ operators then final.rowsAt source else []).map
        pass := by
  rw [List.map_map]
  refine List.map_congr_left fun final isFinal => ?_
  by_cases inPhase : operator.id ∈ operators
  · obtain ⟨shares, -, evaluated⟩ := ends
    obtain ⟨share, -, ran⟩ := exists_mem_of_forall₂ (mapM_eq_ok.mp evaluated).flip isFinal
    obtain ⟨before, after, rfl⟩ := List.append_of_mem inPhase
    rw [if_pos inPhase, Function.comp_apply, if_pos (samePhase.mpr inPhase)]
    exact relays.rowsAt_foldlM_step ownIds isOperator nodup (sourceFirst before after rfl) ran
  · rw [if_neg inPhase, Function.comp_apply, if_neg fun inside => inPhase (samePhase.mp inside),
      relays.nothing]

end Relays

end SubPlan

namespace Stage

variable {stage : Stage} {graph : StageGraph} {config : EngineConfig} {store after : FileStore}
  {stats : JobStats}

/-- In every task of the stage the operator produces what it keeps of what its input
produces. -/
theorem Finished.producedByTasks_of_relays {tasks : StageTasks}
    {mapFinals reduceFinals : List Share}
    (finished : stage.Finished graph config store tasks mapFinals reduceFinals)
    (wellFormed : stage.plan.WellFormed) {operator : Operator} {source : OpId}
    {pass : List Row → List Row} (isOperator : operator ∈ stage.plan.operators)
    (relays : stage.plan.Relays operator source pass) :
    ∃ offered, stage.producedByTasks graph config store source = .ok offered ∧
      stage.producedByTasks graph config store operator.id = .ok (offered.map pass) := by
  have ownIds := wellFormed.ownIds
  have divided := finished.divided
  have found := ownIds.get?_id isOperator
  have reads : source ∈ operator.inputs := by simp [relays.inputs]
  have isSource := (wellFormed.operators _ operator found).inputsExist source reads
  have samePhase := relays.mem_reduceSide_iff ownIds isOperator
  obtain ⟨nodupMap, nodupReduce⟩ := wellFormed.nodup_phases divided
  have inMap : source ∈ tasks.phases.map ↔ operator.id ∈ tasks.phases.map := by
    rw [wellFormed.mem_map_iff divided, wellFormed.mem_map_iff divided, samePhase,
      and_iff_right isSource, and_iff_right ⟨operator, found⟩]
  have inReduce : source ∈ tasks.phases.reduce ↔ operator.id ∈ tasks.phases.reduce := by
    rw [wellFormed.mem_reduce_iff divided, wellFormed.mem_reduce_iff divided, samePhase,
      and_iff_right isSource, and_iff_right ⟨operator, found⟩]
  have firstInMap (before after : List OpId)
      (split : tasks.phases.map = before ++ operator.id :: after) : source ∈ before :=
    wellFormed.inputsFirst_map divided before operator.id after operator split found source reads
  have firstInReduce (before after : List OpId)
      (split : tasks.phases.reduce = before ++ operator.id :: after) : source ∈ before := by
    have member : source ∈ tasks.phases.reduce := inReduce.mpr (by simp [split])
    exact wellFormed.input_before_reduce divided split found reads
      ((wellFormed.mem_reduce_iff divided).mp member).2
  refine ⟨_, finished.produced source, ?_⟩
  rw [finished.produced operator.id, List.map_append,
    relays.produced_of_ends ownIds isOperator nodupMap firstInMap inMap finished.mapEnds,
    relays.produced_of_ends ownIds isOperator nodupReduce firstInReduce inReduce
      finished.reduceEnds]

/-- A limit passes on the first rows of every task, so over all tasks it passes more rows than
it allows exactly if there are too many and two tasks have some.  A store behind it keeps what
has passed, if no two stores have equal or nested targets. -/
theorem rows_past_limit (ownIds : stage.plan.OwnIds) (valid : stage.plan.validate = .ok ())
    (ran : stage.run graph config store = .ok stats after) {limiter : Operator} {count : UInt64}
    (isOperator : limiter ∈ stage.plan.operators) (isLimit : limiter.operation = .limit count) :
    ∃ source offered, limiter.inputs = [source] ∧
      stage.producedByTasks graph config store source = .ok offered ∧
      stage.producedByTasks graph config store limiter.id =
        .ok (offered.map (List.take count.toNat)) ∧
      ((offered.map (List.take count.toNat)).flatten.length ≤ count.toNat ↔
        count = 0 ∨ offered.flatten.length ≤ count.toNat ∨
          offered.countP (fun rows => !rows.isEmpty) ≤ 1) ∧
      (stage.plan.SeparateTargets → ∀ storer ∈ stage.plan.operators, ∀ target,
        storer.operation = .store target → storer.inputs = [limiter.id] →
          (after.rowsOf target).Perm (offered.map (List.take count.toNat)).flatten) := by
  have wellFormed := ownIds.wellFormed valid
  obtain ⟨tasks, tasksRan, rfl, rfl⟩ := run_eq_ok.mp ran
  obtain ⟨mapFinals, reduceFinals, finished⟩ := exists_finished ownIds tasksRan
  obtain ⟨source, limits⟩ :=
    (wellFormed.operators _ limiter (ownIds.get?_id isOperator)).relays_limit isLimit
  obtain ⟨offered, isOffered, passed⟩ :=
    finished.producedByTasks_of_relays wellFormed isOperator limits
  have noneAllowed : count.toNat = 0 ↔ count = 0 := UInt64.toNat_inj (b := 0)
  refine ⟨source, offered, limits.inputs, isOffered, passed, ?_, ?_⟩
  · rw [length_flatten_map_take_le_iff, noneAllowed]
  · intro separate storer isStorer target isStore inputs
    obtain ⟨input, stores⟩ :=
      (wellFormed.operators _ storer (ownIds.get?_id isStorer)).relays_store isStore
    obtain rfl : limiter.id = input := List.singleton_inj.mp (inputs.symm.trans stores.inputs)
    obtain ⟨arrived, hasArrived, kept⟩ :=
      finished.producedByTasks_of_relays wellFormed isStorer stores
    obtain rfl := Except.ok.inj (passed.symm.trans hasArrived)
    rw [List.map_id] at kept
    obtain ⟨before, rest, split⟩ := List.append_of_mem isStorer
    obtain ⟨leftAlone, only⟩ := leavesAlone_of_separate ownIds separate split isStore
    obtain ⟨rowsAt, reached⟩ : ∃ rowsAt : OpId → List Row,
        ∀ id, stage.reached graph config store id = .ok (rowsAt id) := ⟨_, finished.reached⟩
    have parts := finished.perm_partsOf wellFormed reached isStorer target
    rw [only, List.flatMap_singleton,
      Except.ok.inj ((reached storer.id).symm.trans (reached_of_producedByTasks kept))] at parts
    exact (rowsOf_perm_of_leftAlone wellFormed finished.divided split isStore leftAlone).trans parts

/-- A plan that joins sales with regions and keeps the first row. -/
def firstSale : SubPlan :=
  ((((SubPlan.empty.insert ⟨⟨0⟩, .load (.dataset "sales"), []⟩).insert
    ⟨⟨1⟩, .load (.dataset "regions"), []⟩).insert
    ⟨⟨2⟩, .join [0, 0] 0, [⟨0⟩, ⟨1⟩]⟩).insert
    ⟨⟨3⟩, .limit 1, [⟨2⟩]⟩).insert
    ⟨⟨4⟩, .store "first", [⟨3⟩]⟩

/-- The stage with this plan. -/
def firstSaleStage : Stage :=
  ⟨⟨0⟩, .ordinary, firstSale, {}⟩

/-- The graph with this stage alone. -/
def firstSaleGraph : StageGraph :=
  ⟨(∅ : OrderedMap StageId Stage).insert ⟨0⟩ firstSaleStage, ∅, 1⟩

theorem ownIds_firstSale : firstSale.OwnIds :=
  ((((SubPlan.OwnIds.empty.insert _).insert _).insert _).insert _).insert _

theorem phases_firstSale :
    firstSale.phases = .ok ⟨[⟨0⟩, ⟨1⟩, ⟨2⟩, ⟨3⟩, ⟨4⟩], []⟩ := by
  cbv

/-- The tasks of the stage over `salesStore` when they store some rows. -/
def firstSaleTasks (stored : List (List Row)) : StageTasks where
  phases := ⟨[⟨0⟩, ⟨1⟩, ⟨2⟩, ⟨3⟩, ⟨4⟩], []⟩
  broadcastFiles := 1
  mapOutputs := stored.map fun rows =>
    ⟨(∅ : OrderedMap String (List Row)).insert "first" rows, ∅⟩
  reduceOutputs := []

/-- The first row of each file of sales, joined with its region. -/
def firstRows : List (List Row) :=
  [[[.int 1, .int 5, .int 1, .int 10]], [[.int 1, .int 6, .int 1, .int 10]]]

theorem runTasks_firstSaleStage :
    firstSaleStage.runTasks firstSaleGraph {} salesStore =
        .ok (firstSaleTasks (firstRows.take 1)) ∧
      firstSaleStage.runTasks firstSaleGraph unmerged salesStore =
        .ok (firstSaleTasks firstRows) := by
  rw [runTasks, runTasks, show firstSaleStage.plan = firstSale from rfl, phases_firstSale]
  exact ⟨rfl, rfl⟩

theorem run_firstSaleStage :
    firstSaleStage.run firstSaleGraph unmerged salesStore = .ok ⟨2, 0, 2, 2, 1⟩
      (salesStore.replaceAll ((firstSaleTasks firstRows).writes firstSale)) :=
  run_eq_ok.mpr ⟨_, runTasks_firstSaleStage.2, rfl, rfl⟩

/-- The rows of the join and of the limit in the two tasks of the stage. -/
theorem producedByTasks_firstSaleStage :
    firstSaleStage.producedByTasks firstSaleGraph unmerged salesStore ⟨2⟩ =
        .ok [[[.int 1, .int 5, .int 1, .int 10], [.int 2, .int 7, .int 2, .int 20]],
          [[.int 1, .int 6, .int 1, .int 10]]] ∧
      firstSaleStage.producedByTasks firstSaleGraph unmerged salesStore ⟨3⟩ = .ok firstRows := by
  rw [producedByTasks, producedByTasks, show firstSaleStage.plan = firstSale from rfl,
    phases_firstSale]
  exact ⟨rfl, rfl⟩

/-- Both tasks have rows, so two rows pass and are stored. -/
theorem rows_past_limit_firstSaleStage :
    firstSale.OwnIds ∧ firstSale.validate = .ok () ∧ firstSale.SeparateTargets ∧
      ∃ stats after offered,
        firstSaleStage.run firstSaleGraph unmerged salesStore = .ok stats after ∧
        firstSaleStage.producedByTasks firstSaleGraph unmerged salesStore ⟨2⟩ = .ok offered ∧
        (after.rowsOf "first").Perm (offered.map (List.take 1)).flatten ∧
        1 < (offered.map (List.take 1)).flatten.length := by
  have valid : firstSale.validate = .ok () := rfl
  have separate : firstSale.SeparateTargets := by decide
  have limiter : ⟨⟨3⟩, .limit 1, [⟨2⟩]⟩ ∈ firstSale.operators :=
    SubPlan.mem_operators.mpr ⟨⟨3⟩, rfl⟩
  have storer : ⟨⟨4⟩, .store "first", [⟨3⟩]⟩ ∈ firstSale.operators :=
    SubPlan.mem_operators.mpr ⟨⟨4⟩, rfl⟩
  obtain ⟨source, offered, inputs, isOffered, -, atMost, stored⟩ :=
    rows_past_limit ownIds_firstSale valid run_firstSaleStage limiter rfl
  obtain rfl := List.singleton_inj.mp inputs
  obtain rfl := Except.ok.inj (producedByTasks_firstSaleStage.1.symm.trans isOffered)
  refine ⟨ownIds_firstSale, valid, separate, _, _, _, run_firstSaleStage, isOffered,
    stored separate _ storer "first" rfl rfl, ?_⟩
  exact Nat.lt_of_not_le fun few => absurd (atMost.mp few) (by decide)

/-- A limit of one row passes one row when the two files of its input are one split, and two
rows, which are stored, when they are two. -/
theorem firstSale_depends_on_splits :
    firstSale.OwnIds ∧ firstSale.validate = .ok () ∧ firstSaleStage.kind = .ordinary ∧
      firstSale.get? ⟨3⟩ = some ⟨⟨3⟩, .limit 1, [⟨2⟩]⟩ ∧
      firstSale.get? ⟨4⟩ = some ⟨⟨4⟩, .store "first", [⟨3⟩]⟩ ∧
      (∃ stats after, firstSaleStage.run firstSaleGraph {} salesStore = .ok stats after ∧
        after.rowsOf "first" = [[.int 1, .int 5, .int 1, .int 10]]) ∧
      ∃ stats after passed,
        firstSaleStage.run firstSaleGraph unmerged salesStore = .ok stats after ∧
        firstSaleStage.producedByTasks firstSaleGraph unmerged salesStore ⟨3⟩ = .ok passed ∧
        ¬ passed.flatten.length ≤ 1 ∧ ¬ (after.rowsOf "first").length ≤ 1 := by
  have combined : firstSaleStage.run firstSaleGraph {} salesStore = .ok ⟨1, 0, 1, 1, 1⟩
      (salesStore.replaceAll ((firstSaleTasks (firstRows.take 1)).writes firstSale)) :=
    run_eq_ok.mpr ⟨_, runTasks_firstSaleStage.1, rfl, rfl⟩
  have stored : (salesStore.replaceAll ((firstSaleTasks firstRows).writes firstSale)).rowsOf
      "first" = firstRows.flatten := rfl
  refine ⟨ownIds_firstSale, rfl, rfl, rfl, rfl, ⟨_, _, combined, rfl⟩, _, _, _,
    run_firstSaleStage, producedByTasks_firstSaleStage.2, by decide, ?_⟩
  rw [stored]
  decide

end Stage

end BatchFlow
