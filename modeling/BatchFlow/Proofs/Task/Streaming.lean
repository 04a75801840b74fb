import BatchFlow.Optimizer.Accumulation
import BatchFlow.Proofs.Plan.Phases
import BatchFlow.Proofs.Plan.Relabeling
import BatchFlow.Proofs.Task.GroupStreaming
import BatchFlow.Proofs.Task.Step
import Mathlib.Data.List.Permutation

/-!
# Streaming evaluation against materialized evaluation

A run that streams groups is simulated by the run of the same plan with all
flags cleared.  The states agree in their stores and in all rows, except that
the second holds materialized groups where the first holds none.  Only
projections read these rows, and a projection that streams yields what it
yields over the materialized groups.
-/

namespace BatchFlow

open Results

/-- The operation, accumulative or not if it groups rows. -/
def Operation.withFlag (flag : Bool) : Operation → Operation
  | .package parallelism _ => .package parallelism flag
  | operation => operation

namespace Operation

variable (flag : Bool) (operation : Operation)

@[simp]
theorem isPackage_withFlag : (operation.withFlag flag).isPackage = operation.isPackage := by
  cases operation <;> rfl

@[simp]
theorem isForEach_withFlag : (operation.withFlag flag).isForEach = operation.isForEach := by
  cases operation <;> rfl

theorem withFlag_withFlag (first second : Bool) :
    (operation.withFlag first).withFlag second = operation.withFlag second := by
  cases operation <;> rfl

theorem keepsInputs_withFlag : SubPlan.KeepsInputs (withFlag flag) where
  inputCount operation := by cases operation <;> rfl
  isLoad operation := by cases operation <;> rfl
  join operation keys fragment := by cases operation <;> simp [withFlag]

theorem isAccumulative_withFlag :
    (operation.withFlag flag).isAccumulative = (operation.isPackage && flag) := by
  cases operation <;> rfl

theorem withFlag_of_not_package {operation : Operation} (plain : operation.isPackage = false) :
    operation.withFlag flag = operation := by
  cases operation <;> first | rfl | simp [isPackage] at plain

end Operation

namespace SubPlan

/-- The plan with the flags of all grouping operators set to one value. -/
def withFlags (flag : Bool) (plan : SubPlan) : SubPlan :=
  plan.relabel (Operation.withFlag flag)

theorem phases_withFlags (flag : Bool) (plan : SubPlan) :
    (plan.withFlags flag).phases = plan.phases :=
  plan.phases_relabel _ (Operation.isPackage_withFlag flag)

theorem get?_withFlags (flag : Bool) (plan : SubPlan) (id : OpId) :
    (plan.withFlags flag).get? id =
      (plan.get? id).map (Operator.relabel (Operation.withFlag flag)) :=
  plan.get?_relabel ..

theorem OwnIds.withFlags {plan : SubPlan} (ownIds : plan.OwnIds) (flag : Bool) :
    (plan.withFlags flag).OwnIds :=
  (plan.ownIds_relabel _).mpr ownIds

theorem withFlags_withFlags (plan : SubPlan) (first second : Bool) :
    (plan.withFlags first).withFlags second = plan.withFlags second := by
  rw [withFlags, withFlags, relabel_relabel]
  exact congrArg (plan.relabel ·) (funext fun operation => operation.withFlag_withFlag ..)

theorem streams_withFlags_false (plan : SubPlan) (id : OpId) :
    (plan.withFlags false).streams id = false := by
  rw [← Bool.not_eq_true, streams_iff]
  rintro ⟨⟨operator, found, accumulative⟩, -⟩
  obtain ⟨original, -, rfl⟩ := Option.map_eq_some_iff.mp (get?_withFlags .. ▸ found)
  simp [Operator.relabel, Operation.isAccumulative_withFlag] at accumulative

/-- Every expression of a projection over streamed groups has a slot, unless
there is no group. -/
def StreamableAt (groups : OpId → Groups) (streamed : List OpId) (operator : Operator) : Prop :=
  ∀ exprs package, operator.operation = .forEach exprs → package ∈ operator.inputs →
    package ∈ streamed → groups package ≠ [] → ∀ expr ∈ exprs, Slot.Streamable expr

/-- The second state holds the materialized groups that the first one streams,
and is the same otherwise. -/
structure Mirrors (plan : SubPlan) (groups : OpId → Groups)
    (streaming materialized : TaskState) : Prop where
  stores : streaming.stores = materialized.stores
  noneStreamed : materialized.streamed = []
  sameRows : ∀ id, id ∉ streaming.streamed →
    streaming.rows.get? id = materialized.rows.get? id
  groupRows : ∀ id ∈ streaming.streamed, plan.streams id = true ∧
    materialized.rows.get? id = some (groups id).materialize

variable {plan : SubPlan} {groups : OpId → Groups} {id : OpId} {operator : Operator}
  {streaming materialized : TaskState} {rows : List Row}

theorem Mirrors.start (plan : SubPlan) (groups : OpId → Groups) (bound : Bindings) :
    plan.Mirrors groups ⟨bound, [], ∅⟩ ⟨bound, [], ∅⟩ :=
  ⟨rfl, rfl, fun _ _ => rfl, fun _ member => absurd member (by simp)⟩

theorem Mirrors.transform_eq (mirrors : plan.Mirrors groups streaming materialized)
    (noneStreamed : ∀ input ∈ operator.inputs, input ∉ streaming.streamed) :
    operator.transform streaming = operator.transform materialized :=
  Operator.transform_congr fun input reads => mirrors.sameRows input (noneStreamed input reads)

theorem transform_forEach {exprs : List Expr} {input : OpId} {state : TaskState}
    (kind : operator.operation = .forEach exprs) (reads : operator.inputs = [input])
    {source : List Row} (found : state.rows.get? input = some source) :
    operator.transform state =
      liftOperator (source.mapM fun row => exprs.mapM fun expr => expr.project row) := by
  simp [Operator.transform, kind, TaskState.input, reads, found, bind, Except.bind]

/-- Outside of grouping operators, streaming computes some rows exactly when
every expression it needs has a slot and the materialized evaluation computes
the same rows. -/
theorem Mirrors.computed_iff (mirrors : plan.Mirrors groups streaming materialized)
    (wellFormed : plan.WellFormed) (found : plan.get? id = some operator)
    (plain : operator.operation.isPackage = false) :
    plan.computed groups streaming operator = .ok rows ↔
      StreamableAt groups streaming.streamed operator ∧
        (plan.withFlags false).computed groups materialized operator = .ok rows := by
  have fromOthers (notForEach : operator.operation.isForEach = false) :
      (∀ input ∈ operator.inputs, input ∉ streaming.streamed) ∧
        StreamableAt groups streaming.streamed operator := by
    refine ⟨fun input reads isStreamed => ?_, fun exprs _ kind => ?_⟩
    · have projects := wellFormed.ownIds.isForEach_of_streams found reads
        (mirrors.groupRows input isStreamed).1
      simp [notForEach] at projects
    · simp [kind, Operation.isForEach] at notForEach
  have sameTransform (notForEach : operator.operation.isForEach = false) :=
    mirrors.transform_eq (fromOthers notForEach).1
  cases kind : operator.operation with
  | package => simp [kind, Operation.isPackage] at plain
  | load =>
      have ownRows := mirrors.sameRows operator.id fun isStreamed => by
        obtain ⟨⟨package, foundPackage, accumulative⟩, -⟩ :=
          streams_iff.mp (mirrors.groupRows _ isStreamed).1
        rw [wellFormed.ownIds id operator found, found] at foundPackage
        obtain rfl := Option.some.inj foundPackage
        simp [kind, Operation.isAccumulative] at accumulative
      have streamable := (fromOthers (by rw [kind]; rfl)).2
      simp [computed, kind, ownRows, streamable]
  | store target =>
      have streamable := (fromOthers (by rw [kind]; rfl)).2
      have sameInput : streaming.input operator = materialized.input operator :=
        TaskState.input_congr fun input reads =>
          mirrors.sameRows input ((fromOthers (by rw [kind]; rfl)).1 input reads)
      simp [computed, kind, sameInput, streamable]
  | forEach exprs =>
      obtain ⟨input, reads⟩ :=
        (wellFormed.operators id operator found).inputs_of_one (by rw [kind]; rfl)
      by_cases isStreamed : input ∈ streaming.streamed
      · have groupRows := (mirrors.groupRows input isStreamed).2
        have streamable : StreamableAt groups streaming.streamed operator ↔
            (groups input ≠ [] → ∀ expr ∈ exprs, Slot.Streamable expr) := by
          simp [StreamableAt, kind, reads, isStreamed]
        simp [computed, kind, reads, isStreamed, mirrors.noneStreamed, streamable,
          transform_forEach kind reads groupRows, Groups.stream_eq_ok]
      · have streamable : StreamableAt groups streaming.streamed operator := by
          intro _ package _ member inStreamed
          rw [reads, List.mem_singleton] at member
          exact absurd (member ▸ inStreamed) isStreamed
        have same : operator.transform streaming = operator.transform materialized :=
          mirrors.transform_eq (by simpa [reads] using isStreamed)
        simp [computed, kind, reads, isStreamed, mirrors.noneStreamed, streamable, same]
  | filter | rearrange | sort | limit | join =>
      have streamable := (fromOthers (by rw [kind]; rfl)).2
      simp [computed, kind, sameTransform (by rw [kind]; rfl), streamable]

/-- Recording rows keeps the correspondence, if the rows are the same or are the
materialized groups of a streamed grouping operator. -/
theorem Mirrors.record (mirrors : plan.Mirrors groups streaming materialized)
    (ownIds : plan.OwnIds) (found : plan.get? id = some operator) {others : List Row}
    (same : plan.streams id = false → rows = others)
    (grouped : plan.streams id = true → others = (groups id).materialize) :
    plan.Mirrors groups (streaming.record plan operator rows)
      (materialized.record (plan.withFlags false)
        (operator.relabel (Operation.withFlag false)) others) := by
  have ownId : operator.id = id := ownIds id operator found
  have notStreamed := plan.streams_withFlags_false
  refine ⟨?_, ?_, fun other member => ?_, fun other member => ?_⟩
  · cases kind : operator.operation with
    | store target =>
        have plain := streams_of_not_accumulative found (by rw [kind]; rfl)
        simp [TaskState.record, Operator.relabel, kind, Operation.withFlag, mirrors.stores,
          same plain]
    | _ => simp [TaskState.record, Operator.relabel, kind, Operation.withFlag, mirrors.stores]
  · simp [TaskState.record, Operator.relabel, notStreamed, mirrors.noneStreamed]
  · simp only [TaskState.record, Operator.relabel, OrderedMap.get?_insert, ownId] at member ⊢
    by_cases atOperator : other = id
    · subst atOperator
      have plain : plan.streams other = false := by
        by_contra streams
        simp [Bool.eq_true_of_not_eq_false streams] at member
      simp [same plain]
    · simp only [atOperator, if_false]
      refine mirrors.sameRows other fun inStreamed => member ?_
      split <;> simp [inStreamed]
  · simp only [TaskState.record, Operator.relabel, OrderedMap.get?_insert, ownId] at member ⊢
    by_cases atOperator : other = id
    · subst atOperator
      have streams : plan.streams other = true := by
        split at member
        · assumption
        · exact (mirrors.groupRows other member).1
      simp [streams, grouped streams]
    · simp only [atOperator, if_false]
      refine mirrors.groupRows other ?_
      split at member
      · exact (List.mem_cons.mp member).resolve_left atOperator
      · exact member

/-- The two rows that an operator may have in corresponding states. -/
structure RowsMatch (plan : SubPlan) (groups : OpId → Groups) (id : OpId)
    (rows others : List Row) : Prop where
  same : plan.streams id = false → rows = others
  grouped : plan.streams id = true → others = (groups id).materialize

theorem Operator.relabel_of_not_package {flag : Bool}
    (plain : operator.operation.isPackage = false) :
    operator.relabel (Operation.withFlag flag) = operator := by
  rw [Operator.relabel, Operation.withFlag_of_not_package flag plain]

theorem rowsMatch_of_not_package (found : plan.get? id = some operator)
    (plain : operator.operation.isPackage = false) : plan.RowsMatch groups id rows rows := by
  have accumulates : operator.operation.isAccumulative = false :=
    Bool.eq_false_of_not_eq_true fun accumulative => by
      simp [Operation.isPackage_of_isAccumulative accumulative] at plain
  have notStreamed := streams_of_not_accumulative found accumulates
  exact ⟨fun _ => rfl, fun streams => by simp [notStreamed] at streams⟩

theorem streamableAt_of_package {streamed : List OpId}
    (package : operator.operation.isPackage = true) :
    StreamableAt groups streamed operator := by
  intro exprs _ kind
  simp [kind, Operation.isPackage] at package

/-- What the evaluations of one operator compute in corresponding states. -/
theorem Mirrors.computed_match (mirrors : plan.Mirrors groups streaming materialized)
    (wellFormed : plan.WellFormed) (found : plan.get? id = some operator) :
    (∀ rows, plan.computed groups streaming operator = .ok rows →
      StreamableAt groups streaming.streamed operator ∧
        ∃ others, (plan.withFlags false).computed groups materialized
          (operator.relabel (Operation.withFlag false)) = .ok others ∧
            plan.RowsMatch groups id rows others) ∧
    (∀ others, StreamableAt groups streaming.streamed operator →
      (plan.withFlags false).computed groups materialized
        (operator.relabel (Operation.withFlag false)) = .ok others →
          ∃ rows, plan.computed groups streaming operator = .ok rows ∧
            plan.RowsMatch groups id rows others) := by
  cases package : operator.operation.isPackage with
  | false =>
      have matched (rows : List Row) : plan.RowsMatch groups id rows rows :=
        rowsMatch_of_not_package found package
      simp only [Operator.relabel_of_not_package package,
        mirrors.computed_iff wellFormed found package]
      exact ⟨fun rows ⟨streamable, computed⟩ => ⟨streamable, rows, computed, matched rows⟩,
        fun others streamable computed => ⟨others, ⟨streamable, computed⟩, matched others⟩⟩
  | true =>
      have streamable : StreamableAt groups streaming.streamed operator :=
        streamableAt_of_package package
      have ownId : operator.id = id := wellFormed.ownIds id operator found
      have computed : plan.computed groups streaming operator =
          .ok (if plan.streams id then [] else (groups id).materialize) := by
        cases kind : operator.operation <;> simp [kind, Operation.isPackage] at package
        simp [SubPlan.computed, kind, ownId]
      have clearedComputed : (plan.withFlags false).computed groups materialized
          (operator.relabel (Operation.withFlag false)) = .ok (groups id).materialize := by
        cases kind : operator.operation <;> simp [kind, Operation.isPackage] at package
        simp [SubPlan.computed, Operator.relabel, kind, ownId, Operation.withFlag,
          plan.streams_withFlags_false]
      have matched : plan.RowsMatch groups id
          (if plan.streams id then [] else (groups id).materialize) (groups id).materialize :=
        ⟨fun plain => by simp [plain], fun _ => rfl⟩
      refine ⟨fun rows succeeded => ?_, fun others _ succeeded => ?_⟩
      · obtain rfl := Except.ok.inj (computed.symm.trans succeeded)
        exact ⟨streamable, _, clearedComputed, matched⟩
      · obtain rfl := Except.ok.inj (clearedComputed.symm.trans succeeded)
        exact ⟨_, computed, matched⟩

section Steps

variable (wellFormed : plan.WellFormed)

include wellFormed

/-- A streaming step is matched by a materialized step, and every expression it
needs has a slot. -/
theorem Mirrors.materialized_step (mirrors : plan.Mirrors groups streaming materialized)
    {next : TaskState} (step : plan.step groups streaming id = .ok next) :
    (∀ operator, plan.get? id = some operator →
      StreamableAt groups streaming.streamed operator) ∧
    ∃ other, (plan.withFlags false).step groups materialized id = .ok other ∧
      plan.Mirrors groups next other := by
  obtain ⟨operator, found⟩ := exists_of_step step
  have foundCleared : (plan.withFlags false).get? id =
      some (operator.relabel (Operation.withFlag false)) := by rw [get?_withFlags, found]; rfl
  rw [step_eq wellFormed.ownIds found] at step
  obtain ⟨rows, computed, rfl⟩ := map_eq_ok.mp step
  obtain ⟨streamable, others, clearedComputed, matched⟩ :=
    (mirrors.computed_match wellFormed found).1 rows computed
  refine ⟨fun other foundOther => ?_, _, ?_,
    mirrors.record wellFormed.ownIds found matched.same matched.grouped⟩
  · obtain rfl := Option.some.inj (found.symm.trans foundOther)
    exact streamable
  · rw [step_eq (wellFormed.ownIds.withFlags false) foundCleared]
    exact map_eq_ok.mpr ⟨others, clearedComputed, rfl⟩

/-- A materialized step is matched by a streaming step if every expression that
the latter needs has a slot. -/
theorem Mirrors.streaming_step (mirrors : plan.Mirrors groups streaming materialized)
    (streamable : ∀ operator, plan.get? id = some operator →
      StreamableAt groups streaming.streamed operator)
    {other : TaskState} (step : (plan.withFlags false).step groups materialized id = .ok other) :
    ∃ next, plan.step groups streaming id = .ok next ∧ plan.Mirrors groups next other := by
  obtain ⟨_, foundCleared⟩ := exists_of_step step
  obtain ⟨operator, found, rfl⟩ :=
    Option.map_eq_some_iff.mp ((get?_withFlags ..).symm.trans foundCleared)
  rw [step_eq (wellFormed.ownIds.withFlags false) foundCleared] at step
  obtain ⟨others, clearedComputed, rfl⟩ := map_eq_ok.mp step
  obtain ⟨rows, computed, matched⟩ := (mirrors.computed_match wellFormed found).2 others
    (streamable operator found) clearedComputed
  refine ⟨_, ?_, mirrors.record wellFormed.ownIds found matched.same matched.grouped⟩
  rw [step_eq wellFormed.ownIds found]
  exact map_eq_ok.mpr ⟨rows, computed, rfl⟩

/-- A streaming evaluation is matched by the materialized evaluation. -/
theorem materialized_evaluate {operators : List OpId} {bound : Bindings} {final : TaskState}
    (evaluated : plan.evaluate operators bound groups = .ok final) :
    ∃ other, (plan.withFlags false).evaluate operators bound groups = .ok other ∧
      plan.Mirrors groups final other :=
  foldlM_simulates (fun _ _ _ _ _ mirrors step => (mirrors.materialized_step wellFormed step).2)
    (Mirrors.start plan groups bound) evaluated

end Steps

/-- A reduce task that succeeds while streaming some of its groups yields the
same output when all groups are materialized. -/
theorem runReduceTask_withFlags_false (ownIds : plan.OwnIds) (valid : plan.validate = .ok ()) :
    ∃ phases, plan.phases = .ok phases ∧ (plan.withFlags false).phases = .ok phases ∧
      ∀ (groups : OrderedMap OpId Groups) (broadcast : Bindings) (output : TaskOutput),
        plan.runReduceTask phases groups broadcast = .ok output →
          (plan.withFlags false).runReduceTask phases groups broadcast = .ok output := by
  have wellFormed := ownIds.wellFormed valid
  obtain ⟨phases, split⟩ := wellFormed.exists_phases
  refine ⟨phases, split, (phases_withFlags false plan).trans split, ?_⟩
  intro groups broadcast output run
  obtain ⟨final, evaluated, rfl⟩ := runReduceTask_eq_ok.mp run
  obtain ⟨other, otherEvaluated, mirrors⟩ := materialized_evaluate wellFormed evaluated
  exact runReduceTask_eq_ok.mpr ⟨other, otherEvaluated, by rw [mirrors.stores]⟩

/-- A plan that groups sales by their first column and folds the second. -/
def salesTotals (function : AggregateFunction) : SubPlan :=
  ((((empty.insert ⟨⟨0⟩, .load (.dataset "sales"), []⟩).insert
    ⟨⟨1⟩, .rearrange 0, [⟨0⟩]⟩).insert
    ⟨⟨2⟩, .package none true, [⟨1⟩]⟩).insert
    ⟨⟨3⟩, .forEach [.groupKey, .aggregate function 1 false], [⟨2⟩]⟩).insert
    ⟨⟨4⟩, .store "totals", [⟨3⟩]⟩

theorem OwnIds.salesTotals (function : AggregateFunction) : (salesTotals function).OwnIds :=
  ((((OwnIds.empty.insert _).insert _).insert _).insert _).insert _

/-- Two sales under one key. -/
def salesGroups : OrderedMap OpId Groups :=
  (∅ : OrderedMap OpId Groups).insert ⟨2⟩ [(.int 1, [[.int 1, .int 5], [.int 1, .int 6]])]

theorem runReduceTask_salesTotals_sum :
    (salesTotals .sum).OwnIds ∧ (salesTotals .sum).validate = .ok () ∧
      ∃ phases output, (salesTotals .sum).phases = .ok phases ∧
        (salesTotals .sum).runReduceTask phases salesGroups ∅ = .ok output ∧
        ((salesTotals .sum).withFlags false).runReduceTask phases salesGroups ∅ = .ok output := by
  have ownIds := OwnIds.salesTotals .sum
  have valid : (salesTotals .sum).validate = .ok () := by rfl
  have phasesAre : (salesTotals .sum).phases = .ok ⟨[⟨0⟩, ⟨1⟩], [⟨2⟩, ⟨3⟩, ⟨4⟩]⟩ := by cbv
  have run : (salesTotals .sum).runReduceTask ⟨[⟨0⟩, ⟨1⟩], [⟨2⟩, ⟨3⟩, ⟨4⟩]⟩ salesGroups ∅ =
      .ok ⟨(∅ : OrderedMap String (List Row)).insert "totals" [[.int 1, .int 11]], ∅⟩ := by cbv
  obtain ⟨phases, split, -, refines⟩ := runReduceTask_withFlags_false ownIds valid
  obtain rfl := Except.ok.inj (phasesAre.symm.trans split)
  exact ⟨ownIds, valid, _, _, split, run, refines _ _ _ run⟩

end SubPlan

end BatchFlow
