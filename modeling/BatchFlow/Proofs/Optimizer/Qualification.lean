import BatchFlow.Proofs.Optimizer.SafePlans

/-!
# Flagging the grouping operators of a plan

A plan qualifies when every grouping operator feeds only projections whose
expressions are said to be computable from an accumulator.  Flagging its
grouping operators then streams all groups.  A declared custom function is
taken at its word, so the expressions that still have no slot are the medians:
a task fails exactly when some projection takes a median of groups it streams.
-/

namespace BatchFlow

open Results

namespace SubPlan

variable {plan : SubPlan}

theorem flagPackages_cons (package : OpId) (packages : List OpId) :
    plan.flagPackages (package :: packages) =
      (plan.modify package (Operator.relabel (Operation.withFlag true))).flagPackages packages := by
  rw [flagPackages, flagPackages, List.foldl_cons]
  refine congrArg (fun change => List.foldl _ (plan.modify package change) packages) ?_
  funext operator
  obtain ⟨_, operation, _⟩ := operator
  cases operation <;> rfl

theorem nextId_flagPackages (packages : List OpId) :
    (plan.flagPackages packages).nextId = plan.nextId := by
  induction packages generalizing plan with
  | nil => rfl
  | cons package packages ih => rw [flagPackages_cons, ih, modify]

theorem get?_flagPackages (packages : List OpId) (id : OpId) :
    (plan.flagPackages packages).get? id =
      if id ∈ packages then (plan.get? id).map (Operator.relabel (Operation.withFlag true))
      else plan.get? id := by
  induction packages generalizing plan with
  | nil => simp [flagPackages]
  | cons package packages ih =>
      have twice (operator : Operator) :
          (operator.relabel (Operation.withFlag true)).relabel (Operation.withFlag true) =
            operator.relabel (Operation.withFlag true) := by
        obtain ⟨_, operation, _⟩ := operator
        cases operation <;> rfl
      rw [flagPackages_cons, ih, get?_modify]
      by_cases atPackage : id = package
      · subst atPackage
        simp [Function.comp_def, twice]
      · simp [atPackage]

/-- Flagging all grouping operators sets all flags. -/
theorem OwnIds.flagPackages_packages (ownIds : plan.OwnIds) :
    plan.flagPackages plan.packages = plan.withFlags true := by
  refine ext_get? (nextId_flagPackages _) fun id => ?_
  rw [get?_flagPackages, get?_withFlags]
  by_cases member : id ∈ plan.packages
  · rw [if_pos member]
  · rw [if_neg member]
    cases found : plan.get? id with
    | none => rfl
    | some operator =>
        have plain : operator.operation.isPackage = false :=
          Bool.eq_false_of_not_eq_true fun package =>
            member (ownIds.mem_packages.mpr ⟨operator, found, package⟩)
        rw [Option.map_some, Operator.relabel_of_not_package plain]

/-- What reads a grouping operator of a plan that qualifies: projections only, of
expressions that seem computable without the group. -/
structure Qualified (plan : SubPlan) : Prop where
  projected : ∀ package ∈ plan.packages, plan.feedsOnlyProjections package = true
  safe : ∀ package ∈ plan.packages, ∀ id operator exprs, plan.get? id = some operator →
    package ∈ operator.inputs → operator.operation = .forEach exprs →
      ∀ expr ∈ exprs, expr.isAccumulationSafe = true ∧ expr.readsGroupedColumn = false

theorem OwnIds.qualified_of_qualify (ownIds : plan.OwnIds) {packages : List OpId}
    (qualifies : plan.qualify = .qualifies packages) :
    packages = plan.packages ∧ plan.Qualified := by
  obtain ⟨same, safe⟩ := ownIds.qualify_eq_qualifies_iff.mp qualifies
  refine ⟨same, ?_⟩
  constructor
  case projected =>
    intro package member
    rw [ownIds.feedsOnlyProjections_iff]
    refine ⟨safe.read package member, fun consumer operator found reads => ?_⟩
    exact Operation.isForEach_of_readsKeysOnly (safe.readers package member _ _ found reads)
  case safe =>
    intro package member id operator exprs found reads kind expr inExprs
    have reader := safe.readers package member id operator found reads
    have downstream :=
      safe.downstream package member id operator (.single ⟨operator, found, reads⟩) found
    rw [kind] at reader downstream
    refine ⟨downstream expr inExprs, Expr.readsGroupedColumn_eq_false.mpr ?_⟩
    rintro index rfl
    exact reader index inExprs

end SubPlan

/-- Whether the expression takes a median. -/
def Expr.isMedian : Expr → Bool
  | aggregate (.custom name _) _ _ => name == "median"
  | _ => false

theorem Slot.isMedian_of_streamable {expr : Expr} (streamable : Streamable expr) :
    expr.isMedian = false := by
  obtain ⟨slot, slotOf⟩ := streamable
  by_contra median
  match expr with
  | .aggregate (.custom name accumulative) column distinct =>
      obtain rfl : name = "median" := by simpa [Expr.isMedian] using median
      cases distinct <;>
        simp [ofExpr, Accumulator.ofFunction, Accumulator.isBounded, bind, Except.bind, throw,
          throwThe, MonadExceptOf.throw] at slotOf
  | .aggregate .count .. | .aggregate .sum .. | .aggregate .min .. | .aggregate .max ..
  | .aggregate .average .. | .column _ | .literal _ | .groupKey | .bag =>
      simp [Expr.isMedian] at median

/-- An expression that seems computable without the group and has a value over
it has a slot, unless it takes a median. -/
theorem Slot.streamable_of_project {expr : Expr} (safe : expr.isAccumulationSafe = true)
    (ungrouped : expr.readsGroupedColumn = false) {group : Scalar × List Row} {value : Scalar}
    (projected : expr.project (groupRow group) = .ok value) (noMedian : expr.isMedian = false) :
    Streamable expr := by
  cases expr with
  | groupKey => exact ⟨key, rfl⟩
  | literal value => exact ⟨constant value, rfl⟩
  | bag => simp [Expr.isAccumulationSafe] at safe
  | column index =>
      have first : index = 0 := by
        simpa [Expr.readsGroupedColumn, UInt64.not_le, UInt64.lt_one_iff] using ungrouped
      exact ⟨key, by rw [ofExpr, if_pos first]⟩
  | aggregate function column distinct =>
      obtain rfl : distinct = false := by
        simp only [Expr.isAccumulationSafe, Bool.and_eq_true, Bool.not_eq_true'] at safe
        exact safe.1
      rw [Expr.project_aggregate, AggregateFunction.overBag] at projected
      obtain ⟨accumulator, created, -⟩ := bind_eq_ok.mp projected
      have bounded : accumulator.isBounded = true := by
        cases function with
        | custom name accumulative =>
            have other : name ≠ "median" := by simpa [Expr.isMedian] using noMedian
            by_cases first : name = "first"
            · obtain rfl : .first none = accumulator := by
                simpa [Accumulator.ofFunction, first] using created
              rfl
            · simp [Accumulator.ofFunction, first, other] at created
        | count | sum | min | max | average =>
            obtain rfl := Except.ok.inj created
            rfl
      exact ⟨fold accumulator column, by simp [ofExpr, created, bounded, bind, Except.bind]⟩

namespace SubPlan

variable {plan : SubPlan}

/-- Some projection takes a median of groups that are not empty. -/
def TakesMedian (plan : SubPlan) (groups : OpId → Groups) : Prop :=
  ∃ package ∈ plan.packages, groups package ≠ [] ∧
    ∃ id operator exprs, plan.get? id = some operator ∧ package ∈ operator.inputs ∧
      operator.operation = .forEach exprs ∧ ∃ expr ∈ exprs, expr.isMedian = true

theorem WellFormed.withFlags (wellFormed : plan.WellFormed) (flag : Bool) :
    (plan.withFlags flag).WellFormed :=
  (wellFormed_relabel (Operation.keepsInputs_withFlag flag)).mpr wellFormed

theorem OwnIds.packages_of_streams (ownIds : plan.OwnIds) {package : OpId}
    (streams : (plan.withFlags true).streams package = true) : package ∈ plan.packages := by
  obtain ⟨⟨operator, found, accumulative⟩, -⟩ := streams_iff.mp streams
  obtain ⟨original, foundOriginal, rfl⟩ := Option.map_eq_some_iff.mp (get?_withFlags .. ▸ found)
  refine ownIds.mem_packages.mpr ⟨original, foundOriginal, ?_⟩
  simpa [Operator.relabel, Operation.isAccumulative_withFlag] using accumulative

theorem Qualified.streams_of_packages (qualified : plan.Qualified) (ownIds : plan.OwnIds)
    {package : OpId} (member : package ∈ plan.packages) :
    (plan.withFlags true).streams package = true := by
  obtain ⟨operator, found, isPackage⟩ := ownIds.mem_packages.mp member
  refine streams_iff.mpr ⟨⟨_, by rw [get?_withFlags, found]; rfl, ?_⟩, ?_⟩
  · simpa [Operator.relabel, Operation.isAccumulative_withFlag] using isPackage
  · rw [SubPlan.withFlags, feedsOnlyProjections_relabel _ _ _ (Operation.isForEach_withFlag true)]
    exact qualified.projected package member

section Flagged

variable {groups : OpId → Groups} {id : OpId} {operator : Operator} {exprs : List Expr}
  {package : OpId}

/-- A materialized projection that succeeds has a value for each of its
expressions over each group. -/
theorem WellFormed.project_of_step (wellFormed : plan.WellFormed) {state next : TaskState}
    (noneStreamed : state.streamed = [])
    (groupRows : state.rows.get? package = some (groups package).materialize)
    (found : plan.get? id = some operator) (kind : operator.operation = .forEach exprs)
    (reads : package ∈ operator.inputs) (step : plan.step groups state id = .ok next)
    {group : Scalar × List Row} (isGroup : group ∈ groups package) {expr : Expr}
    (inExprs : expr ∈ exprs) : ∃ value, expr.project (groupRow group) = .ok value := by
  obtain ⟨input, inputs⟩ :=
    (wellFormed.operators id operator found).inputs_of_one (by rw [kind]; rfl)
  obtain rfl : package = input := by simpa [inputs] using reads
  rw [step_eq wellFormed.ownIds found] at step
  obtain ⟨rows, computed, -⟩ := map_eq_ok.mp step
  have projected : (groups package).materialize.mapM
      (fun row => exprs.mapM fun expr => expr.project row) = .ok rows := by
    simpa [SubPlan.computed, kind, inputs, noneStreamed,
      transform_forEach kind inputs groupRows] using computed
  have ofGroup := exists_mapM_iff.mp ⟨rows, projected⟩ (groupRow group)
    (by rw [Groups.materialize_eq_map]; exact List.mem_map_of_mem isGroup)
  exact exists_mapM_iff.mp ofGroup expr inExprs

/-- Without medians, the flagged plan evaluates what the unflagged plan does. -/
theorem Qualified.flagged_evaluate (qualified : plan.Qualified) (wellFormed : plan.WellFormed)
    (noMedian : ¬ plan.TakesMedian groups) {operators : List OpId} {bound : Bindings}
    {other : TaskState}
    (evaluated : (plan.withFlags false).evaluate operators bound groups = .ok other) :
    ∃ final, (plan.withFlags true).evaluate operators bound groups = .ok final ∧
      final.stores = other.stores := by
  have flaggedWellFormed := wellFormed.withFlags true
  rw [← plan.withFlags_withFlags true false] at evaluated
  have simulates : ∀ id ∈ operators, ∀ state next streaming,
      (plan.withFlags true).Mirrors groups streaming state →
        ((plan.withFlags true).withFlags false).step groups state id = .ok next →
          ∃ final, (plan.withFlags true).step groups streaming id = .ok final ∧
            (plan.withFlags true).Mirrors groups final next := by
    intro id _ state next streaming mirrors step
    refine mirrors.streaming_step flaggedWellFormed ?_ step
    intro operator found exprs package kind reads isStreamed nonempty expr inExprs
    obtain ⟨streams, groupRows⟩ := mirrors.groupRows package isStreamed
    have member := wellFormed.ownIds.packages_of_streams streams
    -- The projection is the same operator in all three plans.
    have plain : operator.operation.isPackage = false := by rw [kind]; rfl
    obtain ⟨original, foundOriginal, rfl⟩ := Option.map_eq_some_iff.mp (get?_withFlags .. ▸ found)
    rw [Operator.relabel, Operation.isPackage_withFlag] at plain
    rw [Operator.relabel_of_not_package plain] at kind reads
    have foundCleared : (plan.withFlags false).get? id = some original := by
      rw [get?_withFlags, foundOriginal, Option.map_some, Operator.relabel_of_not_package plain]
    obtain ⟨safe, ungrouped⟩ :=
      qualified.safe package member id original exprs foundOriginal reads kind expr inExprs
    obtain ⟨group, isGroup⟩ := List.exists_mem_of_ne_nil _ nonempty
    rw [plan.withFlags_withFlags] at step
    obtain ⟨value, projected⟩ := (wellFormed.withFlags false).project_of_step
      mirrors.noneStreamed groupRows foundCleared kind reads step isGroup inExprs
    refine Slot.streamable_of_project safe ungrouped projected ?_
    by_contra median
    exact noMedian ⟨package, member, nonempty, id, original, exprs, foundOriginal, reads, kind,
      expr, inExprs, Bool.eq_true_of_not_eq_false median⟩
  obtain ⟨final, finished, mirrors⟩ :=
    foldlM_simulates simulates (Mirrors.start _ groups bound) evaluated
  exact ⟨final, finished, mirrors.stores⟩

/-- The flagged plan evaluates its reduce phase only without medians. -/
theorem Qualified.noMedian_of_evaluate (qualified : plan.Qualified)
    (wellFormed : plan.WellFormed) {phases : Phases} (split : plan.phases = .ok phases)
    {bound : Bindings} {final : TaskState}
    (evaluated : (plan.withFlags true).evaluate phases.reduce bound groups = .ok final) :
    ¬ plan.TakesMedian groups := by
  rintro ⟨package, member, nonempty, id, operator, exprs, found, reads, kind, expr, inExprs, median⟩
  have flaggedWellFormed := wellFormed.withFlags true
  have ownIds := wellFormed.ownIds
  have packageSide : package ∈ plan.reduceSide := ownIds.mem_reduceSide.mpr ⟨package, member, .refl⟩
  have consumerSide := ownIds.reduceSide_of_feeds ⟨operator, found, reads⟩ packageSide
  have inReduce := (wellFormed.mem_reduce_iff split).mpr ⟨⟨operator, found⟩, consumerSide⟩
  obtain ⟨before, after, atId⟩ := List.append_of_mem inReduce
  have packageBefore := wellFormed.input_before_reduce split atId found reads packageSide
  rw [evaluate, atId, List.foldlM_append] at evaluated
  obtain ⟨middle, front, rest⟩ := bind_eq_ok.mp evaluated
  rw [List.foldlM_cons] at rest
  obtain ⟨next, step, -⟩ := bind_eq_ok.mp rest
  obtain ⟨_, -, mirrors⟩ := materialized_evaluate flaggedWellFormed front
  have isStreamed : package ∈ middle.streamed := by
    rw [streamed_foldlM_step flaggedWellFormed.ownIds front]
    simp [packageBefore, qualified.streams_of_packages ownIds member]
  have foundFlagged : (plan.withFlags true).get? id = some operator := by
    rw [get?_withFlags, found, Option.map_some,
      Operator.relabel_of_not_package (by rw [kind]; rfl)]
  have streamable := (mirrors.materialized_step flaggedWellFormed step).1 operator foundFlagged
    exprs package kind reads isStreamed nonempty expr inExprs
  simp [Slot.isMedian_of_streamable streamable] at median

end Flagged

/-- Flagging the grouping operators of a plan that qualifies keeps the output of
a reduce task, unless some projection takes a median of groups that are not
empty; then the task fails. -/
theorem runReduceTask_flagPackages (ownIds : plan.OwnIds) (valid : plan.validate = .ok ())
    {packages : List OpId} (qualifies : plan.qualify = .qualifies packages) :
    ∃ phases, plan.phases = .ok phases ∧ (plan.flagPackages packages).phases = .ok phases ∧
      ∀ (groups : OrderedMap OpId Groups) (broadcast : Bindings) (output : TaskOutput),
        (plan.withFlags false).runReduceTask phases groups broadcast = .ok output →
          (¬ plan.TakesMedian (fun id => (groups.get? id).getD []) →
            (plan.flagPackages packages).runReduceTask phases groups broadcast = .ok output) ∧
          (plan.TakesMedian (fun id => (groups.get? id).getD []) →
            ∃ error, (plan.flagPackages packages).runReduceTask phases groups broadcast =
              .error error) := by
  have wellFormed := ownIds.wellFormed valid
  obtain ⟨phases, split⟩ := wellFormed.exists_phases
  obtain ⟨rfl, qualified⟩ := ownIds.qualified_of_qualify qualifies
  rw [ownIds.flagPackages_packages]
  refine ⟨phases, split, (phases_withFlags true plan).trans split, ?_⟩
  intro groups broadcast output run
  obtain ⟨other, evaluated, rfl⟩ := runReduceTask_eq_ok.mp run
  refine ⟨fun noMedian => ?_, fun median => ?_⟩
  · obtain ⟨final, finished, sameStores⟩ := qualified.flagged_evaluate wellFormed noMedian evaluated
    exact runReduceTask_eq_ok.mpr ⟨final, finished, by rw [sameStores]⟩
  · cases flaggedRun : (plan.withFlags true).runReduceTask phases groups broadcast with
    | error error => exact ⟨error, rfl⟩
    | ok other =>
        obtain ⟨final, finished, -⟩ := runReduceTask_eq_ok.mp flaggedRun
        exact absurd median (qualified.noMedian_of_evaluate wellFormed split finished)

/-- Sums are not medians: the flagged plan yields the sums. -/
theorem runReduceTask_flagPackages_sum :
    ∃ packages phases output, (salesTotals .sum).OwnIds ∧
      (salesTotals .sum).validate = .ok () ∧
      (salesTotals .sum).qualify = .qualifies packages ∧
      ((salesTotals .sum).withFlags false).runReduceTask phases salesGroups ∅ = .ok output ∧
      ((salesTotals .sum).flagPackages packages).runReduceTask phases salesGroups ∅ =
        .ok output := by
  have ownIds := OwnIds.salesTotals .sum
  have valid : (salesTotals .sum).validate = .ok () := by rfl
  have qualifies : (salesTotals .sum).qualify = .qualifies [⟨2⟩] := by cbv
  have phasesAre : (salesTotals .sum).phases = .ok ⟨[⟨0⟩, ⟨1⟩], [⟨2⟩, ⟨3⟩, ⟨4⟩]⟩ := by cbv
  have run : ((salesTotals .sum).withFlags false).runReduceTask
      ⟨[⟨0⟩, ⟨1⟩], [⟨2⟩, ⟨3⟩, ⟨4⟩]⟩ salesGroups ∅ =
      .ok ⟨(∅ : OrderedMap String (List Row)).insert "totals" [[.int 1, .int 11]], ∅⟩ := by cbv
  have noMedian :
      ¬ (salesTotals .sum).TakesMedian fun id => (salesGroups.get? id).getD [] := by
    rintro ⟨package, -, -, id, operator, exprs, found, -, kind, expr, inExprs, median⟩
    have member : operator ∈ (salesTotals .sum).operators := mem_operators.mpr ⟨id, found⟩
    have operatorsAre : (salesTotals .sum).operators =
        [⟨⟨0⟩, .load (.dataset "sales"), []⟩, ⟨⟨1⟩, .rearrange 0, [⟨0⟩]⟩,
          ⟨⟨2⟩, .package none true, [⟨1⟩]⟩,
          ⟨⟨3⟩, .forEach [.groupKey, .aggregate .sum 1 false], [⟨2⟩]⟩,
          ⟨⟨4⟩, .store "totals", [⟨3⟩]⟩] := by rfl
    simp only [operatorsAre, List.mem_cons, List.not_mem_nil, or_false] at member
    rcases member with rfl | rfl | rfl | rfl | rfl <;> simp at kind
    subst kind
    rcases List.mem_pair.mp inExprs with rfl | rfl <;> simp [Expr.isMedian] at median
  obtain ⟨phases, split, -, flagged⟩ := runReduceTask_flagPackages ownIds valid qualifies
  obtain rfl := Except.ok.inj (phasesAre.symm.trans split)
  exact ⟨_, _, _, ownIds, valid, qualifies, run, (flagged _ _ _ run).1 noMedian⟩

/-- A median that is declared accumulative qualifies, runs, and fails once it is
flagged. -/
theorem runReduceTask_flagPackages_median :
    (salesTotals (.custom "median" true)).OwnIds ∧
      (salesTotals (.custom "median" true)).validate = .ok () ∧
      (salesTotals (.custom "median" true)).qualify = .qualifies [⟨2⟩] ∧
      (salesTotals (.custom "median" true)).phases =
        .ok ⟨[⟨0⟩, ⟨1⟩], [⟨2⟩, ⟨3⟩, ⟨4⟩]⟩ ∧
      ((salesTotals (.custom "median" true)).withFlags false).runReduceTask
        ⟨[⟨0⟩, ⟨1⟩], [⟨2⟩, ⟨3⟩, ⟨4⟩]⟩ salesGroups ∅ =
          .ok ⟨(∅ : OrderedMap String (List Row)).insert "totals" [[.int 1, .int 5]], ∅⟩ ∧
      ((salesTotals (.custom "median" true)).flagPackages [⟨2⟩]).runReduceTask
        ⟨[⟨0⟩, ⟨1⟩], [⟨2⟩, ⟨3⟩, ⟨4⟩]⟩ salesGroups ∅ =
          .error (.operator (.unboundedFunction "median")) := by
  refine ⟨OwnIds.salesTotals _, by rfl, by cbv, by cbv, by cbv, by cbv⟩

end SubPlan

end BatchFlow
