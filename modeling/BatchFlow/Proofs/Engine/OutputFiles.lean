import BatchFlow.Proofs.Engine.TaskCounts

/-!
# Estimated and written files

A store writes one part for each task of its phase.  The estimate of a stage
looks at the plan as a whole: it counts reduce tasks if the plan groups, and map
tasks otherwise.  So it tells the files under the first target of the stage if
the first store belongs to the last phase of the plan, or if both phases happen
to have as many tasks.
-/

namespace BatchFlow

open FileStore Results

namespace SubPlan

variable {plan : SubPlan} {target : String}

/-- The store operator whose target is loaded as the output of the stage. -/
def firstStore? (plan : SubPlan) : Option Operator :=
  plan.operators.find? fun operator => operator.operation.target?.isSome

theorem firstStore?_of_storeTarget (stores : plan.storeTarget? = some target) :
    ∃ before storer rest, plan.operators = before ++ storer :: rest ∧
      plan.firstStore? = some storer ∧ storer.operation = .store target ∧
        ∀ operator ∈ before, operator.operation.target? = none := by
  obtain ⟨before, storer, rest, split, isTarget, noTarget⟩ := List.findSome?_eq_some_iff.mp stores
  refine ⟨before, storer, rest, split, ?_, Operation.target?_eq_some.mp isTarget, noTarget⟩
  refine List.find?_eq_some_iff_append.mpr ⟨by simp [isTarget], before, rest, split, ?_⟩
  intro operator inFront
  simp [noTarget operator inFront]

/-- The first store writes the first of the targets. -/
theorem writes_of_storeTarget (stores : plan.storeTarget? = some target) (tasks : StageTasks) :
    ∃ storer rest, plan.firstStore? = some storer ∧ storer.operation = .store target ∧
      tasks.writes plan = (target, tasks.partsOf storer.id target) :: rest ∧
        rest.map Prod.fst = plan.targets.tail := by
  obtain ⟨before, storer, rest, split, isFirst, isStore, noTarget⟩ :=
    firstStore?_of_storeTarget stores
  have atStorer : tasks.writes plan = (target, tasks.partsOf storer.id target) ::
      rest.filterMap fun operator => operator.operation.target?.map fun target =>
        (target, tasks.partsOf operator.id target) := by
    have noWrite : (before.filterMap fun operator => operator.operation.target?.map fun target =>
        (target, tasks.partsOf operator.id target)) = [] :=
      List.filterMap_eq_nil_iff.mpr fun operator inFront => by rw [noTarget operator inFront]; rfl
    rw [StageTasks.writes, split, List.filterMap_append, noWrite, List.nil_append,
      List.filterMap_cons, isStore]
    rfl
  refine ⟨storer, _, isFirst, isStore, atStorer, ?_⟩
  rw [← tasks.map_fst_writes, atStorer]
  rfl

end SubPlan

namespace Stage

variable {stage : Stage} {graph : StageGraph} {config : EngineConfig} {store after : FileStore}
  {filesOf : LoadSource → FileCount} {stats : JobStats} {target : String}

/-- A run leaves one file for each task of the phase of the first store. -/
theorem length_list_of_run (run : stage.run graph config store = .ok stats after)
    (stores : stage.plan.storeTarget? = some target)
    (apart : ∀ other ∈ stage.plan.targets.tail, Apart target other) :
    ∃ storer tasks, stage.plan.firstStore? = some storer ∧
      stage.runTasks graph config store = .ok tasks ∧
        (after.list target).length =
          if storer.id ∈ tasks.phases.reduce then tasks.reduceOutputs.length
          else tasks.mapOutputs.length := by
  obtain ⟨tasks, ran, -, rfl⟩ := run_eq_ok.mp run
  obtain ⟨storer, rest, isFirst, -, written, restTargets⟩ :=
    SubPlan.writes_of_storeTarget stores tasks
  refine ⟨storer, tasks, isFirst, ran, ?_⟩
  -- The stores that come later write elsewhere.
  have sameFiles : ∀ path, Within target path →
      (store.replaceAll (tasks.writes stage.plan)).files.get? path =
        (store.replace target (tasks.partsOf storer.id target)).files.get? path := by
    intro path within
    rw [written]
    have outside : ∀ write ∈ rest, ¬ Within write.1 path := by
      intro write isLater
      refine within.not_within (apart write.1 ?_)
      rw [← restTargets]
      exact List.mem_map_of_mem isLater
    exact get?_replaceAll_of_not_within outside
  rw [list_congr sameFiles, (list_replace store target _).length_eq, List.length_map,
    List.length_range, StageTasks.partsOf, List.length_map]
  simp only [List.contains_iff_mem]
  split <;> rfl

section Counted

variable (ordinary : stage.kind = .ordinary)
  (counted : graph.CountsFiles store stage.plan filesOf)

include ordinary counted

/-- A stage that groups is estimated by its reduce tasks, any other by its splits. -/
theorem outputFiles_of_countsFiles (config : EngineConfig) :
    stage.outputFiles config filesOf = .known (if stage.plan.hasReducePhase then
      stage.reduceTasks config
    else UInt32.ofNat (min (stage.allSplits graph config store).length (UInt32.size - 1))) := by
  rw [outputFiles, ordinary, mapTasks_of_countsFiles ordinary counted]
  exact (apply_ite FileCount.known _ _ _).symm

/-- What a run leaves under the first target of an ordinary stage, and when the estimate tells
it: a stage that groups is estimated by its reduce tasks, although its first store may belong to
the map phase. -/
theorem estimated_files_written_iff (stores : stage.plan.storeTarget? = some target)
    (apart : ∀ other ∈ stage.plan.targets.tail, Apart target other)
    (run : stage.run graph config store = .ok stats after) :
    ∃ storer phases input files, stage.plan.firstStore? = some storer ∧
      stage.plan.phases = .ok phases ∧ stage.input graph config store = .ok input ∧
      stage.outputFiles config filesOf = .known files ∧
      (after.list target).length =
        (if storer.id ∈ phases.reduce then (stage.reduceTasks config).toNat
          else input.splits.length) ∧
      ((after.list target).length = files.toNat ↔
        if stage.plan.hasReducePhase then
          storer.id ∈ phases.reduce ∨ input.splits.length = (stage.reduceTasks config).toNat
        else input.splits.length < UInt32.size) := by
  obtain ⟨storer, tasks, isFirst, ran, listed⟩ := length_list_of_run run stores apart
  obtain ⟨input, isInput, splits⟩ := exists_input_of_countsFiles counted config
  have split := (runTasks_eq_ok.mp ran).1
  have written : (after.list target).length =
      if storer.id ∈ tasks.phases.reduce then (stage.reduceTasks config).toNat
      else input.splits.length := by
    rw [listed, length_reduceOutputs ordinary ran, length_mapOutputs ran, splits]
    split
    case isTrue reduces => rw [if_neg (List.ne_nil_of_mem reduces)]
    case isFalse => rfl
  refine ⟨storer, tasks.phases, input, _, isFirst, split, isInput,
    outputFiles_of_countsFiles ordinary counted config, written, ?_⟩
  rw [written, ← splits]
  cases groups : stage.plan.hasReducePhase with
  | true =>
      simp only [if_true]
      split
      case isTrue reduces => simp [reduces]
      case isFalse maps => simp [maps]
  | false =>
      have noReduce : storer.id ∉ tasks.phases.reduce := by
        rw [SubPlan.reduce_eq_nil_of_packages split
          (SubPlan.hasReducePhase_eq_false_iff.mp groups)]
        exact List.not_mem_nil
      have size : UInt32.size = 4294967296 := rfl
      rw [if_neg noReduce, if_neg Bool.false_ne_true, if_neg Bool.false_ne_true, toNat_saturated]
      omega

end Counted

theorem estimated_files_written_regionStage :
    ∃ stats after, (regionStage (some 3)).run (regionGraph (some 3)) ⟨4, true, 2⟩ salesStore =
        .ok stats after ∧
      (regionStage (some 3)).outputFiles ⟨4, true, 2⟩
        ((regionGraph (some 3)).filesOf salesStore.fileCount?) = .known 3 ∧
      (after.list "totals").length = 3 := by
  obtain ⟨tasks, tasksRan⟩ := exists_runTasks_regionStage
  have ran := run_eq_ok.mpr ⟨tasks, tasksRan, rfl, rfl⟩
  obtain ⟨storer, phases, input, files, isFirst, split, -, estimated, -, told⟩ :=
    estimated_files_written_iff (rfl : (regionStage (some 3)).kind = .ordinary)
      countsFiles_regionGraph (rfl : (regionTotals (some 3)).storeTarget? = some "totals")
      (by decide) ran
  have isThree : (regionStage (some 3)).outputFiles ⟨4, true, 2⟩
      ((regionGraph (some 3)).filesOf salesStore.fileCount?) = .known 3 := by decide +kernel
  obtain rfl := FileCount.known.inj (estimated.symm.trans isThree)
  have isTotals : storer = ⟨⟨6⟩, .store "totals", [⟨5⟩]⟩ := Option.some.inj (isFirst.symm.trans rfl)
  have samePhases := Except.ok.inj (split.symm.trans (phases_regionTotals (some 3)))
  have groups : (regionStage (some 3)).plan.hasReducePhase = true := rfl
  refine ⟨_, _, ran, isThree, told.mpr ?_⟩
  rw [if_pos groups, isTotals, samePhases]
  exact .inl (by decide)

/-- A plan that copies sales and counts those of each region. -/
def copiedTotals : SubPlan :=
  (((((SubPlan.empty.insert ⟨⟨0⟩, .load (.dataset "sales"), []⟩).insert
    ⟨⟨1⟩, .store "copy", [⟨0⟩]⟩).insert
    ⟨⟨2⟩, .rearrange 0, [⟨0⟩]⟩).insert
    ⟨⟨3⟩, .package none false, [⟨2⟩]⟩).insert
    ⟨⟨4⟩, .forEach [.groupKey, .aggregate .count 0 false], [⟨3⟩]⟩).insert
    ⟨⟨5⟩, .store "totals", [⟨4⟩]⟩

/-- The stage with this plan. -/
def copyingStage : Stage :=
  ⟨⟨0⟩, .ordinary, copiedTotals, {}⟩

/-- The graph with this stage alone. -/
def copyingGraph : StageGraph :=
  ⟨(∅ : OrderedMap StageId Stage).insert ⟨0⟩ copyingStage, ∅, 1⟩

/-- Each of the two map tasks copies its sales, but the one reduce task is counted. -/
theorem copyingStage_writes_two_files :
    copiedTotals.validate = .ok () ∧ copiedTotals.storeTarget? = some "copy" ∧
      copyingGraph.CountsFiles salesStore copiedTotals
        (copyingGraph.filesOf salesStore.fileCount?) ∧
      copyingStage.outputFiles ⟨4, true, 1⟩ (copyingGraph.filesOf salesStore.fileCount?) =
        .known 1 ∧
      ∃ stats after, copyingStage.run copyingGraph ⟨4, true, 1⟩ salesStore = .ok stats after ∧
        (after.list "copy").length = 2 := by
  have counted : copyingGraph.CountsFiles salesStore copiedTotals
      (copyingGraph.filesOf salesStore.fileCount?) :=
    StageGraph.countsFiles_fileCount (by decide +kernel)
  have phasesAre : copiedTotals.phases =
      .ok ⟨[⟨0⟩, ⟨2⟩, ⟨1⟩], [⟨3⟩, ⟨4⟩, ⟨5⟩]⟩ := by cbv
  obtain ⟨tasks, tasksRan⟩ : ∃ tasks,
      copyingStage.runTasks copyingGraph ⟨4, true, 1⟩ salesStore = .ok tasks := by
    refine exists_of_isOk ?_
    rw [runTasks, show copyingStage.plan = copiedTotals from rfl, phasesAre]
    decide +kernel
  have run := run_eq_ok.mpr ⟨tasks, tasksRan, rfl, rfl⟩
  refine ⟨rfl, rfl, counted, by decide +kernel, _, _, run, ?_⟩
  obtain ⟨storer, tasks, isFirst, ran, listed⟩ :=
    length_list_of_run run (rfl : copiedTotals.storeTarget? = some "copy") (by decide)
  have isCopy : storer = ⟨⟨1⟩, .store "copy", [⟨0⟩]⟩ := Option.some.inj (isFirst.symm.trans rfl)
  have samePhases := Except.ok.inj ((runTasks_eq_ok.mp ran).1.symm.trans phasesAre)
  rw [listed, isCopy, samePhases, if_neg (by decide), length_mapOutputs ran]
  decide +kernel

end Stage

end BatchFlow
