import BatchFlow.Proofs.Engine.Concatenation
import BatchFlow.Proofs.Engine.ExecutedJobs
import BatchFlow.Proofs.Engine.OutputFiles

/-!
# The jobs of concatenate stages

Every concatenate stage is estimated to run one map task, to run no reduce task
and to write one file.  A run follows the plan of the stage instead: it has a map
task for each load that is not replicated, and a reduce task if the plan has a
reduce phase.  The two agree for the plans that join repair inserts, and no check
keeps other plans out of a concatenate stage.
-/

namespace BatchFlow

open FileStore JoinRepair ReadyQueue Results

namespace Stage

variable {stage : Stage} {graph : StageGraph} {config : EngineConfig} {store after : FileStore}
  {tasks : StageTasks} {phases : Phases} {stats : JobStats}
  {target : String} {source join : StageId}

/-- The loads whose files are dealt to map tasks. -/
def splitLoads (stage : Stage) : List Operator :=
  stage.plan.operators.filter stage.spreads

/-- What a job of a concatenate stage runs, and the files it leaves under its first target:
a map task for each load that is dealt to map tasks, and one reduce task if there is a
reduce phase. -/
structure FollowsPlan (stage : Stage) (phases : Phases) (stats : JobStats) (after : FileStore) :
    Prop where
  mapTasks : stats.mapTasks = UInt32.ofNat stage.splitLoads.length
  reduceTasks : stats.reduceTasks = if phases.reduce = [] then 0 else 1
  files : ∀ target, stage.plan.storeTarget? = some target →
    (∀ other ∈ stage.plan.targets.tail, Apart target other) →
      ∃ storer, stage.plan.firstStore? = some storer ∧ (after.list target).length =
        if storer.id ∈ phases.reduce then 1 else stage.splitLoads.length

/-- The numbers that are estimated for a concatenate stage. -/
structure OneTask (stats : JobStats) (after : FileStore) (target : String) : Prop where
  mapTasks : stats.mapTasks = 1
  reduceTasks : stats.reduceTasks = 0
  files : (after.list target).length = 1

section Concatenate

variable (concatenate : stage.kind = .concatenate)

include concatenate

theorem estimates_of_concatenate (config : EngineConfig) (filesOf : LoadSource → FileCount) :
    stage.mapTasks config filesOf = .known 1 ∧ stage.reduceTasks config = 0 ∧
      stage.outputFiles config filesOf = .known 1 := by
  have isConcatenate : stage.isConcatenate = true := by simp [Stage.isConcatenate, concatenate]
  refine ⟨?_, ?_, ?_⟩
  · rw [Stage.mapTasks, if_pos isConcatenate]
  · rw [Stage.reduceTasks, isConcatenate, Bool.true_or, if_pos rfl]
  · rw [outputFiles, concatenate]

/-- A concatenate stage has one split for each load, however many files it reads. -/
theorem length_allSplits_of_concatenate :
    (stage.allSplits graph config store).length = stage.splitLoads.length := by
  have oneSplit (operator : Operator) :
      (stage.splitsOf config operator.id (graph.loadedFiles store operator)).length = 1 := by
    rw [splitsOf, concatenate]
    rfl
  rw [allSplits, splitLoads, List.length_flatMap]
  simp only [oneSplit]
  simp

theorem length_reduceOutputs_of_concatenate (run : stage.runTasks graph config store = .ok tasks) :
    tasks.reduceOutputs.length = if tasks.phases.reduce = [] then 0 else 1 := by
  obtain ⟨-, noneEstimated, -⟩ := estimates_of_concatenate concatenate config fun _ => .unknown
  rw [length_reduceOutputs_eq run, noneEstimated]
  rfl

theorem followsPlan_of_run (split : stage.plan.phases = .ok phases)
    (run : stage.run graph config store = .ok stats after) :
    stage.FollowsPlan phases stats after := by
  obtain ⟨tasks, ran, mapTasks, reduceTasks⟩ := taskCounts_of_run run
  obtain rfl : tasks.phases = phases := Except.ok.inj ((runTasks_eq_ok.mp ran).1.symm.trans split)
  have mapCount : tasks.mapOutputs.length = stage.splitLoads.length :=
    (length_mapOutputs ran).trans (length_allSplits_of_concatenate concatenate)
  have reduceCount := length_reduceOutputs_of_concatenate concatenate ran
  constructor
  case mapTasks => rw [mapTasks, mapCount]
  case reduceTasks =>
    rw [reduceTasks, reduceCount]
    split <;> rfl
  case files =>
    intro target stores apart
    obtain ⟨storer, sameTasks, isFirst, ranToo, listed⟩ := length_list_of_run run stores apart
    obtain rfl := Except.ok.inj (ran.symm.trans ranToo)
    refine ⟨storer, isFirst, ?_⟩
    rw [listed, mapCount, reduceCount]
    split
    case isTrue reduces => rw [if_neg (List.ne_nil_of_mem reduces)]
    case isFalse => rfl

end Concatenate

/-- The estimates are right for a stage with one load to deal and no reduce phase. -/
theorem FollowsPlan.oneTask_iff (follows : stage.FollowsPlan phases stats after)
    (stores : stage.plan.storeTarget? = some target)
    (apart : ∀ other ∈ stage.plan.targets.tail, Apart target other) :
    OneTask stats after target ↔ stage.splitLoads.length = 1 ∧ phases.reduce = [] := by
  obtain ⟨storer, -, listed⟩ := follows.files target stores apart
  constructor
  · intro oneTask
    have noReduce : phases.reduce = [] := by
      by_contra some
      have isOne : stats.reduceTasks = 1 := by rw [follows.reduceTasks, if_neg some]
      exact absurd (isOne.symm.trans oneTask.reduceTasks) (by decide)
    -- The number of map tasks may wrap around, but that of the files does not.
    rw [noReduce, if_neg List.not_mem_nil] at listed
    exact ⟨listed.symm.trans oneTask.files, noReduce⟩
  · rintro ⟨oneLoad, noReduce⟩
    rw [noReduce, if_neg List.not_mem_nil] at listed
    constructor
    case mapTasks => rw [follows.mapTasks, oneLoad]; rfl
    case reduceTasks => rw [follows.reduceTasks, if_pos noReduce]
    case files => rw [listed, oneLoad]

/-- An inserted stage has one load to deal. -/
theorem length_splitLoads_concatenatePlan (plan : stage.plan = concatenatePlan source join) :
    stage.splitLoads.length = 1 := by
  have noneReplicated : (concatenatePlan source join).broadcastLoads.contains ⟨0⟩ = false := rfl
  rw [splitLoads, plan, operators_concatenatePlan]
  simp [spreads, plan, noneReplicated, Operation.isLoad]

/-- The estimates are right for an inserted stage. -/
theorem FollowsPlan.oneTask_of_concatenatePlan (follows : stage.FollowsPlan phases stats after)
    (phased : stage.plan.phases = .ok phases) (plan : stage.plan = concatenatePlan source join) :
    OneTask stats after (concatenateTarget source join) := by
  have stores : stage.plan.storeTarget? = some (concatenateTarget source join) := by
    rw [plan]
    rfl
  have single : stage.plan.targets.tail = [] := by
    rw [plan, targets_concatenatePlan, List.tail_cons]
  have noReduce : phases.reduce = [] := by
    rw [plan, phases_concatenatePlan] at phased
    rw [← Except.ok.inj phased]
  apply (follows.oneTask_iff stores ?_).mpr
  · exact ⟨length_splitLoads_concatenatePlan plan, noReduce⟩
  · rw [single]
    exact fun _ member => absurd member List.not_mem_nil

end Stage

namespace StageGraph

variable {graph : StageGraph} {config : EngineConfig} {store after : FileStore}

/-- In a run that succeeds, every stage has a job, which ran it on what the jobs before it left. -/
theorem exists_job_of_run {outcome : RunOutcome} (ran : graph.run config store = .ok outcome after)
    {id : StageId} {stage : Stage} (found : graph.stage? id = some stage) :
    ∃ earlier job later before between, outcome.jobGraph.jobs = earlier ++ job :: later ∧
      job.stage = id ∧ graph.Executed config 0 earlier store before ∧
        stage.run graph config before = .ok job.stats between := by
  obtain ⟨numbered, executed⟩ := numbered_of_run ran
  obtain ⟨job, member, isJob⟩ := numbered.exists_job (mem_stageIds.mpr ⟨stage, found⟩)
  obtain ⟨earlier, later, split⟩ := List.append_of_mem member
  rw [split] at executed
  obtain ⟨before, first, -, jobStage, between, foundJob, -, stageRan, -⟩ :=
    executed_append.mp executed
  obtain rfl : jobStage = stage := Option.some.inj (foundJob.symm.trans (isJob ▸ found))
  exact ⟨earlier, job, later, before, between, split, isJob, first, stageRan⟩

/-- Every concatenate stage is estimated to run one map task and no reduce task and to write one
file.  In a run that succeeds, its job has a map task for each load that is not replicated and a
reduce task if its plan has a reduce phase, so with its first target apart from the others the
estimates are right exactly if there is one such load and no reduce phase.  They are right for
the stages that join repair inserts. -/
theorem concatenate_jobs_of_run {outcome : RunOutcome}
    (ran : graph.run config store = .ok outcome after) {id : StageId} {stage : Stage}
    (found : graph.stage? id = some stage) (concatenate : stage.kind = .concatenate) :
    (∀ filesOf, stage.mapTasks config filesOf = .known 1 ∧ stage.reduceTasks config = 0 ∧
      stage.outputFiles config filesOf = .known 1) ∧
    ∃ earlier job later before between phases,
      outcome.jobGraph.jobs = earlier ++ job :: later ∧ job.stage = id ∧
      graph.Executed config 0 earlier store before ∧
      stage.run graph config before = .ok job.stats between ∧
      stage.plan.phases = .ok phases ∧
      (stage.plan.OwnIds → (phases.reduce = [] ↔ stage.plan.packages = [])) ∧
      stage.FollowsPlan phases job.stats between ∧
      (∀ target, stage.plan.storeTarget? = some target →
        (∀ other ∈ stage.plan.targets.tail, Apart target other) →
          (Stage.OneTask job.stats between target ↔
            stage.splitLoads.length = 1 ∧ phases.reduce = [])) ∧
      ∀ source join, stage.plan = concatenatePlan source join →
        Stage.OneTask job.stats between (concatenateTarget source join) := by
  refine ⟨Stage.estimates_of_concatenate concatenate config, ?_⟩
  obtain ⟨earlier, job, later, before, between, split, isJob, first, stageRan⟩ :=
    exists_job_of_run ran found
  obtain ⟨tasks, tasksRan, -, -⟩ := Stage.run_eq_ok.mp stageRan
  have phased : stage.plan.phases = .ok tasks.phases := (Stage.runTasks_eq_ok.mp tasksRan).1
  have follows := Stage.followsPlan_of_run concatenate phased stageRan
  exact ⟨earlier, job, later, before, between, tasks.phases, split, isJob, first, stageRan, phased,
    fun ownIds => ownIds.reduce_eq_nil_iff phased, follows,
    fun _ stores apart => follows.oneTask_iff stores apart,
    fun _ _ plan => follows.oneTask_of_concatenatePlan phased plan⟩

/-- A graph with one concatenate stage. -/
def mergingGraph (plan : SubPlan) : StageGraph :=
  ⟨OrderedMap.insert ∅ ⟨0⟩ ⟨⟨0⟩, .concatenate, plan, {}⟩, ∅, 1⟩

theorem exists_run_mergingGraph {plan : SubPlan} {tasks : StageTasks}
    (valid : (mergingGraph plan).validate = .ok 1)
    (merged : Stage.runTasks ⟨⟨0⟩, .concatenate, plan, {}⟩ (mergingGraph plan) {} Stage.salesStore =
      .ok tasks) :
    ∃ outcome after, (mergingGraph plan).run {} Stage.salesStore = .ok outcome after := by
  have through : (mergingGraph plan).RunsThrough {} (releaseOrder (mergingGraph plan))
      Stage.salesStore (Stage.salesStore.replaceAll (tasks.writes plan)) :=
    ⟨_, tasks, rfl, merged, rfl⟩
  obtain ⟨outcome, ran, -⟩ := exists_outcome_of_runsThrough ⟨1, valid⟩ through
  exact ⟨outcome, _, ran⟩

/-- Two files of sales are merged into one. -/
theorem concatenate_jobs_of_run_sales :
    ∃ outcome after, (mergingGraph (copyPlan (.dataset "sales") "merged")).run {} Stage.salesStore =
        .ok outcome after ∧
      ∃ job ∈ outcome.jobGraph.jobs, ∃ between,
        Stage.OneTask job.stats between "merged" := by
  have valid : (mergingGraph (copyPlan (.dataset "sales") "merged")).validate = .ok 1 := by
    have order : (mergingGraph (copyPlan (.dataset "sales") "merged")).order = .ok [⟨0⟩] := by cbv
    rw [validate, order]
    rfl
  have merged : Stage.runTasks ⟨⟨0⟩, .concatenate, copyPlan (.dataset "sales") "merged", {}⟩
      (mergingGraph (copyPlan (.dataset "sales") "merged")) {} Stage.salesStore =
        .ok (copyTasks "merged" Stage.salesRows) := by
    rw [Stage.runTasks, phases_copyPlan]
    rfl
  obtain ⟨outcome, after, ran⟩ := exists_run_mergingGraph valid merged
  have found : (mergingGraph (copyPlan (.dataset "sales") "merged")).stage? ⟨0⟩ =
      some ⟨⟨0⟩, .concatenate, copyPlan (.dataset "sales") "merged", {}⟩ := rfl
  obtain ⟨-, earlier, job, later, before, between, phases, split, -, -, -, phased, -, -, asTold,
    -⟩ := concatenate_jobs_of_run ran found rfl
  have isJob : job ∈ outcome.jobGraph.jobs := by
    rw [split]
    exact List.mem_append_right _ List.mem_cons_self
  obtain rfl := Except.ok.inj (phased.symm.trans (phases_copyPlan _ _))
  exact ⟨outcome, after, ran, job, isJob, between, (asTold "merged" rfl (by decide)).mpr ⟨rfl, rfl⟩⟩

/-- A plan that merges the sales and the regions. -/
def mergedTwice : SubPlan :=
  (((SubPlan.empty.insert ⟨⟨0⟩, .load (.dataset "sales"), []⟩).insert
    ⟨⟨1⟩, .store "merged", [⟨0⟩]⟩).insert
    ⟨⟨2⟩, .load (.dataset "regions"), []⟩).insert
    ⟨⟨3⟩, .store "copy", [⟨2⟩]⟩

/-- A concatenate stage that loads two datasets runs two map tasks, and each writes a file under
each target. -/
theorem mergedTwice_runs_two_tasks :
    (mergingGraph mergedTwice).validate = .ok 1 ∧
      Stage.mapTasks ⟨⟨0⟩, .concatenate, mergedTwice, {}⟩ {}
        ((mergingGraph mergedTwice).filesOf Stage.salesStore.fileCount?) = .known 1 ∧
      ∃ outcome after, (mergingGraph mergedTwice).run {} Stage.salesStore = .ok outcome after ∧
        ∃ earlier job later before between, outcome.jobGraph.jobs = earlier ++ job :: later ∧
          Stage.run ⟨⟨0⟩, .concatenate, mergedTwice, {}⟩ (mergingGraph mergedTwice) {} before =
            .ok job.stats between ∧
          job.stats.mapTasks = 2 ∧ (between.list "merged").length = 2 := by
  have valid : (mergingGraph mergedTwice).validate = .ok 1 := by
    have order : (mergingGraph mergedTwice).order = .ok [⟨0⟩] := by cbv
    rw [validate, order]
    rfl
  have phasesAre : mergedTwice.phases = .ok ⟨[⟨0⟩, ⟨1⟩, ⟨2⟩, ⟨3⟩], []⟩ := by cbv
  obtain ⟨tasks, merged⟩ : ∃ tasks, Stage.runTasks ⟨⟨0⟩, .concatenate, mergedTwice, {}⟩
      (mergingGraph mergedTwice) {} Stage.salesStore = .ok tasks := by
    refine exists_of_isOk ?_
    rw [Stage.runTasks, phasesAre]
    decide +kernel
  obtain ⟨outcome, after, ran⟩ := exists_run_mergingGraph valid merged
  obtain ⟨earlier, job, later, before, between, split, -, -, stageRan⟩ :=
    exists_job_of_run ran (rfl : (mergingGraph mergedTwice).stage? ⟨0⟩ =
      some ⟨⟨0⟩, .concatenate, mergedTwice, {}⟩)
  have follows := Stage.followsPlan_of_run rfl phasesAre stageRan
  obtain ⟨storer, -, listed⟩ := follows.files "merged" rfl (by decide)
  refine ⟨valid, rfl, outcome, after, ran, earlier, job, later, before, between, split, stageRan,
    follows.mapTasks.trans rfl, ?_⟩
  rw [listed, if_neg List.not_mem_nil]
  rfl

end StageGraph

end BatchFlow
