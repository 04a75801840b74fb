import BatchFlow.Proofs.Engine.DataFlow

/-!
# The jobs of a run

A run executes one job for each stage and numbers the jobs in the order in which it
executes them.  So the edges between the jobs are those between their stages, and
they lead from lower to higher numbers.
-/

namespace BatchFlow

open ReadyQueue

namespace JobGraph

variable {jobs : List Job} {edges : List Edge}

theorem find?_stage (nodup : (jobs.map Job.stage).Nodup) {job : Job} (member : job ∈ jobs) :
    (jobs.find? fun other => other.stage == job.stage) = some job := by
  induction jobs with
  | nil => simp at member
  | cons first rest ih =>
      obtain ⟨fresh, restNodup⟩ := List.nodup_cons.mp (List.map_cons ▸ nodup)
      rcases List.mem_cons.mp member with rfl | inRest
      · simp
      · have different : (first.stage == job.stage) = false := by
          rw [beq_eq_false_iff_ne]
          exact fun same => fresh (same ▸ List.mem_map_of_mem inRest)
        rw [List.find?_cons, different]
        exact ih restNodup inRest

/-- The edges between jobs that execute different stages are those between these stages. -/
theorem mem_edges_ofJobs (nodup : (jobs.map Job.stage).Nodup) {edge : JobEdge} :
    edge ∈ (ofJobs jobs edges).edges.elements ↔
      ∃ first ∈ jobs, ∃ second ∈ jobs,
        ⟨first.stage, second.stage⟩ ∈ edges ∧ edge = ⟨first.id, second.id⟩ := by
  rw [ofJobs, OrderedSet.mem_ofList, List.mem_filterMap]
  constructor
  · rintro ⟨⟨earlier, later⟩, inEdges, isEdge⟩
    obtain ⟨first, isFirst, second, isSecond, rfl⟩ :
        ∃ first, (jobs.find? fun job => job.stage == earlier) = some first ∧
          ∃ second, (jobs.find? fun job => job.stage == later) = some second ∧
            edge = ⟨first.id, second.id⟩ := by
      obtain ⟨first, isFirst, isEdge⟩ := Option.bind_eq_some_iff.mp isEdge
      obtain ⟨second, isSecond, isEdge⟩ := Option.bind_eq_some_iff.mp isEdge
      exact ⟨first, isFirst, second, isSecond, (Option.some.inj isEdge).symm⟩
    obtain rfl : first.stage = earlier := by simpa using List.find?_some isFirst
    obtain rfl : second.stage = later := by simpa using List.find?_some isSecond
    exact ⟨first, List.mem_of_find?_eq_some isFirst, second,
      List.mem_of_find?_eq_some isSecond, inEdges, rfl⟩
  · rintro ⟨first, isFirst, second, isSecond, inEdges, rfl⟩
    refine ⟨_, inEdges, ?_⟩
    simp [find?_stage nodup isFirst, find?_stage nodup isSecond]

end JobGraph

namespace StageGraph

variable {graph : StageGraph} {config : EngineConfig} {store after : FileStore}
  {jobs : List Job} {job first second : Job} {number : Nat}

/-- The jobs were executed one after another, and numbered from some number on: each has the
next number, names a stage and its kind, and has the numbers of the stage's run on the store
that the jobs before it left. -/
def Executed (graph : StageGraph) (config : EngineConfig) :
    (number : Nat) → List Job → FileStore → FileStore → Prop
  | _, [], store, after => store = after
  | number, job :: rest, store, after =>
      job.id = ⟨UInt64.ofNat number⟩ ∧
        ∃ stage between, graph.stage? job.stage = some stage ∧ job.kind = stage.kind ∧
          stage.run graph config store = .ok job.stats between ∧
            Executed graph config (number + 1) rest between after

/-- The jobs of a run are those it executed, the latest first. -/
theorem exists_executed_of_runReady {fuel : Nat} {queue queue' : ReadyQueue} {jobs jobs' : List Job}
    (ran : graph.runReady config fuel queue jobs store = .ok (queue', jobs') after) :
    ∃ executed, jobs' = executed.reverse ++ jobs ∧
      executed.map Job.stage = (queue.drain fuel).1 ∧
        graph.Executed config jobs.length executed store after := by
  induction fuel generalizing queue jobs store with
  | zero =>
      rw [runReady, Steps.pure_eq_ok] at ran
      obtain ⟨same, rfl⟩ := ran
      obtain ⟨-, rfl⟩ := Prod.mk.inj same
      exact ⟨[], rfl, rfl, rfl⟩
  | succ fuel ih =>
      cases isReady : queue.ready with
      | nil =>
          rw [runReady_of_stuck isReady] at ran
          obtain ⟨same, rfl⟩ := EStateM.Result.ok.inj ran
          obtain ⟨-, rfl⟩ := Prod.mk.inj same
          exact ⟨[], rfl, by rw [drain_of_stuck _ isReady]; rfl, rfl⟩
      | cons next rest =>
          rw [runReady, pop, isReady] at ran
          simp only [Steps.bind_eq_ok, Steps.ofExcept_eq_ok, liftPlan_eq_ok, require_eq_ok] at ran
          obtain ⟨stage, _, ⟨found, rfl⟩, stats, between, stageRan, restRan⟩ := ran
          obtain ⟨executed, rfl, order, inOrder⟩ := ih restRan
          refine ⟨⟨⟨UInt64.ofNat jobs.length⟩, next, stage.kind, stats⟩ :: executed, ?_, ?_, ?_⟩
          · rw [List.reverse_cons, List.append_assoc, List.singleton_append]
          · rw [drain_of_ready _ isReady, List.map_cons, order]
          · exact ⟨rfl, stage, between, found, rfl, stageRan, inOrder⟩

theorem Executed.of_getElem? (executed : graph.Executed config number jobs store after)
    {index : Nat} (isAt : jobs[index]? = some job) :
    job.id = ⟨UInt64.ofNat (number + index)⟩ ∧
      ∃ stage, graph.stage? job.stage = some stage ∧ job.kind = stage.kind := by
  induction jobs generalizing number index store with
  | nil => simp at isAt
  | cons head rest ih =>
      obtain ⟨isId, stage, between, found, kind, -, inOrder⟩ := executed
      cases index with
      | zero =>
          obtain rfl := Option.some.inj isAt
          exact ⟨isId, stage, found, kind⟩
      | succ index =>
          rw [Nat.add_comm index 1, ← Nat.add_assoc]
          exact ih inOrder isAt

/-- Jobs are executed one after another: some of them first, the others on what these left. -/
theorem executed_append {earlier later : List Job} :
    graph.Executed config number (earlier ++ later) store after ↔
      ∃ between, graph.Executed config number earlier store between ∧
        graph.Executed config (number + earlier.length) later between after := by
  induction earlier generalizing number store with
  | nil =>
      constructor
      · intro executed
        exact ⟨store, rfl, executed⟩
      · rintro ⟨_, rfl, executed⟩
        exact executed
  | cons job earlier ih =>
      rw [List.length_cons, Nat.add_comm earlier.length 1, ← Nat.add_assoc]
      constructor
      · rintro ⟨isId, stage, next, found, kind, ran, rest⟩
        obtain ⟨between, first, second⟩ := ih.mp rest
        exact ⟨between, ⟨isId, stage, next, found, kind, ran, first⟩, second⟩
      · rintro ⟨between, ⟨isId, stage, next, found, kind, ran, first⟩, second⟩
        exact ⟨isId, stage, next, found, kind, ran, ih.mpr ⟨between, first, second⟩⟩

/-- Different identifiers are no more than there are numbers of 64 bits. -/
theorem length_le_of_nodup {ids : List StageId} (nodup : ids.Nodup) :
    ids.length ≤ UInt64.size := by
  have numbers : (ids.map fun id => id.value.toNat).Nodup := by
    refine nodup.map fun first second same => ?_
    exact congrArg StageId.mk (UInt64.toNat_inj.mp same)
  have inRange : (ids.map fun id => id.value.toNat) ⊆ List.range UInt64.size := by
    intro number member
    obtain ⟨id, -, rfl⟩ := List.mem_map.mp member
    exact List.mem_range.mpr id.value.toNat_lt
  have shorter := (List.subperm_of_subset numbers inRange).length_le
  rwa [List.length_map, List.length_range] at shorter

/-- Each stage is executed by one job, after all its predecessors, and the jobs are numbered
in this order. -/
structure Numbered (graph : StageGraph) (jobs : List Job) : Prop where
  stages : (jobs.map Job.stage).Perm graph.stageIds
  ordered : graph.PredecessorsFirst (jobs.map Job.stage)
  number : ∀ (index : Nat) (job : Job), jobs[index]? = some job → job.id.value.toNat = index

namespace Numbered

variable (numbered : graph.Numbered jobs)

include numbered

theorem nodup : (jobs.map Job.stage).Nodup :=
  numbered.stages.nodup_iff.mpr graph.nodup_stageIds

/-- A job's number is the position of its stage. -/
theorem number_eq_idxOf (member : job ∈ jobs) :
    job.id.value.toNat = (jobs.map Job.stage).idxOf job.stage := by
  obtain ⟨index, inside, rfl⟩ := List.mem_iff_getElem.mp member
  rw [numbered.number index _ (List.getElem?_eq_getElem inside)]
  have isStage : (jobs.map Job.stage)[index]? = some jobs[index].stage := by simp [inside]
  obtain ⟨insideToo, isStage⟩ := List.getElem?_eq_some_iff.mp isStage
  rw [← isStage, numbered.nodup.idxOf_getElem]

theorem eq_of_id_eq (isFirst : first ∈ jobs) (isSecond : second ∈ jobs)
    (same : first.id = second.id) : first = second := by
  obtain ⟨index, insideFirst, rfl⟩ := List.mem_iff_getElem.mp isFirst
  obtain ⟨other, insideSecond, rfl⟩ := List.mem_iff_getElem.mp isSecond
  have numberFirst := numbered.number index _ (List.getElem?_eq_getElem insideFirst)
  have numberSecond := numbered.number other _ (List.getElem?_eq_getElem insideSecond)
  obtain rfl : index = other := by rw [← numberFirst, ← numberSecond, same]
  rfl

theorem exists_job {id : StageId} (isStage : id ∈ graph.stageIds) : ∃ job ∈ jobs, job.stage = id :=
  List.mem_map.mp (numbered.stages.mem_iff.mpr isStage)

theorem mem_edges_iff (isFirst : first ∈ jobs) (isSecond : second ∈ jobs) :
    ⟨first.id, second.id⟩ ∈ (JobGraph.ofJobs jobs graph.edges.elements).edges.elements ↔
      graph.Precedes first.stage second.stage := by
  rw [JobGraph.mem_edges_ofJobs numbered.nodup]
  constructor
  · rintro ⟨first', isFirst', second', isSecond', precedes, same⟩
    obtain ⟨sameFirst, sameSecond⟩ := JobEdge.mk.inj same
    obtain rfl := numbered.eq_of_id_eq isFirst isFirst' sameFirst
    obtain rfl := numbered.eq_of_id_eq isSecond isSecond' sameSecond
    exact precedes
  · intro precedes
    exact ⟨first, isFirst, second, isSecond, precedes, rfl⟩

/-- Every edge between jobs leads to a higher number. -/
theorem lt_of_mem_edges {edge : JobEdge}
    (member : edge ∈ (JobGraph.ofJobs jobs graph.edges.elements).edges.elements) :
    (∃ first ∈ jobs, ∃ second ∈ jobs, edge = ⟨first.id, second.id⟩) ∧
      edge.earlier.value < edge.later.value := by
  obtain ⟨first, isFirst, second, isSecond, precedes, rfl⟩ :=
    (JobGraph.mem_edges_ofJobs numbered.nodup).mp member
  refine ⟨⟨first, isFirst, second, isSecond, rfl⟩, ?_⟩
  rw [UInt64.lt_iff_toNat_lt, numbered.number_eq_idxOf isFirst, numbered.number_eq_idxOf isSecond]
  exact numbered.ordered.idxOf_lt numbered.nodup (List.mem_map_of_mem isSecond)
    (mem_predecessors.mpr precedes)

/-- The jobs that no job precedes are those of the stages that wait for none. -/
theorem mem_sources_iff (exist : graph.EdgesExist) :
    job ∈ (JobGraph.ofJobs jobs graph.edges.elements).sources ↔
      job ∈ jobs ∧ job.stage ∈ graph.roots := by
  rw [JobGraph.sources, List.mem_filter]
  refine and_congr_right fun isJob => ?_
  have isStage : job.stage ∈ graph.stageIds :=
    numbered.stages.mem_iff.mp (List.mem_map_of_mem isJob)
  simp only [mem_roots, isStage, true_and, Bool.not_eq_true', ← Bool.not_eq_true,
    List.contains_iff_mem, List.mem_map, not_exists, not_and]
  constructor
  · intro none earlier precedes
    obtain ⟨other, isOther, rfl⟩ := numbered.exists_job (exist _ precedes).1
    exact none _ ((numbered.mem_edges_iff isOther isJob).mpr precedes) rfl
  · rintro none edge member isLater
    obtain ⟨first, isFirst, second, isSecond, precedes, rfl⟩ :=
      (JobGraph.mem_edges_ofJobs numbered.nodup).mp member
    obtain rfl := numbered.eq_of_id_eq isSecond isJob isLater
    exact none first.stage precedes

end Numbered

/-- The jobs of a run, in the order in which it executed them. -/
theorem numbered_of_run {outcome : RunOutcome} (ran : graph.run config store = .ok outcome after) :
    graph.Numbered outcome.jobGraph.jobs ∧
      graph.Executed config 0 outcome.jobGraph.jobs store after := by
  obtain ⟨valid, queue, jobs, ready, -, rfl⟩ := run_unfold.mp ran
  obtain ⟨exist, ⟨rank, ranked⟩, -⟩ := validate_eq_ok_iff.mp valid
  obtain ⟨covers, ordered, -⟩ := releaseOrder_covers ranked exist
  obtain ⟨executed, rfl, order, inOrder⟩ := exists_executed_of_runReady ready
  have isOrder : executed.map Job.stage = releaseOrder graph := order
  rw [List.append_nil, List.reverse_reverse]
  refine ⟨⟨isOrder ▸ covers, isOrder ▸ ordered, fun index job isAt => ?_⟩, inOrder⟩
  have few : executed.length ≤ UInt64.size := by
    rw [← List.length_map Job.stage, isOrder, covers.length_eq]
    exact length_le_of_nodup graph.nodup_stageIds
  obtain ⟨inside, -⟩ := List.getElem?_eq_some_iff.mp isAt
  rw [(inOrder.of_getElem? isAt).1, List.length_nil, Nat.zero_add]
  exact UInt64.toNat_ofNat_of_lt' (Nat.lt_of_lt_of_le inside few)

/-- The jobs have the stages of the graph and their kinds, each once. -/
theorem perm_stages_of_run {outcome : RunOutcome}
    (ownId : ∀ id stage, graph.stage? id = some stage → stage.id = id)
    (ran : graph.run config store = .ok outcome after) :
    (outcome.jobGraph.jobs.map fun job => (job.stage, job.kind)).Perm
      (graph.stages.map fun stage => (stage.id, stage.kind)) := by
  obtain ⟨numbered, executed⟩ := numbered_of_run ran
  let withKind (id : StageId) : StageId × Option StageKind := (id, (graph.stage? id).map Stage.kind)
  have jobsKind : (outcome.jobGraph.jobs.map fun job => (job.stage, some job.kind)) =
      (outcome.jobGraph.jobs.map Job.stage).map withKind := by
    rw [List.map_map]
    refine List.map_congr_left fun job member => ?_
    obtain ⟨index, isAt⟩ := List.mem_iff_getElem?.mp member
    obtain ⟨-, stage, found, kind⟩ := executed.of_getElem? isAt
    simp [withKind, found, kind]
  have stagesKind : (graph.stages.map fun stage => (stage.id, some stage.kind)) =
      graph.stageIds.map withKind := by
    rw [stages, OrderedMap.values, stageIds, OrderedMap.keys, List.map_map, List.map_map]
    refine List.map_congr_left fun entry member => ?_
    have found : graph.stage? entry.1 = some entry.2 := OrderedMap.get?_eq_some_iff.mpr member
    simp [withKind, found, ownId entry.1 entry.2 found]
  have perm := numbered.stages.map withKind
  rw [← jobsKind, ← stagesKind] at perm
  simpa [List.map_map, Function.comp_def] using
    perm.map fun pair : StageId × Option StageKind => (pair.1, pair.2.getD .ordinary)

theorem mem_keys_leafRows {target : String} :
    target ∈ (graph.leafRows store).keys ↔
      ∃ leaf ∈ graph.leaves, ∃ stage, graph.stage? leaf = some stage ∧
        stage.plan.storeTarget? = some target := by
  rw [leafRows, OrderedMap.mem_keys_ofList, List.map_map]
  simp [leafTargets, List.mem_filterMap, Option.bind_eq_some_iff]

/-- A run that succeeds executes one job for each stage, with the stage's identifier and
kind, and numbers the jobs from zero in the order of execution.  Two jobs have an edge
exactly if their stages do, all edges lead to higher numbers, the sources are the jobs of
the roots, and the outputs are under the store targets of the leaves. -/
theorem jobs_mirror_stages {outcome : RunOutcome}
    (ownId : ∀ id stage, graph.stage? id = some stage → stage.id = id)
    (ran : graph.run config store = .ok outcome after) :
    (outcome.jobGraph.jobs.map fun job => (job.stage, job.kind)).Perm
        (graph.stages.map fun stage => (stage.id, stage.kind)) ∧
      graph.Executed config 0 outcome.jobGraph.jobs store after ∧
      (∀ (index : Nat) job, outcome.jobGraph.jobs[index]? = some job →
        job.id.value.toNat = index) ∧
      (∀ first ∈ outcome.jobGraph.jobs, ∀ second ∈ outcome.jobGraph.jobs,
        (⟨first.id, second.id⟩ ∈ outcome.jobGraph.edges.elements ↔
          graph.hasEdge first.stage second.stage = true)) ∧
      (∀ edge ∈ outcome.jobGraph.edges.elements,
        (∃ first ∈ outcome.jobGraph.jobs, ∃ second ∈ outcome.jobGraph.jobs,
          edge = ⟨first.id, second.id⟩) ∧ edge.earlier.value < edge.later.value) ∧
      (∀ job, job ∈ outcome.jobGraph.sources ↔
        job ∈ outcome.jobGraph.jobs ∧ job.stage ∈ graph.roots) ∧
      ∀ target, target ∈ outcome.outputs.keys ↔
        ∃ leaf ∈ graph.leaves, ∃ stage, graph.stage? leaf = some stage ∧
          stage.plan.storeTarget? = some target := by
  have perm := perm_stages_of_run ownId ran
  obtain ⟨numbered, executed⟩ := numbered_of_run ran
  obtain ⟨valid, queue, jobs, -, -, rfl⟩ := run_unfold.mp ran
  obtain ⟨exist, -, -⟩ := validate_eq_ok_iff.mp valid
  refine ⟨perm, executed, numbered.number, fun first isFirst second isSecond => ?_, ?_, ?_, ?_⟩
  · exact (numbered.mem_edges_iff isFirst isSecond).trans hasEdge_iff.symm
  · exact fun edge member => numbered.lt_of_mem_edges member
  · exact fun job => numbered.mem_sources_iff exist
  · exact fun target => mem_keys_leafRows

/-- The chain of copies has one job for each of its three stages. -/
theorem jobs_mirror_stages_copyChain :
    ∃ outcome after, (copyChain "extra").run {} Stage.salesStore = .ok outcome after ∧
      (outcome.jobGraph.jobs.map fun job => (job.stage, job.kind)).Perm
        [(⟨0⟩, .ordinary), (⟨1⟩, .ordinary), (⟨2⟩, .ordinary)] ∧
      ∀ target, target ∈ outcome.outputs.keys ↔ ∃ leaf ∈ (copyChain "extra").leaves,
        ∃ stage, (copyChain "extra").stage? leaf = some stage ∧
          stage.plan.storeTarget? = some target := by
  have copied : Stage.runTasks ⟨⟨2⟩, .ordinary, copyPlan (.stage ⟨0⟩) "copy", {}⟩
      (copyChain "extra") {} (copiedStore "extra") = .ok (copyTasks "copy" Stage.regionRows) := by
    rw [Stage.runTasks, phases_copyPlan]
    rfl
  obtain ⟨outcome, after, ran⟩ := exists_run_copyChain copied
  have ownId (id : StageId) (stage : Stage) (found : (copyChain "extra").stage? id = some stage) :
      stage.id = id := by
    have listed := OrderedMap.get?_eq_some_iff.mp found
    have ids : ∀ entry ∈ (copyChain "extra").stageMap.entries, entry.2.id = entry.1 := by decide
    exact ids _ listed
  obtain ⟨perm, -, -, -, -, -, outputs⟩ := jobs_mirror_stages ownId ran
  exact ⟨outcome, after, ran, perm, outputs⟩

end StageGraph

end BatchFlow
