import BatchFlow.Proofs.Engine.Parallelism
import BatchFlow.Proofs.Engine.Settling

/-!
# What flows between the stages of a run

A stage that loads another one reads whatever lies under the first target of that
stage when its job starts.  These are the rows that stage stored there, unless one
of its other stores, or a stage that ran in between, writes into, above or below
this directory.
-/

namespace BatchFlow

open FileStore ReadyQueue Results

namespace Stage

/-- The rows that a job gets for one of its loads: those that are bound for all
tasks, or those of all splits of the load. -/
def rowsRead (stage : Stage) (graph : StageGraph) (config : EngineConfig) (store : FileStore)
    (loader : Operator) : Except RunError (List Row) := do
  let input ← stage.addInput graph config store ⟨∅, 0, []⟩ loader
  match input.broadcast.get? loader.id with
  | some rows => return rows
  | none => (input.splits.mapM fun split => store.readFiles split.files).map List.flatten

variable {stage : Stage} {graph : StageGraph} {config : EngineConfig} {store : FileStore}

theorem readFiles_splitsOf (load : OpId) (directory : String) :
    ((stage.splitsOf config load (store.list directory)).mapM fun split =>
      store.readFiles split.files).map List.flatten = .ok (store.rowsOf directory) := by
  have read : (stage.splitsOf config load (store.list directory)).mapM
      (fun split => store.readFiles split.files) =
        .ok ((stage.splitsOf config load (store.list directory)).map fun split =>
          StageGraph.rowsOfFiles store split.files) := by
    rw [mapM_eq_ok, List.forall₂_map_right_iff, List.forall₂_same]
    intro split member
    refine readFiles_eq_ok.mpr ⟨fun path inSplit => ?_, rfl⟩
    exact (mem_list ((splitsOf_load member).2 path inSplit)).2
  have together : ((stage.splitsOf config load (store.list directory)).map fun split =>
      StageGraph.rowsOfFiles store split.files).flatten =
        StageGraph.rowsOfFiles store
          ((stage.splitsOf config load (store.list directory)).flatMap Split.files) := by
    rw [← List.flatMap_def, StageGraph.rowsOfFiles, List.flatMap_assoc]
    rfl
  rw [read, Except.map, together, flatMap_files_splitsOf]
  rfl

/-- However a load is read, its job gets the rows of its directory. -/
theorem rowsRead_eq_ok {loader : Operator} {source : LoadSource} {directory : String}
    (isLoad : loader.operation = .load source)
    (resolved : graph.directoryOf source = .ok directory) :
    stage.rowsRead graph config store loader = .ok (store.rowsOf directory) := by
  have resolves : graph.Resolves loader := by
    intro other isOther
    obtain rfl := Operation.load.inj (isLoad.symm.trans isOther)
    exact ⟨directory, resolved⟩
  have added : stage.addInput graph config store ⟨∅, 0, []⟩ loader =
      .ok (stage.extend graph config store ⟨∅, 0, []⟩ loader) :=
    addInput_eq_ok.mpr ⟨resolves, rfl⟩
  have files : graph.loadedFiles store loader = store.list directory :=
    StageGraph.loadedFiles_of_directory isLoad resolved
  have rows : graph.loadedRows store loader = store.rowsOf directory :=
    StageGraph.loadedRows_of_directory isLoad resolved
  have spread : stage.spreads loader = !stage.replicates loader := by
    rw [spreads, replicates, isLoad]
    cases stage.plan.broadcastLoads.contains loader.id <;> rfl
  rw [rowsRead, added]
  cases replicated : stage.replicates loader with
  | true =>
      have bound : (stage.extend graph config store ⟨∅, 0, []⟩ loader).broadcast.get? loader.id =
          some (store.rowsOf directory) := by
        simp only [extend, replicated, if_true, rows]
        exact OrderedMap.get?_insert_self ..
      simp only [bind, Except.bind, bound]
      rfl
  | false =>
      have unbound : (stage.extend graph config store ⟨∅, 0, []⟩ loader).broadcast = ∅ := by
        simp [extend, replicated]
      have splits : (stage.extend graph config store ⟨∅, 0, []⟩ loader).splits =
          stage.splitsOf config loader.id (store.list directory) := by
        simp [extend, spread, replicated, files]
      simp only [bind, Except.bind, unbound, OrderedMap.get?_empty, splits]
      exact readFiles_splitsOf loader.id directory

end Stage

namespace ReadyQueue

/-- What has left a queue after fewer steps are the first of those that leave it. -/
theorem take_drain {position fuel : Nat} (within : position ≤ fuel) (queue : ReadyQueue) :
    (queue.drain fuel).1.take position = (queue.drain position).1 := by
  induction position generalizing fuel queue with
  | zero => rfl
  | succ position ih =>
      obtain ⟨fuel, rfl⟩ := Nat.exists_eq_add_one_of_ne_zero (Nat.ne_zero_of_lt within)
      cases isReady : queue.ready with
      | nil => rw [drain_of_stuck _ isReady, drain_of_stuck _ isReady, List.take_nil]
      | cons next rest =>
          rw [drain_of_ready _ isReady, drain_of_ready _ isReady, List.take_succ_cons,
            ih (Nat.le_of_succ_le_succ within)]

theorem getElem?_drain {position fuel : Nat} (within : position < fuel) (queue : ReadyQueue) :
    (queue.drain fuel).1[position]? = (queue.drain position).2.ready.head? := by
  induction position generalizing fuel queue with
  | zero =>
      obtain ⟨fuel, rfl⟩ := Nat.exists_eq_add_one_of_ne_zero (Nat.ne_zero_of_lt within)
      cases isReady : queue.ready with
      | nil => rw [drain_of_stuck _ isReady, drain, isReady]; rfl
      | cons next rest => rw [drain_of_ready _ isReady, drain, isReady]; rfl
  | succ position ih =>
      obtain ⟨fuel, rfl⟩ := Nat.exists_eq_add_one_of_ne_zero (Nat.ne_zero_of_lt within)
      cases isReady : queue.ready with
      | nil => rw [drain_of_stuck _ isReady, drain_of_stuck _ isReady, isReady]; rfl
      | cons next rest =>
          rw [drain_of_ready _ isReady, drain_of_ready _ isReady, List.getElem?_cons_succ]
          exact ih (Nat.lt_of_succ_lt_succ within) _

variable {graph : StageGraph} {done : List StageId} {queue : ReadyQueue}

theorem Releasing.length_le (releasing : Releasing graph done queue) :
    done.length ≤ graph.size := by
  rw [← StageGraph.length_stageIds]
  exact (List.subperm_of_subset releasing.doneNodup fun id => releasing.doneExist id).length_le

theorem lt_size_of_ready (exist : graph.EdgesExist) {position : Nat} {id : StageId}
    {rest : List StageId} (isReady : ((ofGraph graph).drain position).2.ready = id :: rest) :
    position < graph.size := by
  obtain ⟨drained, ends⟩ := (Releasing.initial exist).drain position
  have length : ((ofGraph graph).drain position).1.length = position :=
    ends.resolve_right (by rw [isReady]; exact List.cons_ne_nil _ _)
  have within := (drained.step isReady).length_le
  rw [List.nil_append, List.length_append, length] at within
  exact within

end ReadyQueue

namespace StageGraph

/-- The job at a position of a run runs a stage on a store. -/
def Submits (graph : StageGraph) (config : EngineConfig) (start : FileStore) (position : Nat)
    (id : StageId) (store : FileStore) : Prop :=
  ∃ queue jobs rest,
    graph.runReady config position (ofGraph graph) [] start = .ok (queue, jobs) store ∧
      queue.pop = some (id, rest)

variable {graph : StageGraph} {config : EngineConfig} {start store after : FileStore}
  {first second ids : List StageId} {position : Nat} {id : StageId}

theorem runsThrough_append :
    graph.RunsThrough config (first ++ second) start after ↔
      ∃ between, graph.RunsThrough config first start between ∧
        graph.RunsThrough config second between after := by
  induction first generalizing start with
  | nil => simp [RunsThrough]
  | cons id first ih =>
      simp only [List.cons_append, RunsThrough, ih]
      constructor
      · rintro ⟨stage, tasks, found, ran, between, front, back⟩
        exact ⟨between, ⟨stage, tasks, found, ran, front⟩, back⟩
      · rintro ⟨between, ⟨stage, tasks, found, ran, front⟩, back⟩
        exact ⟨stage, tasks, found, ran, between, front, back⟩

/-- What lies outside of the targets of some stages does not change when they run. -/
theorem RunsThrough.get?_of_outside {path : String}
    (through : graph.RunsThrough config ids start after)
    (outside : ∀ id ∈ ids, ∀ stage, graph.stage? id = some stage →
      ∀ target ∈ stage.plan.targets, ¬ Within target path) :
    after.files.get? path = start.files.get? path := by
  induction ids generalizing start with
  | nil => rw [← (through : start = after)]
  | cons id ids ih =>
      obtain ⟨stage, tasks, found, ran, rest⟩ := through
      obtain ⟨outsideFirst, outsideRest⟩ := List.forall_mem_cons.mp outside
      rw [ih rest outsideRest]
      exact get?_writes_of_outside (outsideFirst stage found)

/-- The jobs of a run are those of its release order. -/
theorem submits_iff (exist : graph.EdgesExist) :
    graph.Submits config start position id store ↔
      (releaseOrder graph)[position]? = some id ∧
        graph.RunsThrough config ((releaseOrder graph).take position) start store := by
  have popped (queue : ReadyQueue) :
      (∃ rest, queue.pop = some (id, rest)) ↔ queue.ready.head? = some id := by
    rw [pop]
    cases queue.ready <;> simp
  have byDrain : graph.Submits config start position id store ↔
      ((ofGraph graph).drain position).2.ready.head? = some id ∧
        graph.RunsThrough config ((ofGraph graph).drain position).1 start store := by
    rw [← popped]
    constructor
    · rintro ⟨queue, jobs, rest, ran, isNext⟩
      obtain ⟨rfl, through⟩ := runReady_eq_ok.mp ⟨jobs, ran⟩
      exact ⟨⟨rest, isNext⟩, through⟩
    · rintro ⟨⟨rest, isNext⟩, through⟩
      obtain ⟨jobs, ran⟩ := runReady_eq_ok.mpr ⟨rfl, through⟩
      exact ⟨_, jobs, rest, ran, isNext⟩
  rw [byDrain, releaseOrder]
  by_cases within : position < graph.size
  · rw [getElem?_drain within, take_drain (Nat.le_of_lt within)]
  · constructor
    · rintro ⟨isNext, -⟩
      obtain ⟨rest, isReady⟩ := List.head?_eq_some_iff.mp isNext
      exact absurd (lt_size_of_ready exist isReady) within
    · rintro ⟨isAt, -⟩
      have inside := (List.getElem?_eq_some_iff.mp isAt).1
      have bounded := ((Releasing.initial exist).drain graph.size).1.length_le
      rw [List.nil_append] at bounded
      omega

theorem exists_writes {plan : SubPlan} {target : String} (tasks : StageTasks)
    (first : plan.storeTarget? = some target) :
    ∃ parts rest, tasks.writes plan = (target, parts) :: rest ∧
      rest.map Prod.fst = plan.targets.tail := by
  have isHead : plan.targets.head? = some target := by
    rw [SubPlan.targets, List.head?_filterMap]
    exact first
  cases written : tasks.writes plan with
  | nil =>
      rw [← tasks.map_fst_writes, written] at isHead
      simp at isHead
  | cons write rest =>
      rw [← tasks.map_fst_writes, written] at isHead ⊢
      obtain rfl := Option.some.inj isHead
      exact ⟨write.2, rest, rfl, rfl⟩

/-- No other store of the writer, and none of the jobs between two positions, writes
into, above or below a directory. -/
def Undisturbed (graph : StageGraph) (config : EngineConfig) (start : FileStore) (writer : Stage)
    (directory : String) (earlier later : Nat) : Prop :=
  (∀ other ∈ writer.plan.targets.tail, Apart directory other) ∧
    ∀ position id store stage, earlier < position → position < later →
      graph.Submits config start position id store → graph.stage? id = some stage →
        ∀ target ∈ stage.plan.targets, Apart directory target

/-- A stage among those taken before a position was submitted when the stages before
it had run. -/
theorem submits_of_split (exist : graph.EdgesExist) {front back : List StageId}
    (order : (releaseOrder graph).take position = front ++ id :: back)
    (through : graph.RunsThrough config front start store) :
    front.length < position ∧ graph.Submits config start front.length id store := by
  have inside : front.length < position := by
    have lengths := congrArg List.length order
    rw [List.length_take, List.length_append, List.length_cons] at lengths
    omega
  refine ⟨inside, (submits_iff exist).mpr ⟨?_, ?_⟩⟩
  · rw [← List.getElem?_take_of_lt inside, order, List.getElem?_append_right (Nat.le_refl _),
      Nat.sub_self]
    rfl
  · have taken : (releaseOrder graph).take front.length = front := by
      rw [← Nat.min_eq_left (Nat.le_of_lt inside), ← List.take_take, order, List.take_left]
    rwa [taken]

/-- What a stage wrote is still there at a later position, if nothing disturbed it. -/
theorem Undisturbed.rowsOf_perm (exist : graph.EdgesExist) {before between : List StageId}
    {source : StageId} {writer : Stage} {tasks : StageTasks} {writtenOn : FileStore}
    {target : String} {parts : List (List Row)} {rest : List (String × List (List Row))}
    (undisturbed : graph.Undisturbed config start writer target before.length position)
    (order : (releaseOrder graph).take position = before ++ source :: between)
    (reached : graph.RunsThrough config (before ++ [source]) start
      (writtenOn.replaceAll (tasks.writes writer.plan)))
    (onward : graph.RunsThrough config between
      (writtenOn.replaceAll (tasks.writes writer.plan)) store)
    (written : tasks.writes writer.plan = (target, parts) :: rest)
    (restTargets : rest.map Prod.fst = writer.plan.targets.tail) :
    (store.rowsOf target).Perm parts.flatten := by
  obtain ⟨apartRest, apartBetween⟩ := undisturbed
  have outsideBetween : ∀ path, Within target path → ∀ other ∈ between, ∀ stage,
      graph.stage? other = some stage → ∀ directory ∈ stage.plan.targets,
        ¬ Within directory path := by
    intro path within other member stage found directory isTarget
    obtain ⟨front, back, rfl⟩ := List.append_of_mem member
    obtain ⟨middle, toOther, -⟩ := runsThrough_append.mp onward
    have split : (releaseOrder graph).take position =
        (before ++ [source] ++ front) ++ other :: back := by
      rw [order]
      simp
    obtain ⟨earlier, submits⟩ :=
      submits_of_split exist split (runsThrough_append.mpr ⟨_, reached, toOther⟩)
    have later : before.length < (before ++ [source] ++ front).length := by
      simp
    exact within.not_within (apartBetween _ other middle stage later earlier submits found
      directory isTarget)
  have unchanged : ∀ path, Within target path →
      store.files.get? path = (writtenOn.replace target parts).files.get? path := by
    intro path within
    rw [onward.get?_of_outside (outsideBetween path within), written]
    have outsideRest : ∀ write ∈ rest, ¬ Within write.1 path := by
      intro write isLater
      apply within.not_within
      apply apartRest
      rw [← restTargets]
      exact List.mem_map_of_mem isLater
    exact get?_replaceAll_of_not_within outsideRest
  rw [rowsOf_congr unchanged]
  exact rowsOf_replace writtenOn target parts

/-- In a run that succeeds, a job that loads another stage gets the rows under the
first target of this stage, whose job was an earlier one.  If nothing has disturbed
this target since, then they are the rows that job stored there. -/
theorem rows_of_loaded_stage {outcome : RunOutcome} {final : FileStore}
    (ran : graph.run config start = .ok outcome final)
    (submits : graph.Submits config start position id store) {reader : Stage}
    (found : graph.stage? id = some reader) {loader : Operator} {source : StageId}
    (inPlan : loader ∈ reader.plan.operators) (isLoad : loader.operation = .load (.stage source)) :
    ∃ rows earlier writer writtenOn tasks target parts,
      reader.rowsRead graph config store loader = .ok rows ∧
      earlier < position ∧ graph.Submits config start earlier source writtenOn ∧
      graph.stage? source = some writer ∧
      writer.runTasks graph config writtenOn = .ok tasks ∧
      (tasks.writes writer.plan).head? = some (target, parts) ∧
      (graph.Undisturbed config start writer target earlier position →
        rows.Perm parts.flatten) := by
  obtain ⟨valid, queue, jobs, ready, -, -⟩ := run_unfold.mp ran
  obtain ⟨exist, ⟨rank, ranked⟩, checked⟩ := validate_eq_ok_iff.mp valid
  obtain ⟨-, ordered, -⟩ := releaseOrder_covers ranked exist
  obtain ⟨isAt, through⟩ := (submits_iff exist).mp submits
  have everything : graph.RunsThrough config (releaseOrder graph) start final :=
    (runReady_eq_ok.mp ⟨jobs, ready⟩).2
  -- The reader succeeds too, so the stage it loads has a first target.
  have split : releaseOrder graph =
      (releaseOrder graph).take position ++ id :: (releaseOrder graph).drop (position + 1) := by
    obtain ⟨inside, rfl⟩ := List.getElem?_eq_some_iff.mp isAt
    rw [← List.drop_eq_getElem_cons, List.take_append_drop]
  obtain ⟨writer, target, foundWriter, isFirst⟩ : ∃ writer target,
      graph.stage? source = some writer ∧ writer.plan.storeTarget? = some target := by
    rw [split] at everything
    obtain ⟨here, -, stage, tasks, foundStage, tasksRan, -⟩ := runsThrough_append.mp everything
    obtain rfl := Option.some.inj (found.symm.trans foundStage)
    obtain ⟨directory, resolved⟩ := Stage.resolves_of_runTasks tasksRan loader inPlan _ isLoad
    obtain ⟨writer, foundWriter, isFirst⟩ := directoryOf_stage_eq_ok.mp resolved
    exact ⟨writer, directory, foundWriter, isFirst⟩
  have isPredecessor : source ∈ graph.predecessors id :=
    backed_of_valid checked id reader found source ⟨loader, inPlan, isLoad⟩
  obtain ⟨before, between, order⟩ :=
    List.append_of_mem (ordered _ id _ split source isPredecessor)
  rw [order] at through
  obtain ⟨writtenOn, toWriter, stage, tasks, foundStage, tasksRan, onward⟩ :=
    runsThrough_append.mp through
  obtain rfl := Option.some.inj (foundWriter.symm.trans foundStage)
  obtain ⟨earlier, submitted⟩ := submits_of_split exist order toWriter
  obtain ⟨parts, rest, written, restTargets⟩ := exists_writes tasks isFirst
  have reached : graph.RunsThrough config (before ++ [source]) start
      (writtenOn.replaceAll (tasks.writes writer.plan)) :=
    runsThrough_append.mpr ⟨writtenOn, toWriter, writer, tasks, foundWriter, tasksRan, rfl⟩
  have resolved : graph.directoryOf (.stage source) = .ok target :=
    directoryOf_stage_eq_ok.mpr ⟨writer, foundWriter, isFirst⟩
  refine ⟨store.rowsOf target, before.length, writer, writtenOn, tasks, target, parts,
    Stage.rowsRead_eq_ok isLoad resolved, earlier, submitted, foundWriter, tasksRan, ?_, ?_⟩
  · rw [written]
    rfl
  · intro undisturbed
    exact undisturbed.rowsOf_perm exist order reached onward written restTargets

/-- A plan that copies what a load reads. -/
def copyPlan (source : LoadSource) (target : String) : SubPlan :=
  (SubPlan.empty.insert ⟨⟨0⟩, .load source, []⟩).insert ⟨⟨1⟩, .store target, [⟨0⟩]⟩

/-- A graph that copies the regions and then this copy, and on the side the sales. -/
def copyChain (side : String) : StageGraph :=
  ⟨((OrderedMap.insert ∅ ⟨0⟩ ⟨⟨0⟩, .ordinary, copyPlan (.dataset "regions") "out", {}⟩).insert
    ⟨1⟩ ⟨⟨1⟩, .ordinary, copyPlan (.dataset "sales") side, {}⟩).insert
    ⟨2⟩ ⟨⟨2⟩, .ordinary, copyPlan (.stage ⟨0⟩) "copy", {}⟩, OrderedSet.insert ∅ ⟨⟨0⟩, ⟨2⟩⟩, 3⟩

/-- The tasks of a stage that copies some rows. -/
def copyTasks (target : String) (rows : List Row) : StageTasks :=
  ⟨⟨[⟨0⟩, ⟨1⟩], []⟩, 0, [⟨(∅ : OrderedMap String (List Row)).insert target rows, ∅⟩], []⟩

/-- The store once the regions and the sales are copied. -/
def copiedStore (side : String) : FileStore :=
  (Stage.salesStore.replaceAll [("out", [Stage.regionRows])]).replaceAll [(side, [Stage.salesRows])]

section CopyChain

variable (side : String)

theorem valid_copyChain : (copyChain side).validate = .ok 3 := by
  have order : (copyChain side).order = .ok [⟨0⟩, ⟨1⟩, ⟨2⟩] := by cbv
  rw [validate, order]
  rfl

theorem phases_copyPlan (source : LoadSource) (target : String) :
    (copyPlan source target).phases = .ok ⟨[⟨0⟩, ⟨1⟩], []⟩ := by
  cbv

theorem writes_copyTasks (source : LoadSource) (target : String) (rows : List Row) :
    (copyTasks target rows).writes (copyPlan source target) = [(target, [rows])] := by
  have stored : ((∅ : OrderedMap String (List Row)).insert target rows).get? target = some rows :=
    OrderedMap.get?_insert_self ..
  show [(target, [(((∅ : OrderedMap String (List Row)).insert target rows).get? target).getD []])] =
    _
  rw [stored]
  rfl

theorem runTasks_copyRegions :
    Stage.runTasks ⟨⟨0⟩, .ordinary, copyPlan (.dataset "regions") "out", {}⟩ (copyChain side) {}
      Stage.salesStore = .ok (copyTasks "out" Stage.regionRows) := by
  rw [Stage.runTasks, phases_copyPlan]
  rfl

theorem runTasks_copySales :
    Stage.runTasks ⟨⟨1⟩, .ordinary, copyPlan (.dataset "sales") side, {}⟩ (copyChain side) {}
      (Stage.salesStore.replaceAll [("out", [Stage.regionRows])]) =
        .ok (copyTasks side Stage.salesRows) := by
  rw [Stage.runTasks, phases_copyPlan]
  rfl

theorem runsThrough_copyChain :
    (copyChain side).RunsThrough {} [⟨0⟩, ⟨1⟩] Stage.salesStore (copiedStore side) := by
  refine ⟨_, _, rfl, runTasks_copyRegions side, ?_⟩
  rw [writes_copyTasks]
  refine ⟨_, _, rfl, runTasks_copySales side, ?_⟩
  rw [writes_copyTasks]
  rfl

theorem edgesExist_copyChain : (copyChain side).EdgesExist :=
  (validate_eq_ok_iff.mp ⟨3, valid_copyChain side⟩).1

theorem submits_copyChain :
    (copyChain side).Submits {} Stage.salesStore 2 ⟨2⟩ (copiedStore side) :=
  (submits_iff (edgesExist_copyChain side)).mpr ⟨rfl, runsThrough_copyChain side⟩

variable {side}

theorem exists_run_copyChain {tasks : StageTasks}
    (copied : Stage.runTasks ⟨⟨2⟩, .ordinary, copyPlan (.stage ⟨0⟩) "copy", {}⟩ (copyChain side) {}
      (copiedStore side) = .ok tasks) :
    ∃ outcome final, (copyChain side).run {} Stage.salesStore = .ok outcome final := by
  have last : (copyChain side).RunsThrough {} [⟨2⟩] (copiedStore side)
      ((copiedStore side).replaceAll (tasks.writes (copyPlan (.stage ⟨0⟩) "copy"))) :=
    ⟨_, tasks, rfl, copied, rfl⟩
  have through : (copyChain side).RunsThrough {} (releaseOrder (copyChain side)) Stage.salesStore
      ((copiedStore side).replaceAll (tasks.writes (copyPlan (.stage ⟨0⟩) "copy"))) :=
    runsThrough_append.mpr ⟨_, runsThrough_copyChain side, last⟩
  obtain ⟨outcome, ran, -⟩ := exists_outcome_of_runsThrough ⟨3, valid_copyChain side⟩ through
  exact ⟨outcome, _, ran⟩

end CopyChain

theorem undisturbed_copyChain (earlier : Nat) :
    (copyChain "extra").Undisturbed {} Stage.salesStore
      ⟨⟨0⟩, .ordinary, copyPlan (.dataset "regions") "out", {}⟩ "out" earlier 2 := by
  constructor
  · intro other member
    exact absurd member List.not_mem_nil
  · intro position id store stage above below submits found target isTarget
    obtain rfl : position = 1 := by omega
    obtain ⟨isSecond, -⟩ := (submits_iff (edgesExist_copyChain "extra")).mp submits
    obtain rfl := Option.some.inj isSecond
    obtain rfl := Option.some.inj found
    obtain rfl : target = "extra" := List.mem_singleton.mp isTarget
    decide

/-- The sales are stored apart from the copy, which holds the regions. -/
theorem rows_of_loaded_stage_copyChain :
    ∃ outcome final, ∃ (rows : List Row) (parts : List (List Row)),
      (copyChain "extra").run {} Stage.salesStore = .ok outcome final ∧
      (copyChain "extra").Submits {} Stage.salesStore 2 ⟨2⟩ (copiedStore "extra") ∧
      Stage.rowsRead ⟨⟨2⟩, .ordinary, copyPlan (.stage ⟨0⟩) "copy", {}⟩ (copyChain "extra") {}
        (copiedStore "extra") ⟨⟨0⟩, .load (.stage ⟨0⟩), []⟩ = .ok rows ∧
      rows.length = 2 ∧ rows.Perm parts.flatten := by
  have copied : Stage.runTasks ⟨⟨2⟩, .ordinary, copyPlan (.stage ⟨0⟩) "copy", {}⟩
      (copyChain "extra") {} (copiedStore "extra") = .ok (copyTasks "copy" Stage.regionRows) := by
    rw [Stage.runTasks, phases_copyPlan]
    rfl
  obtain ⟨outcome, final, ran⟩ := exists_run_copyChain copied
  have found : (copyChain "extra").stage? ⟨2⟩ =
      some ⟨⟨2⟩, .ordinary, copyPlan (.stage ⟨0⟩) "copy", {}⟩ := rfl
  have inPlan : (⟨⟨0⟩, .load (.stage ⟨0⟩), []⟩ : Operator) ∈
      (copyPlan (.stage ⟨0⟩) "copy").operators := List.mem_cons_self
  obtain ⟨rows, earlier, writer, writtenOn, tasks, target, parts, read, -, -, foundWriter, -,
    isHead, undisturbed⟩ := rows_of_loaded_stage ran (submits_copyChain "extra") found inPlan rfl
  obtain rfl := Option.some.inj foundWriter
  obtain rfl : "out" = target := by
    have first := congrArg List.head? (tasks.map_fst_writes (copyPlan (.dataset "regions") "out"))
    rw [List.head?_map, isHead] at first
    exact (Option.some.inj first).symm
  have isRows : Stage.regionRows = rows := Except.ok.inj
    ((Stage.rowsRead_eq_ok rfl (rfl : (copyChain "extra").directoryOf (.stage ⟨0⟩) = .ok "out")
      ).symm.trans read)
  exact ⟨outcome, final, rows, parts, ran, submits_copyChain "extra", read,
    by rw [← isRows]; rfl, undisturbed (undisturbed_copyChain earlier)⟩

/-- Sales stored below the copy of the regions are read as part of it. -/
theorem nested_sales_read_as_regions :
    (copyChain "out/b").validate = .ok 3 ∧
      (∃ outcome final, (copyChain "out/b").run {} Stage.salesStore = .ok outcome final) ∧
      (copyChain "out/b").Submits {} Stage.salesStore 2 ⟨2⟩ (copiedStore "out/b") ∧
      (copyChain "out/b").Submits {} Stage.salesStore 0 ⟨0⟩ Stage.salesStore ∧
      Stage.runTasks ⟨⟨0⟩, .ordinary, copyPlan (.dataset "regions") "out", {}⟩ (copyChain "out/b")
        {} Stage.salesStore = .ok (copyTasks "out" Stage.regionRows) ∧
      ((copyTasks "out" Stage.regionRows).writes (copyPlan (.dataset "regions") "out")).head? =
        some ("out", [Stage.regionRows]) ∧
      Stage.rowsRead ⟨⟨2⟩, .ordinary, copyPlan (.stage ⟨0⟩) "copy", {}⟩ (copyChain "out/b") {}
        (copiedStore "out/b") ⟨⟨0⟩, .load (.stage ⟨0⟩), []⟩ =
          .ok (Stage.salesRows ++ Stage.regionRows) ∧
      ¬ (Stage.salesRows ++ Stage.regionRows).Perm [Stage.regionRows].flatten := by
  have copied : Stage.runTasks ⟨⟨2⟩, .ordinary, copyPlan (.stage ⟨0⟩) "copy", {}⟩
      (copyChain "out/b") {} (copiedStore "out/b") =
        .ok (copyTasks "copy" (Stage.salesRows ++ Stage.regionRows)) := by
    rw [Stage.runTasks, phases_copyPlan]
    rfl
  have submitsFirst : (copyChain "out/b").Submits {} Stage.salesStore 0 ⟨0⟩ Stage.salesStore :=
    (submits_iff (edgesExist_copyChain "out/b")).mpr ⟨rfl, rfl⟩
  refine ⟨valid_copyChain _, exists_run_copyChain copied, submits_copyChain _, submitsFirst,
    runTasks_copyRegions _, ?_, ?_, fun perm => absurd perm.length_eq (by decide)⟩
  · rw [writes_copyTasks]
    rfl
  · exact Stage.rowsRead_eq_ok rfl
      (rfl : (copyChain "out/b").directoryOf (.stage ⟨0⟩) = .ok "out")

end StageGraph

end BatchFlow
